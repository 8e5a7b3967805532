import X2rp.Proto.Obfs

/-! `decrypt_meta_payload` with every index and every `usize` checked. -/
namespace X2rp.Proto.Obfs

open Chunks

/-- How an expression can abort the program. -/
inductive Panic
  | outOfBounds
  | overflow
deriving DecidableEq, Repr

/-- `usize` has 64 bits. -/
def usizeSize : Nat := 2 ^ 64

/-- What an expression asks of its operands. -/
def require (p : Prop) [Decidable p] (panic : Panic) : Except Panic Unit :=
  if p then .ok () else .error panic

variable (C : Cipher) (secret : Secret)

/-- `buf[start..stop]`. -/
def slice (buf : Bytes) (start stop : Nat) : Except Panic Bytes := do
  require (start ≤ stop ∧ stop ≤ buf.length) .outOfBounds
  return (buf.drop start).take (stop - start)

/-- `buf.copy_within(start..stop, dest)`. -/
def copyWithinChecked (buf : Bytes) (start stop dest : Nat) : Except Panic Bytes := do
  require (start ≤ stop ∧ stop ≤ buf.length) .outOfBounds
  require (dest + (stop - start) ≤ buf.length) .outOfBounds
  return copyWithin buf start stop dest

/-- The loop, with what it leaves in the buffer also when it fails. -/
def segmentLoop (len stride : Nat) (hs : ivLen < stride) (buf : Bytes)
    (writeOffset segmentStart : Nat) : Except Panic (Bytes × Except String Nat) :=
  if segmentStart < len then do
    require (segmentStart + stride < usizeSize) .overflow
    let segmentEnd := min (segmentStart + stride) len
    require (segmentStart ≤ segmentEnd) .overflow
    let segmentLen := segmentEnd - segmentStart
    if segmentLen ≤ ivLen then return (buf, .error "obfuscated datagram segment is too small")
    require (segmentStart + ivLen < usizeSize) .overflow
    let iv ← slice buf segmentStart (segmentStart + ivLen)
    require (ivLen ≤ segmentLen) .overflow
    let payloadLen := segmentLen - ivLen
    let buf ← copyWithinChecked buf (segmentStart + ivLen) segmentEnd writeOffset
    require (writeOffset + payloadLen < usizeSize) .overflow
    let payload ← slice buf writeOffset (writeOffset + payloadLen)
    let buf := buf.take writeOffset ++ applyKeystream (C secret iv) payload ++
      buf.drop (writeOffset + payloadLen)
    segmentLoop len stride hs buf (writeOffset + payloadLen) (segmentStart + stride)
  else return (buf, .ok writeOffset)
termination_by len - segmentStart

theorem ivLen_lt_stride {info : RecvMeta} (h : ¬ (info.len = 0 ∨ info.stride ≤ ivLen)) :
    ivLen < info.stride :=
  not_le.mp (not_or.mp h).2

/-- `decrypt_meta_payload` on its two mutable arguments. -/
def decryptMetaPayloadMut (buf : Bytes) (info : RecvMeta) :
    Except Panic (Bytes × RecvMeta × Except String Unit) :=
  if h : info.len = 0 ∨ info.stride ≤ ivLen then
    return (buf, info, .error "obfuscated datagram is too small")
  else do
    let (buf, result) ←
      segmentLoop C secret info.len info.stride (ivLen_lt_stride h) buf 0 0
    match result with
    | .error e => return (buf, info, .error e)
    | .ok writeOffset =>
      require (ivLen ≤ info.stride) .overflow
      return (buf, ⟨writeOffset, info.stride - ivLen⟩, .ok ())

variable {C secret} {buf : Bytes} {len stride w start : Nat} {hs : ivLen < stride}

theorem require_bind {α : Type} {p : Prop} [Decidable p] {panic : Panic}
    {x : Unit → Except Panic α} (h : p) : (require p panic >>= x) = x () := by
  simp only [require, if_pos h]
  rfl

theorem ok_bind {α γ : Type} (a : α) (f : α → Except Panic γ) : (.ok a >>= f) = f a := rfl

theorem slice_eq {stop : Nat} (h : start ≤ stop ∧ stop ≤ buf.length) :
    slice buf start stop = .ok ((buf.drop start).take (stop - start)) := by
  rw [slice, require_bind h]
  rfl

theorem copyWithinChecked_eq {stop dest : Nat} (h : start ≤ stop ∧ stop ≤ buf.length)
    (hd : dest + (stop - start) ≤ buf.length) :
    copyWithinChecked buf start stop dest = .ok (copyWithin buf start stop dest) := by
  rw [copyWithinChecked, require_bind h, require_bind hd]
  rfl

theorem length_copyWithin {stop dest : Nat} (h : start ≤ stop ∧ stop ≤ buf.length)
    (hd : dest + (stop - start) ≤ buf.length) :
    (copyWithin buf start stop dest).length = buf.length := by
  simp only [copyWithin, List.length_append, List.length_take, List.length_drop]
  omega

/-- No expression of the loop aborts, and the loop does what the one without the checks does. -/
theorem segmentLoop_eq (C : Cipher) (secret : Secret) (hs : ivLen < stride) (buf : Bytes)
    (w start : Nat) (hlen : len ≤ buf.length) (hsize : len + stride < usizeSize) (hw : w ≤ start) :
    ∃ buf', segmentLoop C secret len stride hs buf w start =
        .ok (buf', (decryptSegments C secret len stride hs buf w start).map Prod.snd) ∧
      buf'.length = buf.length ∧
      ∀ b n, decryptSegments C secret len stride hs buf w start = .ok (b, n) → b = buf' := by
  rw [segmentLoop, decryptSegments]
  by_cases hlt : start < len
  · rw [if_pos hlt, if_pos hlt]
    simp only
    rw [require_bind (by omega), require_bind (by omega)]
    by_cases hsmall : min (start + stride) len - start ≤ ivLen
    · rw [if_pos hsmall, if_pos hsmall]
      refine ⟨buf, rfl, rfl, fun b n hb => ?_⟩
      cases hb
    · rw [if_neg hsmall, if_neg hsmall, require_bind (by omega), slice_eq (by omega), ok_bind,
        require_bind (by omega), copyWithinChecked_eq (by omega) (by omega), ok_bind,
        require_bind (by omega)]
      have hcopy : (copyWithin buf (start + ivLen) (min (start + stride) len) w).length =
          buf.length := length_copyWithin (by omega) (by omega)
      rw [slice_eq (by omega), ok_bind, Nat.add_sub_cancel_left, Nat.add_sub_cancel_left]
      -- The buffer keeps its length, and the written part stays behind the next segment.
      generalize hnext : List.take w (copyWithin buf (start + ivLen) _ w) ++ _ ++ _ = next
      have hlength : next.length = buf.length := by
        rw [← hnext]
        simp only [List.length_append, length_applyKeystream, List.length_take, List.length_drop,
          hcopy]
        omega
      obtain ⟨buf', hloop, hlen', hbuf⟩ := segmentLoop_eq C secret hs next
        (w + (min (start + stride) len - start - ivLen)) (start + stride) (by omega) hsize
        (by omega)
      exact ⟨buf', hloop, by omega, hbuf⟩
  · rw [if_neg hlt, if_neg hlt]
    refine ⟨buf, rfl, rfl, fun b n hb => ?_⟩
    cases hb
    rfl
termination_by len - start

section Group

variable {group : List Bytes} {p : Bytes}

/-- A segment without a payload, which only the last one can be, ends the loop. -/
theorem decryptSegments_short (C : Cipher) (secret : Secret) (hs : ivLen < stride)
    (plain gap spare : Bytes) (hcut : IsCut stride group) (hshort : ∃ p ∈ group, p.length ≤ ivLen)
    (hlen : len = (plain ++ gap).length + group.flatten.length) :
    decryptSegments C secret len stride hs (plain ++ gap ++ group.flatten ++ spare)
        plain.length (plain ++ gap).length =
      .error "obfuscated datagram segment is too small" := by
  induction group generalizing plain gap with
  | nil => simp at hshort
  | cons p ps ih =>
    have hpos := hcut.pos (by omega) List.mem_cons_self
    have hlen : len = (plain ++ gap).length + p.length + ps.flatten.length := by
      simpa [Nat.add_assoc] using hlen
    cases ps with
    | nil =>
      obtain ⟨q, hq, hle⟩ := hshort
      obtain rfl := List.mem_singleton.mp hq
      rw [List.flatten_nil, List.length_nil] at hlen
      rw [decryptSegments, if_pos (by omega)]
      exact if_pos (by omega)
    | cons q ps =>
      have hp : p.length = stride := hcut.1
      have hdec : (decodeSegment C secret p).length = p.length - ivLen := length_decodeSegment
      have hshort' : ∃ r ∈ q :: ps, r.length ≤ ivLen := by
        obtain ⟨r, hr, hle⟩ := hshort
        rcases List.mem_cons.mp hr with rfl | hr
        · omega
        · exact ⟨r, hr, hle⟩
      have ih := ih (plain ++ decodeSegment C secret p) ((gap ++ p).drop (p.length - ivLen)) hcut.2
        hshort' (by simp [hdec] at hlen ⊢; omega)
      rw [List.flatten_cons, ← List.append_assoc, List.append_assoc _ (q :: ps).flatten,
        decryptSegments_step (by omega) (by omega), ← ih]
      congr 1
      · simp
      · simp [hdec]
      · simp [hdec]
        omega

theorem length_flatten_decode (hiv : ∀ p ∈ group, ivLen < p.length) :
    (group.map (decodeSegment C secret)).flatten.length =
      group.flatten.length - ivLen * group.length := by
  have hsum : (group.map (decodeSegment C secret)).flatten.length + ivLen * group.length =
      group.flatten.length := by
    induction group with
    | nil => rfl
    | cons p ps ih =>
      have hp := hiv p List.mem_cons_self
      have ih := ih fun q hq => hiv q (List.mem_cons_of_mem p hq)
      simp only [List.map_cons, List.flatten_cons, List.length_append, List.length_cons,
        length_decodeSegment, Nat.mul_add, Nat.mul_one]
      omega
  omega

end Group

variable {info : RecvMeta}

/-- What a receive buffer has to look like to be decrypted. -/
def RecvMeta.Sound (info : RecvMeta) : Prop :=
  0 < info.len ∧ ivLen < info.stride ∧
    (info.len % info.stride = 0 ∨ ivLen < info.len % info.stride)

/-- The segments of a receive buffer, each decrypted alone. -/
def decoded (C : Cipher) (secret : Secret) (buf : Bytes) (info : RecvMeta) : Bytes :=
  ((chunks info.stride (buf.take info.len)).map (decodeSegment C secret)).flatten

theorem decryptMetaPayload_sound (C : Cipher) (secret : Secret) (hlen : info.len ≤ buf.length)
    (h : info.Sound) : ∃ rest, decryptMetaPayload C secret buf info =
      .ok (decoded C secret buf info ++ rest,
        ⟨(decoded C secret buf info).length, info.stride - ivLen⟩) := by
  obtain ⟨hpos, hstride, hmod⟩ := h
  have htake : (buf.take info.len).length = info.len := by simpa using hlen
  have hflat := flatten_chunks (l := buf.take info.len) (show 0 < info.stride by omega)
  have hall : info.len = ([] ++ [] : Bytes).length +
      (chunks info.stride (buf.take info.len)).flatten.length := by
    simp [hflat]
    omega
  obtain ⟨rest, hrest⟩ := decryptSegments_group C secret hstride [] [] (buf.drop info.len)
    (isCut_chunks (by omega)) ((lt_length_chunks_iff hstride).mpr (htake.symm ▸ hmod)) hall
  rw [hflat] at hrest
  simp only [List.nil_append, List.take_append_drop, List.length_nil, Nat.zero_add] at hrest
  exact ⟨rest, decryptMetaPayload_eq info (by omega) hstride hrest⟩

theorem decryptMetaPayload_unsound (C : Cipher) (secret : Secret) (hlen : info.len ≤ buf.length)
    (h : ¬ info.Sound) : ∃ e, decryptMetaPayload C secret buf info = .error e := by
  by_cases hsmall : info.len = 0 ∨ info.stride ≤ ivLen
  · exact ⟨_, dif_pos hsmall⟩
  · have hstride := ivLen_lt_stride hsmall
    have htake : (buf.take info.len).length = info.len := by simpa using hlen
    have hflat := flatten_chunks (l := buf.take info.len) (show 0 < info.stride by omega)
    have hshort : ∃ p ∈ chunks info.stride (buf.take info.len), p.length ≤ ivLen := by
      by_contra hno
      push Not at hno
      have := (lt_length_chunks_iff hstride).mp hno
      rw [htake] at this
      exact h ⟨by omega, hstride, this⟩
    have hall : info.len = ([] ++ [] : Bytes).length +
        (chunks info.stride (buf.take info.len)).flatten.length := by
      simp [hflat]
      omega
    have herr := decryptSegments_short C secret hstride [] [] (buf.drop info.len)
      (isCut_chunks (by omega)) hshort hall
    rw [hflat] at herr
    simp only [List.nil_append, List.take_append_drop, List.length_nil] at herr
    refine ⟨"obfuscated datagram segment is too small", ?_⟩
    rw [decryptMetaPayload, dif_neg hsmall, herr]
    rfl

/-- No expression aborts, and the two arguments are left as the plain function says. -/
theorem decryptMetaPayloadMut_eq (C : Cipher) (secret : Secret) (hlen : info.len ≤ buf.length)
    (hsize : info.len + info.stride < usizeSize) :
    ∃ buf', buf'.length = buf.length ∧
      ((∃ info', decryptMetaPayload C secret buf info = .ok (buf', info') ∧
          decryptMetaPayloadMut C secret buf info = .ok (buf', info', .ok ())) ∨
        ∃ e, decryptMetaPayload C secret buf info = .error e ∧
          decryptMetaPayloadMut C secret buf info = .ok (buf', info, .error e)) := by
  by_cases hsmall : info.len = 0 ∨ info.stride ≤ ivLen
  · exact ⟨buf, rfl, .inr ⟨_, dif_pos hsmall, dif_pos hsmall⟩⟩
  · have hstride := ivLen_lt_stride hsmall
    obtain ⟨buf', hloop, hlength, hbuf⟩ :=
      segmentLoop_eq C secret hstride buf 0 0 hlen hsize le_rfl
    refine ⟨buf', hlength, ?_⟩
    cases hd : decryptSegments C secret info.len info.stride hstride buf 0 0 with
    | error e =>
      refine .inr ⟨e, ?_, ?_⟩
      · rw [decryptMetaPayload, dif_neg hsmall, hd]
        rfl
      · rw [decryptMetaPayloadMut, dif_neg hsmall, hloop, hd]
        rfl
    | ok p =>
      obtain rfl := hbuf p.1 p.2 hd
      refine .inl ⟨_, decryptMetaPayload_eq info (by omega) hstride hd, ?_⟩
      rw [decryptMetaPayloadMut, dif_neg hsmall, hloop, hd]
      exact require_bind (by omega)

/-- `decrypt_meta_payload` ends without aborting on every buffer. It succeeds exactly if no segment
is too small, and then every segment has been decrypted as if it were alone. -/
theorem decrypt_one_at_a_time (C : Cipher) (secret : Secret) (buf : Bytes) (info : RecvMeta)
    (hlen : info.len ≤ buf.length) (hsize : info.len + info.stride < usizeSize) :
    ∃ buf' info' result, decryptMetaPayloadMut C secret buf info = .ok (buf', info', result) ∧
      buf'.length = buf.length ∧
      (result = .ok () ↔ 0 < info.len ∧ ivLen < info.stride ∧
        (info.len % info.stride = 0 ∨ ivLen < info.len % info.stride)) ∧
      (result = .ok () →
        buf'.take info'.len =
          ((chunks info.stride (buf.take info.len)).map (decodeSegment C secret)).flatten ∧
        info'.len = info.len - ivLen * (chunks info.stride (buf.take info.len)).length ∧
        info'.stride = info.stride - ivLen) ∧
      (result ≠ .ok () → info' = info) := by
  obtain ⟨buf', hlength, hres⟩ := decryptMetaPayloadMut_eq C secret hlen hsize
  by_cases h : info.Sound
  · obtain ⟨rest, hok⟩ := decryptMetaPayload_sound C secret hlen h
    rcases hres with ⟨info', hpure, hmut⟩ | ⟨e, hpure, -⟩
    · rw [hok] at hpure
      cases hpure
      refine ⟨_, _, _, hmut, hlength, ⟨fun _ => h, fun _ => rfl⟩, fun _ => ⟨?_, ?_, rfl⟩, by simp⟩
      · exact List.take_left
      · have htake : (buf.take info.len).length = info.len := by simpa using hlen
        have hiv := (lt_length_chunks_iff h.2.1).mpr (htake.symm ▸ h.2.2)
        have hflat := flatten_chunks (l := buf.take info.len) (show 0 < info.stride by
          have := h.2.1
          omega)
        simp only [decoded]
        rw [length_flatten_decode hiv, hflat, htake]
    · rw [hok] at hpure
      cases hpure
  · obtain ⟨e', herr⟩ := decryptMetaPayload_unsound C secret hlen h
    rcases hres with ⟨info', hpure, -⟩ | ⟨e, -, hmut⟩
    · rw [herr] at hpure
      cases hpure
    · exact ⟨_, _, _, hmut, hlength, ⟨nofun, fun hs => absurd hs h⟩, nofun, fun _ => rfl⟩

/-- Two segments, the second one shorter, in a buffer with one byte to spare. -/
theorem decrypt_one_at_a_time_short_last : ∃ buf' info',
    decryptMetaPayloadMut sampleCipher sampleSecret
      (List.replicate 12 0 ++ [46, 40] ++ (List.replicate 12 1 ++ [12]) ++ [9]) ⟨27, 14⟩ =
        .ok (buf', info', .ok ()) ∧
      buf'.take info'.len = [1, 2, 3] ∧ info' = ⟨3, 2⟩ := by
  obtain ⟨buf', info', result, hmut, -, hiff, hok, -⟩ := decrypt_one_at_a_time sampleCipher
    sampleSecret (List.replicate 12 0 ++ [46, 40] ++ (List.replicate 12 1 ++ [12]) ++ [9]) ⟨27, 14⟩
    (by decide) (by decide)
  obtain rfl := hiff.mpr (by decide)
  obtain ⟨htake, hlen, hstride⟩ := hok rfl
  have hcut : chunks 14 (List.take 27
      (List.replicate 12 0 ++ [46, 40] ++ (List.replicate 12 1 ++ [12]) ++ [9]) : Bytes) =
        [List.replicate 12 0 ++ [46, 40], List.replicate 12 1 ++ [12]] :=
    chunks_flatten (show IsCut 14 ([List.replicate 12 0 ++ [46, 40],
      List.replicate 12 1 ++ [12]] : List Bytes) from ⟨rfl, by decide, by decide⟩) (by decide)
  rw [hcut] at htake hlen
  obtain ⟨len, stride⟩ := info'
  obtain rfl : len = 3 := hlen
  obtain rfl : stride = 2 := hstride
  exact ⟨buf', _, hmut, htake.trans (by decide), rfl⟩

end X2rp.Proto.Obfs
