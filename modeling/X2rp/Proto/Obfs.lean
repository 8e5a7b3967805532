import Mathlib.Data.UInt
import X2rp.Chunks
import X2rp.Proto.Message

/-! The obfuscation of UDP datagrams: each segment is masked under a random IV of its own. -/
namespace X2rp.Proto.Obfs

open Chunks

/-- The IV in front of each obfuscated segment. -/
def ivLen : Nat := 12

abbrev Secret := Vector UInt8 32

abbrev Iv := Vector UInt8 ivLen

/-- The ChaCha8 keystream: its bytes under a secret and an IV. -/
abbrev Cipher := Secret → Bytes → Nat → UInt8

def applyKeystream (keystream : Nat → UInt8) (bytes : Bytes) : Bytes :=
  bytes.mapIdx fun i b => b ^^^ keystream i

/-- `route` stands for the destination, the source and the ECN mark, which are passed on. -/
structure Transmit (ρ : Type*) where
  route : ρ
  contents : Bytes
  segmentSize : Option Nat

variable {ρ : Type*} (C : Cipher) (secret : Secret)

def effectiveSegmentSize (transmit : Transmit ρ) : Nat :=
  match transmit.segmentSize with
  | some size =>
    if 0 < size ∧ size < transmit.contents.length then size else max transmit.contents.length 1
  | none => max transmit.contents.length 1

/-- One segment on the wire. -/
def encodeSegment (iv : Iv) (chunk : Bytes) : Bytes :=
  iv.toList ++ applyKeystream (C secret iv.toList) chunk

/-- `ivs` are the IVs that are drawn, one for each segment. -/
def encodeTransmit (ivs : Nat → Iv) (transmit : Transmit ρ) : Transmit ρ :=
  let segmentSize := effectiveSegmentSize transmit
  let segmentCount := (transmit.contents.length + segmentSize - 1) / segmentSize
  { route := transmit.route
    contents :=
      ((chunks segmentSize transmit.contents).mapIdx fun i => encodeSegment C secret (ivs i)).flatten
    segmentSize := if 1 < segmentCount then some (segmentSize + ivLen) else none }

/-- The datagrams that the kernel makes of a transmit. -/
def datagrams (transmit : Transmit ρ) : List Bytes :=
  match transmit.segmentSize with
  | some size => chunks size transmit.contents
  | none => [transmit.contents]

structure RecvMeta where
  len : Nat
  stride : Nat
deriving DecidableEq, Repr

/-- `slice::copy_within`. -/
def copyWithin (buf : Bytes) (start stop dest : Nat) : Bytes :=
  buf.take dest ++ (buf.take stop).drop start ++ buf.drop (dest + (stop - start))

/-- The loop of `decrypt_meta_payload`: the buffer and the write offset at its end. -/
def decryptSegments (len stride : Nat) (hs : ivLen < stride) (buf : Bytes)
    (writeOffset segmentStart : Nat) : Except String (Bytes × Nat) :=
  if segmentStart < len then
    let segmentEnd := min (segmentStart + stride) len
    let segmentLen := segmentEnd - segmentStart
    if segmentLen ≤ ivLen then .error "obfuscated datagram segment is too small"
    else
      let iv := (buf.drop segmentStart).take ivLen
      let payloadLen := segmentLen - ivLen
      let buf := copyWithin buf (segmentStart + ivLen) segmentEnd writeOffset
      let payload := applyKeystream (C secret iv) ((buf.drop writeOffset).take payloadLen)
      let buf := buf.take writeOffset ++ payload ++ buf.drop (writeOffset + payloadLen)
      decryptSegments len stride hs buf (writeOffset + payloadLen) (segmentStart + stride)
  else .ok (buf, writeOffset)
termination_by len - segmentStart

def decryptMetaPayload (buf : Bytes) (info : RecvMeta) : Except String (Bytes × RecvMeta) :=
  if h : info.len = 0 ∨ info.stride ≤ ivLen then .error "obfuscated datagram is too small"
  else do
    let (buf, writeOffset) ←
      decryptSegments C secret info.len info.stride (not_le.mp (not_or.mp h).2) buf 0 0
    return (buf, { len := writeOffset, stride := info.stride - ivLen })

/-- A receive buffer that takes in a group of datagrams. `spare` is what lies behind them. -/
def received (group : List Bytes) (spare : Bytes) : Bytes × RecvMeta :=
  (group.flatten ++ spare, ⟨group.flatten.length, (group.headD []).length⟩)

/-- The packets that a decrypted buffer is cut into. -/
def packets (buf : Bytes) (info : RecvMeta) : List Bytes := chunks info.stride (buf.take info.len)

/-- A receive buffer on its way up: decrypted and cut. -/
def deliver (group : List Bytes) (spare : Bytes) : Except String (List Bytes) := do
  let (buf, info) ← decryptMetaPayload C secret (received group spare).1 (received group spare).2
  return packets buf info

variable {C secret} {ks : Nat → UInt8} {p : Bytes} {group : List Bytes} {t : Transmit ρ}

@[simp] theorem length_applyKeystream : (applyKeystream ks p).length = p.length := by
  simp [applyKeystream]

/-- Masking twice is not masking at all. -/
theorem applyKeystream_applyKeystream : applyKeystream ks (applyKeystream ks p) = p := by
  apply List.ext_getElem
  · simp
  · intro i _ _
    simp only [applyKeystream, List.getElem_mapIdx, UInt8.xor_assoc, UInt8.xor_self, UInt8.xor_zero]

/-- What a segment on the wire decrypts to. -/
def decodeSegment (C : Cipher) (secret : Secret) (p : Bytes) : Bytes :=
  applyKeystream (C secret (p.take ivLen)) (p.drop ivLen)

theorem decodeSegment_encodeSegment (iv : Iv) :
    decodeSegment C secret (encodeSegment C secret iv p) = p := by
  have hiv : iv.toList.length = ivLen := by simp
  rw [decodeSegment, encodeSegment, List.take_left' hiv, List.drop_left' hiv,
    applyKeystream_applyKeystream]

theorem length_encodeSegment (iv : Iv) :
    (encodeSegment C secret iv p).length = p.length + ivLen := by
  simp [encodeSegment, Nat.add_comm]

theorem length_decodeSegment : (decodeSegment C secret p).length = p.length - ivLen := by
  simp [decodeSegment]

section Loop

variable {len stride : Nat} {hs : ivLen < stride} {plain gap rest : Bytes}

/-- The payload of a segment moves up to the end of what is decrypted. -/
theorem copyWithin_payload (hp : ivLen < p.length) :
    copyWithin (plain ++ gap ++ p ++ rest) ((plain ++ gap).length + ivLen)
        ((plain ++ gap).length + p.length) plain.length =
      plain ++ p.drop ivLen ++ ((gap ++ p).drop (p.length - ivLen) ++ rest) := by
  have hend : (plain ++ gap).length + p.length - ((plain ++ gap).length + ivLen) =
      p.length - ivLen := by omega
  have htake : (plain ++ gap ++ p ++ rest).take ((plain ++ gap).length + p.length) =
      plain ++ gap ++ p := List.take_left' (by simp [Nat.add_assoc])
  have hfront : (plain ++ gap ++ p ++ rest).take plain.length = plain := by
    simp only [List.append_assoc, List.take_left]
  have hback : (plain ++ gap ++ p ++ rest).drop (plain.length + (p.length - ivLen)) =
      (gap ++ p).drop (p.length - ivLen) ++ rest := by
    rw [List.append_assoc, List.append_assoc, List.drop_length_add_append, ← List.append_assoc,
      List.drop_append_of_le_length (by simp; omega)]
  rw [copyWithin, hend, htake, hfront, hback, List.drop_length_add_append]

/-- One round of the loop, on a segment that ends where `p` does. -/
theorem decryptSegments_step (hp : ivLen < p.length)
    (hend : min ((plain ++ gap).length + stride) len = (plain ++ gap).length + p.length) :
    decryptSegments C secret len stride hs (plain ++ gap ++ p ++ rest) plain.length
        (plain ++ gap).length =
      decryptSegments C secret len stride hs
        (plain ++ decodeSegment C secret p ++ ((gap ++ p).drop (p.length - ivLen) ++ rest))
        (plain.length + (p.length - ivLen)) ((plain ++ gap).length + stride) := by
  have hsub : (plain ++ gap).length + p.length - (plain ++ gap).length = p.length := by omega
  have hiv : ((plain ++ gap ++ p ++ rest).drop (plain ++ gap).length).take ivLen = p.take ivLen := by
    rw [List.append_assoc, List.drop_left, List.take_append_of_le_length hp.le]
  have hpay : (p.drop ivLen).length = p.length - ivLen := by simp
  rw [decryptSegments, if_pos (by omega)]
  simp only [hend, hsub, hiv, copyWithin_payload hp]
  rw [if_neg (by omega)]
  congr 1
  rw [List.append_assoc plain, List.drop_left, List.take_left' hpay, List.take_left,
    List.drop_length_add_append, List.drop_left' hpay]
  rfl

/-- The loop never reads what it has written: it stays behind the segments that are left. -/
theorem decryptSegments_group (C : Cipher) (secret : Secret) (hs : ivLen < stride)
    (plain gap spare : Bytes) (hcut : IsCut stride group)
    (hiv : ∀ p ∈ group, ivLen < p.length)
    (hlen : len = (plain ++ gap).length + group.flatten.length) :
    ∃ buf, decryptSegments C secret len stride hs (plain ++ gap ++ group.flatten ++ spare)
        plain.length (plain ++ gap).length =
      .ok (plain ++ (group.map (decodeSegment C secret)).flatten ++ buf,
        plain.length + (group.map (decodeSegment C secret)).flatten.length) := by
  induction group generalizing plain gap with
  | nil =>
    rw [decryptSegments, if_neg (by simp [hlen])]
    exact ⟨gap ++ spare, by simp⟩
  | cons p ps ih =>
    have hp := hiv p List.mem_cons_self
    have hdec : (decodeSegment C secret p).length = p.length - ivLen := length_decodeSegment
    have hlen : len = (plain ++ gap).length + p.length + ps.flatten.length := by
      simpa [Nat.add_assoc] using hlen
    rw [List.flatten_cons, ← List.append_assoc, List.append_assoc _ ps.flatten]
    cases ps with
    | nil =>
      -- A short last segment leaves the loop past its end.
      have hle := hcut.2
      rw [List.flatten_nil, List.length_nil] at hlen
      rw [decryptSegments_step hp (by omega), decryptSegments, if_neg (by omega)]
      exact ⟨(gap ++ p).drop (p.length - ivLen) ++ spare, by simp [hdec]⟩
    | cons q ps =>
      have heq := hcut.1
      obtain ⟨buf, ih⟩ := ih (plain ++ decodeSegment C secret p)
        ((gap ++ p).drop (p.length - ivLen)) hcut.2
        (fun p hp => hiv p (List.mem_cons_of_mem _ hp)) (by simp [hdec] at hlen ⊢; omega)
      refine ⟨buf, ?_⟩
      rw [decryptSegments_step hp (by omega)]
      convert ih using 1
      · congr 1
        · simp
        · simp [hdec]
        · simp [hdec]
          omega
      · simp [hdec, Nat.add_assoc]

end Loop

theorem decryptMetaPayload_eq {buf buf' : Bytes} (info : RecvMeta) {w : Nat} (hl : info.len ≠ 0)
    (hs : ivLen < info.stride)
    (h : decryptSegments C secret info.len info.stride hs buf 0 0 = .ok (buf', w)) :
    decryptMetaPayload C secret buf info = .ok (buf', ⟨w, info.stride - ivLen⟩) := by
  rw [decryptMetaPayload, dif_neg (by omega), h]
  rfl

/-- A group of datagrams comes out as the packets in it, whatever lies behind it in the buffer. -/
theorem deliver_group (C : Cipher) (secret : Secret) (spare : Bytes) {n : Nat}
    (hcut : IsCut n group) (hn : 0 < n) (hne : group ≠ []) (hiv : ∀ p ∈ group, ivLen < p.length) :
    deliver C secret group spare = .ok (group.map (decodeSegment C secret)) := by
  obtain ⟨p, ps, rfl⟩ := List.exists_cons_of_ne_nil hne
  have hp := hiv p List.mem_cons_self
  obtain ⟨buf, hbuf⟩ := decryptSegments_group C secret hp [] [] spare (hcut.head hn) hiv rfl
  have hlens : (p :: ps).map List.length =
      ((p :: ps).map (decodeSegment C secret)).map fun q => q.length + ivLen := by
    rw [List.map_map]
    refine List.map_congr_left fun q hq => ?_
    have := hiv q hq
    simp only [Function.comp, length_decodeSegment]
    omega
  have hplain : IsCut (p.length - ivLen) ((p :: ps).map (decodeSegment C secret)) := by
    refine (isCut_add hlens ?_).mp ?_
    · intro q hq
      obtain ⟨r, hr, rfl⟩ := List.mem_map.mp hq
      have := hiv r hr
      rw [length_decodeSegment]
      omega
    · rw [Nat.sub_add_cancel hp.le]
      exact hcut.head hn
  simp only [List.nil_append, List.append_nil, List.length_nil, Nat.zero_add] at hbuf
  have hpos : (p :: ps).flatten.length ≠ 0 := by
    rw [List.flatten_cons, List.length_append]
    omega
  have hdec := decryptMetaPayload_eq (received (p :: ps) spare).2 hpos hp hbuf
  rw [deliver]
  simp only [received, List.headD_cons] at hdec ⊢
  simp only [hdec, bind, Except.bind, pure, Except.pure, packets, List.take_left]
  rw [chunks_flatten hplain (by omega)]

theorem effectiveSegmentSize_pos : 0 < effectiveSegmentSize t := by
  unfold effectiveSegmentSize
  split
  · split <;> omega
  · omega

/-- The segments of a transmit on the wire. -/
def wire (C : Cipher) (secret : Secret) (ivs : Nat → Iv) (t : Transmit ρ) : List Bytes :=
  (chunks (effectiveSegmentSize t) t.contents).mapIdx fun i => encodeSegment C secret (ivs i)

section Wire

variable {ivs : Nat → Iv}

theorem isCut_wire : IsCut (effectiveSegmentSize t + ivLen) (wire C secret ivs t) := by
  have hcut := isCut_chunks (l := t.contents) (effectiveSegmentSize_pos (t := t))
  refine (isCut_add ?_ fun p hp => hcut.pos effectiveSegmentSize_pos hp).mpr hcut
  apply List.ext_getElem
  · simp [wire]
  · intro i _ _
    simp [wire, length_encodeSegment]

theorem ivLen_lt_of_mem_wire (hp : p ∈ wire C secret ivs t) : ivLen < p.length := by
  obtain ⟨i, hi, rfl⟩ := List.mem_mapIdx.mp hp
  have := (isCut_chunks effectiveSegmentSize_pos).pos effectiveSegmentSize_pos
    (List.getElem_mem hi)
  rw [length_encodeSegment]
  omega

theorem decode_wire (C : Cipher) (secret : Secret) (ivs : Nat → Iv) (t : Transmit ρ) :
    (wire C secret ivs t).map (decodeSegment C secret) =
    chunks (effectiveSegmentSize t) t.contents := by
  apply List.ext_getElem
  · simp [wire]
  · intro i _ _
    simp [wire, decodeSegment_encodeSegment]

/-- The kernel cuts where the encoder did. -/
theorem datagrams_encodeTransmit (ht : t.contents ≠ []) :
    datagrams (encodeTransmit C secret ivs t) = wire C secret ivs t := by
  have hpos := effectiveSegmentSize_pos (t := t)
  by_cases hc : 1 < (t.contents.length + effectiveSegmentSize t - 1) / effectiveSegmentSize t
  · simp only [encodeTransmit, if_pos hc, datagrams]
    exact chunks_flatten isCut_wire (by omega)
  · have hle : t.contents.length ≤ effectiveSegmentSize t := by
      rw [not_lt, Nat.div_le_iff_le_mul_add_pred hpos] at hc
      omega
    simp only [encodeTransmit, if_neg hc, datagrams, wire, chunks_of_length_le hle ht,
      List.mapIdx_cons, List.mapIdx_nil, List.flatten_cons, List.flatten_nil, List.append_nil]

end Wire

theorem deliver_buffers {n : Nat} {sent : List Bytes} {buffers : List (List Bytes × Bytes)}
    (hcut : IsCut n sent) (hn : 0 < n) (hiv : ∀ p ∈ sent, ivLen < p.length)
    (hne : ∀ b ∈ buffers, b.1 ≠ []) (hb : (buffers.map Prod.fst).flatten = sent) :
    buffers.mapM (fun b => deliver C secret b.1 b.2) =
      .ok (buffers.map fun b => b.1.map (decodeSegment C secret)) := by
  induction buffers generalizing sent with
  | nil => rfl
  | cons b bs ih =>
    subst hb
    rw [List.map_cons, List.flatten_cons] at hcut hiv
    have hhead := deliver_group C secret b.2 (hcut.append_left hn) hn
      (hne b List.mem_cons_self) fun p hp => hiv p (List.mem_append_left _ hp)
    have htail := ih hcut.append_right (fun p hp => hiv p (List.mem_append_right _ hp))
      (fun b' hb' => hne b' (List.mem_cons_of_mem b hb')) rfl
    simp [List.mapM_cons, hhead, htail, bind, Except.bind, pure, Except.pure]

/-- Groups of consecutive datagrams of a transmit, each in a buffer of its own, come out as the
packets that went in. -/
theorem obfuscation_roundtrip (C : Cipher) (secret : Secret) (ivs : Nat → Iv) (t : Transmit ρ)
    (ht : t.contents ≠ []) (buffers : List (List Bytes × Bytes))
    (hne : ∀ b ∈ buffers, b.1 ≠ [])
    (hb : (buffers.map Prod.fst).flatten = datagrams (encodeTransmit C secret ivs t)) :
    ∃ pss, buffers.mapM (fun b => deliver C secret b.1 b.2) = .ok pss ∧
      pss.flatten = chunks (effectiveSegmentSize t) t.contents := by
  have hpos := effectiveSegmentSize_pos (t := t)
  rw [datagrams_encodeTransmit ht] at hb
  refine ⟨_, deliver_buffers isCut_wire (by omega) (fun p => ivLen_lt_of_mem_wire) hne hb, ?_⟩
  rw [← decode_wire C secret ivs t, ← hb, List.map_flatten, List.map_map]
  rfl

/-- `0123456789abcdef`, twice. -/
def sampleSecret : Secret :=
  #v[48, 49, 50, 51, 52, 53, 54, 55, 56, 57, 97, 98, 99, 100, 101, 102,
    48, 49, 50, 51, 52, 53, 54, 55, 56, 57, 97, 98, 99, 100, 101, 102]

/-- The first bytes of ChaCha8 under that secret, for IVs of twelve equal bytes. -/
def sampleCipher : Cipher := fun _ iv i =>
  match iv.head? with
  | some 0 => [47, 42, 113, 143].getD i 0
  | some 1 => [15, 251, 196, 56].getD i 0
  | _ => [44, 148, 69, 86].getD i 0

def sampleIvs (i : Nat) : Iv := Vector.replicate 12 (UInt8.ofNat i)

/-- Three packets, of which the first two share a buffer. -/
theorem obfuscation_roundtrip_grouped :
    ∃ pss, [(([List.replicate 12 0 ++ [46, 40], List.replicate 12 1 ++ [12, 255]] : List Bytes),
        ([9, 9] : Bytes)), ([List.replicate 12 2 ++ [41]], [])].mapM
          (fun b => deliver sampleCipher sampleSecret b.1 b.2) = .ok pss ∧
      pss.flatten = chunks 2 [1, 2, 3, 4, 5] := by
  refine obfuscation_roundtrip sampleCipher sampleSecret sampleIvs
    { route := (), contents := [1, 2, 3, 4, 5], segmentSize := some 2 } (by decide) _ (by simp) ?_
  have hcut : chunks 2 ([1, 2, 3, 4, 5] : Bytes) = [[1, 2], [3, 4], [5]] :=
    chunks_flatten (show IsCut 2 ([[1, 2], [3, 4], [5]] : List Bytes) from
      ⟨rfl, rfl, by decide, by decide⟩) (by decide)
  rw [datagrams_encodeTransmit (by decide)]
  change _ = List.mapIdx _ (chunks 2 [1, 2, 3, 4, 5])
  rw [hcut]
  decide

end X2rp.Proto.Obfs
