import X2rp.Proto.Frame

/-! `read_frame` on a stream that comes in pieces, from a peer that may send anything. -/
namespace X2rp.Proto

/-- How many bytes `read_frame` still asks for when it has `got`: those of the length first, then
those of the body, if it is to have one. -/
def missing (got : Bytes) : Nat :=
  if got.length < 4 then 4 - got.length
  else
    let len := fromBeBytes32 (got.take 4)
    if 1 ≤ len ∧ len ≤ maxFrameBodyLen then 4 + len - got.length else 0

/-- What `read_frame` may have taken off its stream: each read yields some of what is missing. -/
inductive Reads : Bytes → Prop
  | nil : Reads []
  | more {got p : Bytes} (h : Reads got) (hp : p.length ≤ missing got) : Reads (got ++ p)

variable {got p f rest : Bytes} {m : Message}

/-- No more than the length, and with a length that is a good one no more than the body. -/
def Within (got : Bytes) : Prop :=
  got.length ≤ 4 ∨ 1 ≤ fromBeBytes32 (got.take 4) ∧ fromBeBytes32 (got.take 4) ≤ maxFrameBodyLen ∧
    got.length ≤ 4 + fromBeBytes32 (got.take 4)

theorem Reads.within (h : Reads got) : Within got := by
  induction h with
  | nil => exact .inl (Nat.zero_le _)
  | @more got p h hp ih =>
    unfold missing at hp
    split at hp
    · left
      rw [List.length_append]
      omega
    · have hlen : 4 ≤ got.length := by omega
      have htake : (got ++ p).take 4 = got.take 4 := List.take_append_of_le_length hlen
      unfold Within
      rw [htake, List.length_append]
      unfold Within at ih
      dsimp only at hp
      split at hp <;> omega

theorem Reads.length_le (h : Reads got) : got.length ≤ 4 + maxFrameBodyLen := by
  have := h.within
  unfold Within at this
  omega

theorem bind_ok_iff {α γ : Type} {c : Except FrameError α} {k : α → Except FrameError γ} {r : γ} :
    (c >>= k) = .ok r ↔ ∃ a, c = .ok a ∧ k a = .ok r := by
  cases c <;> simp [bind, Except.bind]

theorem readExact_eq_ok_iff {n : Nat} {recv body : Bytes} :
    readExact n recv = .ok (body, rest) ↔ recv = body ++ rest ∧ body.length = n := by
  constructor
  · intro h
    unfold readExact at h
    split at h
    · cases h
    · cases h
      refine ⟨(List.take_append_drop n recv).symm, ?_⟩
      rw [List.length_take]
      omega
  · rintro ⟨rfl, hn⟩
    exact readExact_append hn

theorem toBeBytes32_fromBeBytes32 {len : Bytes} (h : len.length = 4) :
    toBeBytes32 (UInt32.ofNat (fromBeBytes32 len)) = len := by
  obtain ⟨a, b, c, d, rfl⟩ : ∃ a b c d, len = [a, b, c, d] := by
    match len, h with
    | [a, b, c, d], _ => exact ⟨a, b, c, d, rfl⟩
  have ha := a.toNat_lt
  have hb := b.toNat_lt
  have hc := c.toNat_lt
  have hd := d.toNat_lt
  simp only [fromBeBytes32, toBeBytes32, List.foldl_cons, List.foldl_nil, UInt32.toNat_ofNat',
    List.cons.injEq, and_true]
  refine ⟨?_, ?_, ?_, ?_⟩ <;> rw [← UInt8.toNat_inj, UInt8.toNat_ofNat'] <;> omega

/-- What is accepted is the frame of the message that comes out, and nothing else is. -/
theorem readFrame_eq_ok_iff {bs : Bytes} : readFrame bs = .ok (m, rest) ↔ m.truncated = m ∧
    ∃ f, m.frame = .ok f ∧ f.length ≤ 4 + maxFrameBodyLen ∧ bs = f ++ rest := by
  have hmax : maxFrameBodyLen = 2055 := rfl
  constructor
  · intro h
    simp only [readFrame, bind_ok_iff, Prod.exists] at h
    obtain ⟨len, tail, hlen, h⟩ := h
    obtain ⟨rfl, hl⟩ := readExact_eq_ok_iff.mp hlen
    split at h
    · cases h
    · rename_i hn
      simp only [bind_ok_iff, Prod.exists] at h
      obtain ⟨body, rest', hbody, msg, hmsg, h⟩ := h
      cases h
      obtain ⟨rfl, hb⟩ := readExact_eq_ok_iff.mp hbody
      obtain ⟨ht, he⟩ : m.truncated = m ∧ m.encode = .ok body := by
        cases hd : Message.decode body with
        | error e => simp [hd, Except.mapError] at hmsg
        | ok m' =>
          obtain rfl : m' = m := by simpa [hd, Except.mapError] using hmsg
          exact Message.decode_eq_ok_iff.mp hd
      refine ⟨ht, len ++ body, ?_, ?_, by simp⟩
      · rw [Message.frame_eq_ok_iff]
        exact ⟨body, he, by rw [hb, toBeBytes32_fromBeBytes32 hl]⟩
      · rw [List.length_append]
        omega
  · rintro ⟨ht, f, hf, hle, rfl⟩
    obtain ⟨body, hb, rfl⟩ := Message.frame_eq_ok_iff.mp hf
    have hle : body.length ≤ maxFrameBodyLen := by
      rw [List.length_append, length_toBeBytes32] at hle
      omega
    have hpos : 1 ≤ body.length := by
      obtain ⟨-, rfl⟩ := Message.encode_eq_ok_iff.mp hb
      simp
    have hn : (UInt32.ofNat body.length).toNat = body.length := by
      rw [UInt32.toNat_ofNat']
      omega
    have hd : Message.decode body = .ok m := Message.decode_eq_ok_iff.mpr ⟨ht, hb⟩
    simp only [readFrame, List.append_assoc, readExact_append (length_toBeBytes32 _),
      fromBeBytes32_toBeBytes32, hn, bind, Except.bind]
    rw [if_neg (not_not.mpr ⟨hpos, hle⟩), readExact_append rfl]
    simp [hd, Except.mapError, pure, Except.pure]

theorem readFrame_eq_ok_nil (h : readFrame got = .ok (m, [])) :
    readFrame (got ++ rest) = .ok (m, rest) := by
  obtain ⟨ht, f, hf, hle, rfl⟩ := readFrame_eq_ok_iff.mp h
  exact readFrame_eq_ok_iff.mpr ⟨ht, f, hf, hle, by simp⟩

/-- The length in front of a frame. -/
theorem fromBeBytes32_frame (hf : m.frame = .ok f) (hle : f.length ≤ 4 + maxFrameBodyLen) :
    fromBeBytes32 (f.take 4) + 4 = f.length ∧ 4 < f.length := by
  obtain ⟨body, hb, rfl⟩ := Message.frame_eq_ok_iff.mp hf
  obtain ⟨-, hbody⟩ := Message.encode_eq_ok_iff.mp hb
  have hpos : 0 < body.length := by simp [hbody]
  have hmax : maxFrameBodyLen = 2055 := rfl
  have hlen := length_toBeBytes32 (UInt32.ofNat body.length)
  rw [List.length_append, hlen] at hle ⊢
  rw [List.take_left' hlen, fromBeBytes32_toBeBytes32, UInt32.toNat_ofNat']
  omega

/-- While a frame is coming in, no byte behind it is taken. -/
theorem Reads.inOrder (h : Reads got) (hf : m.frame = .ok f) (hle : f.length ≤ 4 + maxFrameBodyLen)
    (hp : got <+: f ++ rest) : got <+: f := by
  refine List.prefix_of_prefix_length_le hp (List.prefix_append ..) ?_
  obtain ⟨hlen, hpos⟩ := fromBeBytes32_frame hf hle
  rcases h.within with hw | ⟨-, -, hw⟩
  · omega
  · by_cases h4 : 4 ≤ got.length
    · have htake : got.take 4 = f.take 4 := by
        rw [List.prefix_iff_eq_take.mp hp, List.take_take, Nat.min_eq_left h4,
          List.take_append_of_le_length (by omega)]
      rw [htake] at hw
      omega
    · omega

/-- A reader that is not at its end has no message yet. -/
theorem readFrame_of_missing (h : missing got ≠ 0) : readFrame got = .error .other := by
  unfold missing at h
  split at h
  · rename_i hlt
    simp [readFrame, readExact, hlt, bind, Except.bind]
  · rename_i hlt
    dsimp only at h
    split at h
    · rename_i hlen
      have hshort : (got.drop 4).length < fromBeBytes32 (got.take 4) := by
        rw [List.length_drop]
        omega
      simp only [readFrame, readExact, hlt, if_false, bind, Except.bind]
      rw [if_neg (not_not.mpr hlen), if_pos hshort]
    · exact absurd rfl h

/-- A reader at its end has decided: what comes after does not matter, and is left alone. -/
theorem readFrame_append (h : Reads got) (hz : missing got = 0) {tail : Bytes} :
    readFrame (got ++ rest) = .ok (m, tail) ↔ readFrame got = .ok (m, []) ∧ tail = rest := by
  constructor
  · intro hr
    obtain ⟨ht, f, hf, hle, he⟩ := readFrame_eq_ok_iff.mp hr
    have hp : got <+: f := h.inOrder hf hle (he ▸ List.prefix_append got rest)
    -- A reader that had less than the frame would still be asking.
    have hgot : got = f := by
      by_contra hne
      obtain ⟨hlen, hpos⟩ := fromBeBytes32_frame hf hle
      have hlt : got.length < f.length :=
        Nat.lt_of_le_of_ne hp.length_le fun hl => hne (hp.eq_of_length hl)
      unfold missing at hz
      split at hz
      · omega
      · rename_i h4
        have htake : got.take 4 = f.take 4 := by
          rw [List.prefix_iff_eq_take.mp hp, List.take_take, Nat.min_eq_left (by omega)]
        dsimp only at hz
        rw [htake] at hz
        split at hz
        · omega
        · omega
    subst hgot
    have htail : rest = tail := List.append_cancel_left he
    exact ⟨readFrame_eq_ok_iff.mpr ⟨ht, got, hf, hle, by simp⟩, htail.symm⟩
  · rintro ⟨hr, rfl⟩
    exact readFrame_eq_ok_nil hr

/-- Two frames at the front of one stream are the same one. -/
theorem frame_delimits {m' : Message} {head : Bytes} (hf : m.frame = .ok f)
    (hle : f.length ≤ 4 + maxFrameBodyLen) (hr : readFrame head = .ok (m', []))
    (hp : head <+: f ++ rest) : head = f ∧ m' = m.truncated := by
  obtain ⟨body, hb, he⟩ := Message.frame_eq_ok_iff.mp hf
  have hft : m.truncated.frame = .ok f :=
    Message.frame_eq_ok_iff.mpr ⟨body, Message.encode_truncated hb, he⟩
  obtain ⟨tail, ht⟩ := hp
  have h1 : readFrame (f ++ rest) = .ok (m', tail) := ht ▸ readFrame_eq_ok_nil hr
  have h2 : readFrame (f ++ rest) = .ok (m.truncated, rest) :=
    readFrame_eq_ok_iff.mpr ⟨Message.truncated_truncated m, f, hft, hle, rfl⟩
  obtain ⟨rfl, rfl⟩ : m' = m.truncated ∧ tail = rest := by
    simpa using h1.symm.trans h2
  exact ⟨List.append_cancel_right ht, rfl⟩

/-- `read_frame` accepts the frames of messages and nothing else. However the stream is cut into
pieces, and whoever sends it, it never takes more than one frame off it or more than a bounded
number of bytes, and it decides as it would on the whole stream, as soon as it asks for no more. -/
theorem read_frame_in_pieces :
    (∀ bs m rest, readFrame bs = .ok (m, rest) ↔ m.truncated = m ∧
      ∃ f, m.frame = .ok f ∧ f.length ≤ 4 + maxFrameBodyLen ∧ bs = f ++ rest) ∧
    ∀ got, Reads got → got.length ≤ 4 + maxFrameBodyLen ∧
      (missing got ≠ 0 → readFrame got = .error .other) ∧
      (missing got = 0 → ∀ rest m tail, readFrame (got ++ rest) = .ok (m, tail) ↔
        readFrame got = .ok (m, []) ∧ tail = rest) := by
  refine ⟨fun bs m rest => readFrame_eq_ok_iff, fun got h => ⟨h.length_le, ?_, ?_⟩⟩
  · exact readFrame_of_missing
  · intro hz rest m tail
    exact readFrame_append h hz

/-- A `ConnectOk` in two pieces, and the first bytes of a tunnel right behind it. -/
theorem read_frame_in_pieces_connectOk :
    readFrame ([0, 0, 0, 5] ++ [2, 0, 0, 0, 7] ++ [71, 69, 84]) =
      .ok (.connectOk 7, [71, 69, 84]) := by
  have hreads : Reads ([] ++ [0, 0, 0, 5] ++ [2, 0, 0, 0, 7]) :=
    .more (.more .nil (by decide)) (by decide)
  have h := (read_frame_in_pieces.2 _ hreads).2.2 (by decide) [71, 69, 84] (.connectOk 7) [71, 69, 84]
  exact h.mpr ⟨by decide, rfl⟩

end X2rp.Proto
