import X2rp.Proto.Message

/-! Exactness of the message codec: each field reader inverts its writer. -/
namespace X2rp.Proto

variable {s t : String} {buf rest b : Bytes} {x : UInt32} {min max i n : Nat} {m m' : Message}

/-- `t` is the longest prefix of `s` of at most `max` bytes that ends between two
characters. -/
def LongestPrefix (max : Nat) (s t : String) : Prop :=
  t.toList <+: s.toList ∧ t.utf8ByteSize ≤ max ∧
    ∀ u : String, u.toList <+: s.toList → u.utf8ByteSize ≤ max → u.toList <+: t.toList

@[simp] theorem length_toBeBytes16 (x : UInt16) : (toBeBytes16 x).length = 2 := rfl

@[simp] theorem length_toBeBytes32 (x : UInt32) : (toBeBytes32 x).length = 4 := rfl

@[simp] theorem length_asBytes (s : String) : (asBytes s).length = s.utf8ByteSize := by
  rw [asBytes, ← String.size_toByteArray]
  rfl

theorem getU32_toBeBytes32 (x : UInt32) (rest : Bytes) :
    getU32 (toBeBytes32 x ++ rest) = .ok (x, rest) := by
  have hx := x.toNat_lt
  simp only [toBeBytes32, List.cons_append, List.nil_append, getU32, UInt8.toNat_ofNat']
  congr 2
  apply UInt32.toNat_inj.mp
  rw [UInt32.toNat_ofNat']
  omega

theorem toBeBytes32_ofNat (a b c d : UInt8) :
    toBeBytes32 (UInt32.ofNat
      (a.toNat * 2 ^ 24 + b.toNat * 2 ^ 16 + c.toNat * 2 ^ 8 + d.toNat)) = [a, b, c, d] := by
  have ha := a.toNat_lt
  have hb := b.toNat_lt
  have hc := c.toNat_lt
  have hd := d.toNat_lt
  simp only [toBeBytes32, UInt32.toNat_ofNat', List.cons.injEq, and_true]
  refine ⟨?_, ?_, ?_, ?_⟩ <;> apply UInt8.toNat_inj.mp <;> rw [UInt8.toNat_ofNat'] <;> omega

theorem getU32_eq_ok_iff : getU32 buf = .ok (x, rest) ↔ buf = toBeBytes32 x ++ rest := by
  constructor
  · intro h
    match buf, h with
    | a :: b :: c :: d :: tail, h =>
      simp only [getU32, Except.ok.injEq, Prod.mk.injEq] at h
      rw [← h.1, ← h.2, toBeBytes32_ofNat]
      rfl
    | [], h | [_], h | [_, _], h | [_, _, _], h => simp [getU32] at h
  · rintro rfl
    exact getU32_toBeBytes32 x rest

theorem fromUtf8_asBytes (s : String) : fromUtf8 (asBytes s) = .ok s := by
  have hs : (⟨(asBytes s).toArray⟩ : ByteArray) = s.toByteArray := by simp [asBytes]
  rw [fromUtf8, hs]
  simp [String.fromUTF8?, s.isValidUTF8, String.fromUTF8]

theorem asBytes_of_fromUtf8 (h : fromUtf8 buf = .ok s) : asBytes s = buf := by
  unfold fromUtf8 String.fromUTF8? at h
  split at h
  · rename_i s' hs'
    split at hs'
    · cases hs'
      cases h
      simp [asBytes, String.fromUTF8]
    · cases hs'
  · cases h

theorem be16_toNat (hn : n < 65536) :
    (UInt8.ofNat ((UInt16.ofNat n).toNat / 256)).toNat * 256 +
      (UInt8.ofNat (UInt16.ofNat n).toNat).toNat = n := by
  simp only [UInt16.toNat_ofNat', UInt8.toNat_ofNat']
  omega

theorem toBeBytes16_ofNat (a b : UInt8) :
    toBeBytes16 (UInt16.ofNat (a.toNat * 256 + b.toNat)) = [a, b] := by
  have ha := a.toNat_lt
  have hb := b.toNat_lt
  simp only [toBeBytes16, UInt16.toNat_ofNat', List.cons.injEq, and_true]
  refine ⟨?_, ?_⟩ <;> apply UInt8.toNat_inj.mp <;> rw [UInt8.toNat_ofNat'] <;> omega

theorem getStr_eq_ok_iff (hmax : max < 65536) : getStr buf min max = .ok (s, rest) ↔
    min ≤ s.utf8ByteSize ∧ s.utf8ByteSize ≤ max ∧
      buf = toBeBytes16 (UInt16.ofNat s.utf8ByteSize) ++ asBytes s ++ rest := by
  constructor
  · intro h
    match buf, h with
    | [], h | [_], h => simp [getStr] at h
    | a :: b :: tail, h =>
      simp only [getStr] at h
      split at h
      · cases h
      · rename_i hlen
        simp only [not_or, not_not, not_lt] at hlen
        split at h
        · rename_i s' hs'
          simp only [Except.ok.injEq, Prod.mk.injEq] at h
          obtain ⟨rfl, rfl⟩ := h
          have hb := asBytes_of_fromUtf8 hs'
          have hl : s'.utf8ByteSize = a.toNat * 256 + b.toNat := by
            rw [← length_asBytes, hb, List.length_take]
            omega
          refine ⟨by omega, by omega, ?_⟩
          rw [hl, hb, toBeBytes16_ofNat, List.append_assoc, List.take_append_drop]
          rfl
        · cases h
  · rintro ⟨hmin, hle, rfl⟩
    have hn : s.utf8ByteSize < 65536 := by omega
    simp only [toBeBytes16, List.cons_append, List.nil_append, getStr, be16_toNat hn]
    have hlen := length_asBytes s
    rw [if_neg (by simp [hlen]; omega), List.take_left' hlen, List.drop_left' hlen,
      fromUtf8_asBytes]

theorem putStr_eq_ok_iff : putStr buf s min max = .ok b ↔
    min ≤ s.utf8ByteSize ∧ s.utf8ByteSize ≤ max ∧
      b = buf ++ toBeBytes16 (UInt16.ofNat s.utf8ByteSize) ++ asBytes s := by
  unfold putStr
  dsimp only
  split
  · rename_i h
    simp [h, eq_comm]
  · rename_i h
    simp only [reduceCtorEq, false_iff]
    tauto

theorem tryFrom_eq_ok_iff {k : MessageType} {value : UInt8} :
    MessageType.tryFrom value = .ok k ↔ value = k.toUInt8 := by
  unfold MessageType.tryFrom
  constructor
  · intro h
    repeat' split at h
    all_goals cases h <;> assumption
  · rintro rfl
    cases k <;> rfl

/-- No boundary up to `n` lies past the one the scan stops at. -/
theorem le_floorCharBoundary_go (hi : i ≤ n) (hv : (⟨i⟩ : String.Pos.Raw).IsValid s) :
    i ≤ (floorCharBoundary.go s n).offset.byteIdx := by
  induction n with
  | zero => omega
  | succ n ih =>
    unfold floorCharBoundary.go
    split
    · exact hi
    · rename_i hn
      apply ih
      rcases Nat.lt_or_eq_of_le hi with h | rfl
      · omega
      · exact (hn hv).elim

theorem floorCharBoundary_go_le : (floorCharBoundary.go s n).offset.byteIdx ≤ n := by
  induction n with
  | zero => simp [floorCharBoundary.go]
  | succ n ih =>
    unfold floorCharBoundary.go
    split
    · exact le_rfl
    · omega

theorem floorCharBoundary_le : (floorCharBoundary s max).offset.byteIdx ≤ max := by
  unfold floorCharBoundary
  split
  · simpa using ‹_›
  · exact floorCharBoundary_go_le

theorem le_floorCharBoundary (hi : i ≤ max) (hv : (⟨i⟩ : String.Pos.Raw).IsValid s) :
    i ≤ (floorCharBoundary s max).offset.byteIdx := by
  unfold floorCharBoundary
  split
  · have := hv.le_rawEndPos
    simpa [String.Pos.Raw.le_iff] using this
  · exact le_floorCharBoundary_go hi hv

/-- A character prefix ends on a byte position that is valid in the whole string. -/
theorem isValid_of_isPrefix (h : t.toList <+: s.toList) :
    (⟨t.utf8ByteSize⟩ : String.Pos.Raw).IsValid s := by
  obtain ⟨l, hl⟩ := h
  have hs : s = t ++ String.ofList l := by
    rw [← String.toList_inj, String.toList_append, String.toList_ofList, hl]
  subst hs
  rw [String.Pos.Raw.isValid_iff_isValidUTF8_extract_zero]
  refine ⟨by simp [String.Pos.Raw.le_iff], ?_⟩
  have he : (t ++ String.ofList l).toByteArray.extract 0 t.utf8ByteSize = t.toByteArray := by
    rw [String.toByteArray_append]
    exact ByteArray.extract_append_eq_left (by simp)
  rw [he]
  exact t.isValidUTF8

theorem truncateStr_split (s : String) (max : Nat) :
    ∃ l, (truncateStr s max).toList ++ l = s.toList ∧
      (truncateStr s max).utf8ByteSize = (floorCharBoundary s max).offset.byteIdx := by
  obtain ⟨l, l', hl, hs⟩ := (floorCharBoundary s max).isValid.exists
  have ht : truncateStr s max = String.ofList l := by
    apply String.toByteArray_inj.mp
    simp [truncateStr, hl]
  refine ⟨l', ?_, ?_⟩
  · rw [ht, String.toList_ofList, ← hs, String.toList_ofList]
  · have := (floorCharBoundary s max).isValid.le_rawEndPos
    simp only [String.Pos.Raw.le_iff, String.byteIdx_rawEndPos] at this
    rw [← String.size_toByteArray, ht, String.toByteArray_ofList, hl, ByteArray.size_extract,
      String.size_toByteArray]
    omega

theorem truncateStr_size_le : (truncateStr s max).utf8ByteSize ≤ max := by
  obtain ⟨_, _, hn⟩ := truncateStr_split s max
  rw [hn]
  exact floorCharBoundary_le

/-- Comparing two prefixes of one string by size in bytes orders them. -/
theorem prefix_of_size_le {u : String} (ht : t.toList <+: s.toList) (hu : u.toList <+: s.toList)
    (hn : u.utf8ByteSize ≤ t.utf8ByteSize) : u.toList <+: t.toList := by
  rcases List.prefix_or_prefix_of_prefix hu ht with h | ⟨l, hl⟩
  · exact h
  · have he : u = t ++ String.ofList l := by
      rw [← String.toList_inj, String.toList_append, String.toList_ofList, hl]
    subst he
    rw [String.utf8ByteSize_append] at hn
    have hz : (String.ofList l).utf8ByteSize = 0 := by omega
    rw [String.utf8ByteSize_eq_zero_iff] at hz
    rw [hz, String.append_empty]

theorem truncateStr_longestPrefix (s : String) (max : Nat) :
    LongestPrefix max s (truncateStr s max) := by
  obtain ⟨l, hl, hn⟩ := truncateStr_split s max
  refine ⟨⟨l, hl⟩, truncateStr_size_le, ?_⟩
  intro u hu hle
  apply prefix_of_size_le ⟨l, hl⟩ hu
  rw [hn]
  exact le_floorCharBoundary hle (isValid_of_isPrefix hu)

/-- A string within the limit is its own longest prefix. -/
theorem truncateStr_eq_self (h : s.utf8ByteSize ≤ max) : truncateStr s max = s := by
  obtain ⟨hp, -, hmax⟩ := truncateStr_longestPrefix s max
  have hs := hmax s List.prefix_rfl h
  rw [← String.toList_inj]
  exact hp.eq_of_length (Nat.le_antisymm hp.length_le hs.length_le)

/-- A length-prefixed string as it stands on the wire. -/
def strField (s : String) : Bytes := toBeBytes16 (UInt16.ofNat s.utf8ByteSize) ++ asBytes s

namespace Message

/-- What the other end receives: an over-long connect error arrives cut. -/
def truncated : Message → Message
  | .connectErr id error => .connectErr id (truncateStr error maxConnectErrLen)
  | m => m

/-- The limits the encoder enforces. An error is cut instead, so it always fits. -/
def Fits : Message → Prop
  | .connect _ target => target.utf8ByteSize ≤ maxConnectTargetLen
  | .data _ payload => payload.length ≤ maxDataPayloadLen
  | .auth token => 1 ≤ token.utf8ByteSize ∧ token.utf8ByteSize ≤ maxAuthTokenLen
  | _ => True

/-- What follows the type byte of a message that travels uncut. -/
def fields : Message → Bytes
  | .connect id target => toBeBytes32 id ++ strField target
  | .connectErr id error => toBeBytes32 id ++ strField error
  | .data id payload => toBeBytes32 id ++ (toBeBytes32 (UInt32.ofNat payload.length) ++ payload)
  | .windowUpdate id bytes => toBeBytes32 id ++ toBeBytes32 bytes
  | .connectOk id | .close id | .reset id => toBeBytes32 id
  | .auth token => strField token

theorem encode_eq_ok_iff :
    m.encode = .ok b ↔ m.Fits ∧ b = m.kind.toUInt8 :: m.truncated.fields := by
  cases m with
  | connect id target =>
    simp [encode, encodeInto, putStr_eq_ok_iff, Fits, truncated, fields, strField, header, kind,
      streamId?]
  | connectErr id error =>
    have ht : (truncateStr error maxConnectErrLen).utf8ByteSize ≤ maxConnectErrLen :=
      truncateStr_size_le
    simp [encode, encodeInto, putStr_eq_ok_iff, ht, Fits, truncated, fields, strField, header,
      kind, streamId?]
  | data id payload =>
    simp only [encode, encodeInto, Fits, truncated, fields, header, kind, streamId?]
    split
    · simp only [reduceCtorEq, false_iff]
      omega
    · rename_i h
      simp [not_lt.mp h, eq_comm]
  | auth token =>
    simp [encode, encodeInto, putStr_eq_ok_iff, Fits, truncated, fields, strField, header, kind,
      streamId?, and_assoc]
  | _ => simp [encode, encodeInto, Fits, truncated, fields, header, kind, streamId?, eq_comm]

theorem bind_eq_ok_iff {α β : Type} {c : Except IoError α} {f : α → Except IoError β} {r : β} :
    (c >>= f) = .ok r ↔ ∃ a, c = .ok a ∧ f a = .ok r := by
  cases c with
  | error e => simp [Bind.bind, Except.bind]
  | ok a => simp [Bind.bind, Except.bind]

theorem truncated_connectErr {id : UInt32} (h : s.utf8ByteSize ≤ maxConnectErrLen) :
    (connectErr id s).truncated = connectErr id s := by
  simp [truncated, truncateStr_eq_self h]

/-- The cut error is within the limit, so a message that travels uncut has one too. -/
theorem size_of_truncated {id : UInt32} (h : (connectErr id s).truncated = connectErr id s) :
    s.utf8ByteSize ≤ maxConnectErrLen := by
  simp only [truncated, connectErr.injEq, true_and] at h
  rw [← h]
  exact truncateStr_size_le

/-- What the field reader accepts is what the encoder writes after the type byte. -/
theorem decodeFields_sound {k : MessageType} (h : decodeFields k buf = .ok (m, rest)) :
    m.kind = k ∧ m.Fits ∧ m.truncated = m ∧ buf = m.fields ++ rest := by
  cases k with
  | connect =>
    simp only [decodeFields, bind_eq_ok_iff, Prod.exists, getU32_eq_ok_iff,
      getStr_eq_ok_iff (show maxConnectTargetLen < 65536 by decide)] at h
    obtain ⟨id, _, rfl, s, r, ⟨-, hs, rfl⟩, h⟩ := h
    cases h
    exact ⟨rfl, hs, rfl, by simp [fields, strField]⟩
  | connectErr =>
    simp only [decodeFields, bind_eq_ok_iff, Prod.exists, getU32_eq_ok_iff,
      getStr_eq_ok_iff (show maxConnectErrLen < 65536 by decide)] at h
    obtain ⟨id, _, rfl, s, r, ⟨-, hs, rfl⟩, h⟩ := h
    cases h
    exact ⟨rfl, trivial, truncated_connectErr hs, by simp [fields, strField]⟩
  | auth =>
    simp only [decodeFields, bind_eq_ok_iff, Prod.exists,
      getStr_eq_ok_iff (show maxAuthTokenLen < 65536 by decide)] at h
    obtain ⟨s, r, ⟨hmin, hs, rfl⟩, h⟩ := h
    cases h
    exact ⟨rfl, ⟨hmin, hs⟩, rfl, by simp [fields, strField]⟩
  | data =>
    simp only [decodeFields, bind_eq_ok_iff, Prod.exists, getU32_eq_ok_iff] at h
    obtain ⟨id, _, rfl, len, r, rfl, h⟩ := h
    split at h
    · cases h
    · rename_i hlen
      cases h
      have hl : (r.take len.toNat).length = len.toNat := by
        rw [List.length_take]
        omega
      exact ⟨rfl, by simp only [Fits]; omega, rfl, by simp [fields, hl]⟩
  | windowUpdate =>
    simp only [decodeFields, bind_eq_ok_iff, Prod.exists, getU32_eq_ok_iff] at h
    obtain ⟨id, _, rfl, bytes, r, rfl, h⟩ := h
    cases h
    exact ⟨rfl, trivial, rfl, by simp [fields]⟩
  | connectOk | close | reset =>
    simp only [decodeFields, bind_eq_ok_iff, Prod.exists, getU32_eq_ok_iff] at h
    obtain ⟨id, _, rfl, h⟩ := h
    cases h
    exact ⟨rfl, trivial, rfl, rfl⟩

/-- The field reader gives back every message that travels uncut, and stops after it. -/
theorem decodeFields_fields (hf : m.Fits) (ht : m.truncated = m) :
    decodeFields m.kind (m.fields ++ rest) = .ok (m, rest) := by
  cases m with
  | connect id target =>
    simp only [kind, decodeFields, bind_eq_ok_iff, Prod.exists, getU32_eq_ok_iff,
      getStr_eq_ok_iff (show maxConnectTargetLen < 65536 by decide)]
    exact ⟨id, _, List.append_assoc .., target, rest, ⟨Nat.zero_le _, hf, rfl⟩, rfl⟩
  | connectErr id error =>
    simp only [kind, decodeFields, bind_eq_ok_iff, Prod.exists, getU32_eq_ok_iff,
      getStr_eq_ok_iff (show maxConnectErrLen < 65536 by decide)]
    exact ⟨id, _, List.append_assoc .., error, rest,
      ⟨Nat.zero_le _, size_of_truncated ht, rfl⟩, rfl⟩
  | auth token =>
    simp only [kind, decodeFields, bind_eq_ok_iff, Prod.exists,
      getStr_eq_ok_iff (show maxAuthTokenLen < 65536 by decide)]
    exact ⟨token, rest, ⟨hf.1, hf.2, rfl⟩, rfl⟩
  | data id payload =>
    simp only [kind, decodeFields, bind_eq_ok_iff, Prod.exists, getU32_eq_ok_iff]
    refine ⟨id, _, List.append_assoc .., _, payload ++ rest, List.append_assoc .., ?_⟩
    have hmax : maxDataPayloadLen = 131072 := rfl
    simp only [Fits] at hf
    have hn : (UInt32.ofNat payload.length).toNat = payload.length := by
      rw [UInt32.toNat_ofNat']
      omega
    rw [hn, if_neg (by simp; omega)]
    simp [pure, Except.pure]
  | windowUpdate id bytes =>
    simp only [kind, decodeFields, bind_eq_ok_iff, Prod.exists, getU32_eq_ok_iff]
    exact ⟨id, _, List.append_assoc .., bytes, rest, rfl, rfl⟩
  | connectOk id | close id | reset id =>
    simp only [kind, decodeFields, bind_eq_ok_iff, Prod.exists, getU32_eq_ok_iff]
    exact ⟨id, rest, rfl, rfl⟩

/-- `decode` accepts exactly the encodings of messages that travel uncut. -/
theorem decode_eq_ok_iff : decode b = .ok m ↔ m.truncated = m ∧ m.encode = .ok b := by
  rw [encode_eq_ok_iff]
  constructor
  · intro h
    cases b with
    | nil => simp [decode] at h
    | cons value buf =>
      simp only [decode, bind_eq_ok_iff, tryFrom_eq_ok_iff, Prod.exists] at h
      obtain ⟨k, rfl, msg, r, hd, h⟩ := h
      split at h
      · cases h
      · rename_i hr
        cases h
        obtain ⟨rfl, hf, ht, hbuf⟩ := decodeFields_sound hd
        exact ⟨ht, hf, by rw [ht, hbuf, not_not.mp hr, List.append_nil]⟩
  · rintro ⟨ht, hf, rfl⟩
    simp only [decode, bind_eq_ok_iff, tryFrom_eq_ok_iff, Prod.exists]
    refine ⟨_, rfl, m, [], ?_, by simp [pure, Except.pure]⟩
    have hd : decodeFields m.kind (m.fields ++ []) = .ok (m, []) := decodeFields_fields hf ht
    rw [List.append_nil] at hd
    rw [ht, hd]

theorem truncated_truncated (m : Message) : m.truncated.truncated = m.truncated := by
  cases m with
  | connectErr id error => exact truncated_connectErr truncateStr_size_le
  | _ => rfl

/-- The encoder sees only the part of an error that fits. -/
theorem encode_truncated (h : m.encode = .ok b) : m.truncated.encode = .ok b := by
  rw [encode_eq_ok_iff] at h ⊢
  rw [truncated_truncated]
  cases m with
  | _ => exact h

/-- The cap on frames covers every message but Data. -/
theorem length_encode_control (h : m.encode = .ok b) (hk : m.kind ≠ .data) :
    1 ≤ b.length ∧ b.length ≤ maxFrameBodyLen := by
  obtain ⟨hf, rfl⟩ := encode_eq_ok_iff.mp h
  have hbody : maxFrameBodyLen = 2055 := rfl
  refine ⟨by simp, ?_⟩
  cases m with
  | connect id target =>
    have hmax : maxConnectTargetLen = 2048 := rfl
    simp only [Fits] at hf
    simp [truncated, fields, strField]
    omega
  | connectErr id error =>
    have hmax : maxConnectErrLen = 1024 := rfl
    have hs : (truncateStr error maxConnectErrLen).utf8ByteSize ≤ maxConnectErrLen :=
      truncateStr_size_le
    simp [truncated, fields, strField]
    omega
  | data id payload => exact absurd rfl hk
  | auth token =>
    have hmax : maxAuthTokenLen = 512 := rfl
    simp only [Fits] at hf
    simp [truncated, fields, strField]
    omega
  | _ => simp [truncated, fields, hbody]

theorem length_encode (h : m.encode = .ok b) : 1 ≤ b.length ∧ b.length ≤ maxMessageBodyLen := by
  by_cases hk : m.kind = .data
  · cases m with
    | data id payload =>
      obtain ⟨hf, rfl⟩ := encode_eq_ok_iff.mp h
      have hbody : maxMessageBodyLen = maxDataPayloadLen + 9 := rfl
      simp only [Fits] at hf
      simp [truncated, fields]
      omega
    | _ => cases hk
  · have hle : maxFrameBodyLen ≤ maxMessageBodyLen := by decide
    have := length_encode_control h hk
    omega

/-- How a message reads at the other end: unchanged, but for an error over the limit. -/
def ArrivesAs : Message → Message → Prop
  | .connectErr id error, m' => ∃ e, m' = .connectErr id e ∧
      if error.utf8ByteSize ≤ maxConnectErrLen then e = error
      else LongestPrefix maxConnectErrLen error e
  | m, m' => m' = m

theorem arrivesAs_truncated (m : Message) : m.ArrivesAs m.truncated := by
  cases m with
  | connectErr id error =>
    refine ⟨_, rfl, ?_⟩
    split
    · rename_i h
      exact truncateStr_eq_self h
    · exact truncateStr_longestPrefix error maxConnectErrLen
  | _ => rfl

/-- Decoding inverts encoding up to the cut of an over-long connect error, accepts nothing
but canonical encodings, and every body fits one WebSocket message. -/
theorem codec_exact :
    (∀ (m : Message) (b : Bytes), m.encode = .ok b → ∃ m', decode b = .ok m' ∧ m.ArrivesAs m') ∧
    (∀ (id : UInt32) (error : String), ∃ b, (connectErr id error).encode = .ok b) ∧
    (∀ (m : Message) (b : Bytes), decode b = .ok m → m.encode = .ok b) ∧
    (∀ (m : Message) (b : Bytes), m.encode = .ok b →
      1 ≤ b.length ∧ b.length ≤ maxMessageBodyLen) := by
  refine ⟨?_, ?_, ?_, ?_⟩
  · intro m b h
    exact ⟨m.truncated, decode_eq_ok_iff.mpr ⟨truncated_truncated m, encode_truncated h⟩,
      arrivesAs_truncated m⟩
  · intro id error
    exact ⟨_, encode_eq_ok_iff.mpr ⟨trivial, rfl⟩⟩
  · intro m b h
    exact (decode_eq_ok_iff.mp h).2
  · intro m b h
    exact length_encode h

example : decode [0x22, 0, 0, 0, 7, 0, 4, 0, 0] = .ok (.windowUpdate 7 262144) := by rfl

end Message

end X2rp.Proto
