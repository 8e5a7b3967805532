import X2rp.Proto.Codec

/-! Messages as frames on a QUIC stream, where raw tunnel bytes follow the last frame. -/
namespace X2rp.Proto

/-- `[u32 BE body_len][body]`: the length is filled in once the body is written. -/
def Message.frame (m : Message) : Except IoError Bytes := do
  let buf ← m.encodeInto [0, 0, 0, 0]
  return toBeBytes32 (UInt32.ofNat (buf.length - 4)) ++ buf.drop 4

/-- Why no message comes out of a stream: it ends too early, or the frame is bad. -/
inductive FrameError
  | other
  | io (e : IoError)
deriving DecidableEq, Repr

/-- The next `n` bytes of a stream and the rest of it. -/
def readExact (n : Nat) (recv : Bytes) : Except FrameError (Bytes × Bytes) :=
  if recv.length < n then .error .other else .ok (recv.take n, recv.drop n)

def fromBeBytes32 (len : Bytes) : Nat := len.foldl (fun n b => n * 2 ^ 8 + b.toNat) 0

/-- One frame, and what it leaves on the stream. -/
def readFrame (recv : Bytes) : Except FrameError (Message × Bytes) := do
  let (len, recv) ← readExact 4 recv
  let len := fromBeBytes32 len
  if ¬(1 ≤ len ∧ len ≤ maxFrameBodyLen) then
    .error (.io (bad s!"invalid frame length {len}"))
  else
    let (body, recv) ← readExact len recv
    let msg ← (Message.decode body).mapError .io
    return (msg, recv)

/-- So many frames, one after the other. -/
def readFrames : Nat → Bytes → Except FrameError (List Message × Bytes)
  | 0, recv => .ok ([], recv)
  | n + 1, recv => do
    let (msg, recv) ← readFrame recv
    let (msgs, recv) ← readFrames n recv
    return (msg :: msgs, recv)

variable {m : Message} {ms : List Message} {body f buf rest : Bytes} {fs : List Bytes}

theorem fromBeBytes32_toBeBytes32 (x : UInt32) : fromBeBytes32 (toBeBytes32 x) = x.toNat := by
  have hx := x.toNat_lt
  simp only [fromBeBytes32, toBeBytes32, List.foldl_cons, List.foldl_nil, UInt8.toNat_ofNat']
  omega

/-- The bytes that are asked for come first. -/
theorem readExact_append {n : Nat} (h : body.length = n) :
    readExact n (body ++ rest) = .ok (body, rest) := by
  rw [readExact, if_neg (by simp [h]), List.take_left' h, List.drop_left' h]

namespace Message

/-- The encoder appends: what is in the buffer stays in front. -/
theorem encodeInto_append : m.encodeInto buf = m.encode.map (buf ++ ·) := by
  have hput : ∀ (head : Bytes) (t : String) (min max : Nat),
      putStr (buf ++ head) t min max = (putStr ([] ++ head) t min max).map (buf ++ ·) := by
    intro head t min max
    unfold putStr
    dsimp only
    split <;> simp [Except.map]
  unfold encode encodeInto
  cases m with
  | connect id target => exact hput ..
  | connectErr id error => exact hput ..
  | auth token => exact hput ..
  | data id payload =>
    dsimp only
    split <;> simp [Except.map]
  | _ => simp [Except.map]

theorem frame_eq_ok_iff : m.frame = .ok f ↔
    ∃ body, m.encode = .ok body ∧ f = toBeBytes32 (UInt32.ofNat body.length) ++ body := by
  rw [frame, encodeInto_append]
  cases m.encode with
  | error e => simp [Except.map, bind, Except.bind]
  | ok body => simp [Except.map, bind, Except.bind, pure, Except.pure, eq_comm]

theorem readFrame_frame (rest : Bytes) (hk : m.kind ≠ .data) (h : m.frame = .ok f) :
    readFrame (f ++ rest) = .ok (m.truncated, rest) := by
  obtain ⟨body, hb, rfl⟩ := frame_eq_ok_iff.mp h
  have hlen := length_encode_control hb hk
  have hmax : maxFrameBodyLen = 2055 := rfl
  have hn : (UInt32.ofNat body.length).toNat = body.length := by
    rw [UInt32.toNat_ofNat']
    omega
  have hd : decode body = .ok m.truncated :=
    decode_eq_ok_iff.mpr ⟨truncated_truncated m, encode_truncated hb⟩
  simp only [readFrame, List.append_assoc, readExact_append (length_toBeBytes32 _),
    fromBeBytes32_toBeBytes32, hn, bind, Except.bind]
  rw [if_neg (not_not.mpr hlen), readExact_append rfl]
  simp [hd, Except.mapError, pure, Except.pure]

/-- A frame that is cut off yields nothing: its length or its body is short. -/
theorem readFrame_cut (h : m.frame = .ok f) (hp : buf <+: f) (hne : buf ≠ f) :
    ∃ e, readFrame buf = .error e := by
  obtain ⟨body, hb, rfl⟩ := frame_eq_ok_iff.mp h
  by_cases hl : buf.length < 4
  · exact ⟨.other, by simp [readFrame, readExact, hl, bind, Except.bind]⟩
  -- The length field is whole, so it is the body that is short.
  obtain ⟨short, rfl⟩ : ∃ short, buf = toBeBytes32 (UInt32.ofNat body.length) ++ short := by
    obtain ⟨short, hs⟩ := List.prefix_of_prefix_length_le (List.prefix_append _ body) hp
      (by simpa using hl)
    exact ⟨short, hs.symm⟩
  have hshort : short.length < body.length := by
    have hp := (List.prefix_append_right_inj _).mp hp
    refine Nat.lt_of_le_of_ne hp.length_le fun he => hne ?_
    rw [hp.eq_of_length he]
  have hmax : maxMessageBodyLen = 131081 := rfl
  have hn : (UInt32.ofNat body.length).toNat = body.length := by
    have := length_encode hb
    rw [UInt32.toNat_ofNat']
    omega
  simp only [readFrame, readExact_append (length_toBeBytes32 _), fromBeBytes32_toBeBytes32, hn,
    bind, Except.bind]
  split
  · exact ⟨_, rfl⟩
  · exact ⟨.other, by simp [readExact, hshort]⟩

theorem readFrames_frames (hk : ∀ m ∈ ms, m.kind ≠ .data) (h : ms.mapM frame = .ok fs) :
    readFrames ms.length (fs.flatten ++ rest) = .ok (ms.map truncated, rest) := by
  induction ms generalizing fs with
  | nil =>
    cases h
    rfl
  | cons m ms ih =>
    simp only [List.mapM_cons, bind_eq_ok_iff] at h
    obtain ⟨f, hf, fs', hfs, h⟩ := h
    cases h
    have hm := readFrame_frame (fs'.flatten ++ rest) (hk m List.mem_cons_self) hf
    have hms := ih (fun m hm => hk m (List.mem_cons_of_mem _ hm)) hfs
    simp [readFrames, hm, hms, bind, Except.bind, pure, Except.pure]

/-- Frames delimit themselves: the reader gets back every control message that can be written,
leaves the bytes after the last one untouched, and makes nothing of a frame that is cut off. -/
theorem frames_self_delimiting :
    (∀ (ms : List Message) (fs : List Bytes) (rest : Bytes), (∀ m ∈ ms, m.kind ≠ .data) →
      ms.mapM frame = .ok fs → ∃ ms', readFrames ms.length (fs.flatten ++ rest) = .ok (ms', rest) ∧
        List.Forall₂ ArrivesAs ms ms') ∧
    (∀ (m : Message) (f : Bytes), m.kind ≠ .data → m.frame = .ok f →
      1 ≤ (f.drop 4).length ∧ (f.drop 4).length ≤ maxFrameBodyLen) ∧
    ∀ (m : Message) (f cut : Bytes), m.frame = .ok f → cut <+: f → cut ≠ f →
      ∃ e, readFrame cut = .error e := by
  refine ⟨fun ms fs rest hk h => ?_, fun m f hk h => ?_, fun m f cut h hp hne => ?_⟩
  · refine ⟨ms.map truncated, readFrames_frames hk h, ?_⟩
    rw [List.forall₂_map_right_iff]
    exact List.forall₂_same.mpr fun m _ => arrivesAs_truncated m
  · obtain ⟨body, hb, rfl⟩ := frame_eq_ok_iff.mp h
    rw [List.drop_left' (length_toBeBytes32 _)]
    exact length_encode_control hb hk
  · exact readFrame_cut h hp hne

/-- Two frames and the first bytes of a tunnel. -/
theorem frames_self_delimiting_connect :
    ∃ ms', readFrames 2 ([0, 0, 0, 8, 1, 0, 0, 0, 7, 0, 1, 97] ++ [0, 0, 0, 5, 2, 0, 0, 0, 7] ++
        [71, 69, 84]) = .ok (ms', [71, 69, 84]) ∧
      List.Forall₂ ArrivesAs [.connect 7 "a", .connectOk 7] ms' := by
  have h := frames_self_delimiting.1 [.connect 7 "a", .connectOk 7]
    [[0, 0, 0, 8, 1, 0, 0, 0, 7, 0, 1, 97], [0, 0, 0, 5, 2, 0, 0, 0, 7]] [71, 69, 84]
    (by decide) (by decide)
  exact h

end Message

end X2rp.Proto
