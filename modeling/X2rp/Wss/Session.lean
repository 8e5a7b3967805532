import X2rp.Wss.Mux

/-! The WSS session with its bounded queues: on each side the loops between the stream tasks and
the transport, one await at a time. -/
namespace X2rp.Wss

open Proto

inductive Frame
  | binary (body : Bytes)
  | ping
  | pong
deriving DecidableEq, Repr

/-- The message in a frame, as its receiver reads it. -/
def Frame.message? : Frame → Option Message
  | .binary body => (Message.decode body).toOption
  | .ping | .pong => none

/-- `channel` is the receiving end of the manager's `Link`; `outbound` and `writeQueue` are the
connector's queues. A `…Frame` is what a loop is waiting to hand on, oldest data being nearest to
the receiver. `pongDue` is the reply that tungstenite keeps for its next flush. -/
structure Session where
  server : ConnectorManager := {}
  connector : SessionManager := {}
  channel : List Message := []
  serverFrame : Option Frame := none
  toConnector : List Frame := []
  outbound : List Message := []
  muxFrame : Option Frame := none
  writeQueue : List Frame := []
  connectorFrame : Option Frame := none
  toServer : List Frame := []
  pongDue : Bool := false
  isOver : Bool := false

/-- Who takes a step: one of the session's loops, a stream task, or the clock and the network. -/
inductive Actor
  | serverRead
  | serverWrite
  | mux
  | connectorWrite
  | task
  | outside
deriving DecidableEq, Repr

def Actor.isLoop : Actor → Bool
  | .serverRead | .serverWrite | .mux | .connectorWrite => true
  | .task | .outside => false

namespace Session

variable {s s' : Session} {chunk buffer : Nat} {a : Actor}

/-- The steps of a session that has not ended. A transport buffer takes `buffer` frames. -/
inductive Step (chunk buffer : Nat) : Session → Actor → Session → Prop
  | serverTask {s : Session} {M : ConnectorManager} (ho : s.isOver = false)
      (h : ConnectorManager.Step chunk s.server .internal M) :
      Step chunk buffer s .task { s with server := M }
  | serverSend {s : Session} {M : ConnectorManager} {m : Message} (ho : s.isOver = false)
      (h : ConnectorManager.Step chunk s.server (.output m) M)
      (hc : s.channel.length < connectorChannelCapacity) :
      Step chunk buffer s .task { s with server := M, channel := s.channel ++ [m] }
  | serverRecv {s : Session} {M : ConnectorManager} {body : Bytes} {m : Message}
      {rest : List Frame} (ho : s.isOver = false) (hw : s.toServer = .binary body :: rest)
      (hd : Message.decode body = .ok m)
      (h : ConnectorManager.Step chunk s.server (.input m) M) :
      Step chunk buffer s .serverRead { s with server := M, toServer := rest }
  | serverDeliver {s : Session} {M : ConnectorManager} (ho : s.isOver = false)
      (h : ConnectorManager.Step chunk s.server .deliver M) :
      Step chunk buffer s .serverRead { s with server := M }
  | serverBadMessage {s : Session} {body : Bytes} {e : IoError} {rest : List Frame}
      (ho : s.isOver = false) (hr : s.server.reading = none)
      (hw : s.toServer = .binary body :: rest) (hd : Message.decode body = .error e) :
      Step chunk buffer s .serverRead { s with toServer := rest, isOver := true }
  | serverControl {s : Session} {f : Frame} {rest : List Frame} (ho : s.isOver = false)
      (hr : s.server.reading = none) (hw : s.toServer = f :: rest)
      (hf : ∀ body, f ≠ .binary body) :
      Step chunk buffer s .serverRead { s with toServer := rest }
  | serverTake {s : Session} {m : Message} {body : Bytes} {rest : List Message}
      (ho : s.isOver = false) (hf : s.serverFrame = none) (hc : s.channel = m :: rest)
      (he : m.encode = .ok body) :
      Step chunk buffer s .serverWrite
        { s with channel := rest, serverFrame := some (.binary body) }
  | serverUnencodable {s : Session} {m : Message} {e : IoError} {rest : List Message}
      (ho : s.isOver = false) (hf : s.serverFrame = none) (hc : s.channel = m :: rest)
      (he : m.encode = .error e) :
      Step chunk buffer s .serverWrite { s with channel := rest, isOver := true }
  | serverPing {s : Session} (ho : s.isOver = false) (hf : s.serverFrame = none) :
      Step chunk buffer s .outside { s with serverFrame := some .ping }
  | serverPut {s : Session} {f : Frame} (ho : s.isOver = false) (hf : s.serverFrame = some f)
      (hw : s.toConnector.length < buffer) :
      Step chunk buffer s .serverWrite
        { s with serverFrame := none, toConnector := s.toConnector ++ [f] }
  | connectorTask {s : Session} {C : SessionManager} (ho : s.isOver = false)
      (h : SessionManager.Step chunk s.connector .internal C) :
      Step chunk buffer s .task { s with connector := C }
  | connectorSend {s : Session} {C : SessionManager} {m : Message} (ho : s.isOver = false)
      (h : SessionManager.Step chunk s.connector (.output m) C)
      (hc : s.outbound.length < connectorChannelCapacity) :
      Step chunk buffer s .task { s with connector := C, outbound := s.outbound ++ [m] }
  -- The mux loop reads nothing while it waits for room in the write queue.
  | muxRecv {s : Session} {C : SessionManager} {body : Bytes} {m : Message} {rest : List Frame}
      (ho : s.isOver = false) (hf : s.muxFrame = none)
      (hw : s.toConnector = .binary body :: rest) (hd : Message.decode body = .ok m)
      (h : SessionManager.Step chunk s.connector (.input m) C) :
      Step chunk buffer s .mux { s with connector := C, toConnector := rest }
  | muxBadMessage {s : Session} {body : Bytes} {e : IoError} {rest : List Frame}
      (ho : s.isOver = false) (hf : s.muxFrame = none)
      (hw : s.toConnector = .binary body :: rest) (hd : Message.decode body = .error e) :
      Step chunk buffer s .mux { s with toConnector := rest, isOver := true }
  | muxControl {s : Session} {f : Frame} {rest : List Frame} (ho : s.isOver = false)
      (hf : s.muxFrame = none) (hw : s.toConnector = f :: rest)
      (hb : ∀ body, f ≠ .binary body) :
      Step chunk buffer s .mux
        { s with toConnector := rest, pongDue := s.pongDue || f == .ping }
  | muxTake {s : Session} {m : Message} {body : Bytes} {rest : List Message}
      (ho : s.isOver = false) (hf : s.muxFrame = none) (hq : s.outbound = m :: rest)
      (he : m.encode = .ok body) :
      Step chunk buffer s .mux { s with outbound := rest, muxFrame := some (.binary body) }
  | muxUnencodable {s : Session} {m : Message} {e : IoError} {rest : List Message}
      (ho : s.isOver = false) (hf : s.muxFrame = none) (hq : s.outbound = m :: rest)
      (he : m.encode = .error e) :
      Step chunk buffer s .mux { s with outbound := rest, isOver := true }
  | muxPut {s : Session} {f : Frame} (ho : s.isOver = false) (hf : s.muxFrame = some f)
      (hq : s.writeQueue.length < connectorChannelCapacity) :
      Step chunk buffer s .mux
        { s with muxFrame := none, writeQueue := s.writeQueue ++ [f] }
  | writerTake {s : Session} {f : Frame} {rest : List Frame} (ho : s.isOver = false)
      (hf : s.connectorFrame = none) (hq : s.writeQueue = f :: rest) :
      Step chunk buffer s .connectorWrite
        { s with writeQueue := rest, connectorFrame := some f }
  | writerPut {s : Session} {f : Frame} (ho : s.isOver = false) (hf : s.connectorFrame = some f)
      (hw : s.toServer.length < buffer) :
      Step chunk buffer s .connectorWrite
        { s with connectorFrame := none, toServer := s.toServer ++ [f] }
  | pong {s : Session} (ho : s.isOver = false) (hp : s.pongDue = true)
      (hw : s.toServer.length < buffer) :
      Step chunk buffer s .connectorWrite
        { s with pongDue := false, toServer := s.toServer ++ [.pong] }
  -- A timeout, a transport error, a closed socket or a kick.
  | quit {s : Session} (ho : s.isOver = false) :
      Step chunk buffer s .outside { s with isOver := true }

def lts (chunk buffer : Nat) : LTS Session Actor where
  Init s := s = {}
  Tr := Step chunk buffer

/-- A frame reads as the message it was made from. -/
theorem message?_binary {m : Message} {body : Bytes} (h : m.encode = .ok body) :
    (Frame.binary body).message? = some m.truncated := by
  have hd : Message.decode body = .ok m.truncated :=
    Message.decode_eq_ok_iff.mpr ⟨Message.truncated_truncated m, Message.encode_truncated h⟩
  simp [Frame.message?, hd, Except.toOption]

theorem message?_of_decode {m : Message} {body : Bytes} (h : Message.decode body = .ok m) :
    (Frame.binary body).message? = some m := by
  simp [Frame.message?, h, Except.toOption]

theorem message?_control {f : Frame} (hf : ∀ body, f ≠ .binary body) : f.message? = none := by
  cases f with
  | binary body => exact absurd rfl (hf body)
  | _ => rfl

/-- The messages in a sequence of frames. -/
def messages (l : List Frame) : List Message := l.filterMap Frame.message?

@[simp] theorem messages_nil : messages [] = [] := rfl

@[simp] theorem messages_append (l r : List Frame) : messages (l ++ r) = messages l ++ messages r :=
  List.filterMap_append

theorem messages_cons (f : Frame) (l : List Frame) :
    messages (f :: l) = f.message?.toList ++ messages l := by
  cases h : f.message? <;> simp [messages, h]

/-- The session with its queues and buffers taken as one channel each way. -/
def mux (s : Session) : Mux where
  server := s.server
  connector := s.connector
  up := messages s.toConnector ++ messages s.serverFrame.toList ++ s.channel.map Message.truncated
  down := messages s.toServer ++ messages s.connectorFrame.toList ++ messages s.writeQueue ++
    messages s.muxFrame.toList ++ s.outbound.map Message.truncated

/-- The loops move messages along and lose none: only the ends of a channel are steps of the
mux. -/
theorem mux_step (h : Step chunk buffer s a s') (ho : s'.isOver = false) :
    s'.mux = s.mux ∨ Mux.Step chunk s.mux () s'.mux := by
  cases h with
  | serverTask _ h => exact .inr (.serverTask h)
  | serverSend _ h _ => exact .inr (by simpa [mux] using Mux.Step.serverSend (s := s.mux) h)
  | serverRecv _ hw hd h =>
    exact .inr (.serverRecv (by simp [mux, hw, messages_cons, message?_of_decode hd]) h)
  | serverDeliver _ h => exact .inr (.serverDeliver h)
  | serverBadMessage _ _ _ _ => simp at ho
  | serverControl _ _ hw hf => exact .inl (by simp [mux, hw, messages_cons, message?_control hf])
  | serverTake _ hf hc he =>
    exact .inl (by simp [mux, hf, hc, messages_cons, message?_binary he])
  | serverUnencodable _ _ _ _ => simp at ho
  | serverPing _ hf => exact .inl (by simp [mux, hf, messages_cons, Frame.message?])
  | serverPut _ hf _ => exact .inl (by simp [mux, hf])
  | connectorTask _ h => exact .inr (.connectorTask h)
  | connectorSend _ h _ => exact .inr (by simpa [mux] using Mux.Step.connectorSend (s := s.mux) h)
  | muxRecv _ _ hw hd h =>
    exact .inr (.connectorRecv (by simp [mux, hw, messages_cons, message?_of_decode hd]) h)
  | muxBadMessage _ _ _ _ => simp at ho
  | muxControl _ _ hw hf => exact .inl (by simp [mux, hw, messages_cons, message?_control hf])
  | muxTake _ hf hq he => exact .inl (by simp [mux, hf, hq, messages_cons, message?_binary he])
  | muxUnencodable _ _ _ _ => simp at ho
  | muxPut _ hf _ => exact .inl (by simp [mux, hf])
  | writerTake _ hf hq => exact .inl (by simp [mux, hf, hq, messages_cons])
  | writerPut _ hf _ => exact .inl (by simp [mux, hf])
  | pong _ _ _ => exact .inl (by simp [mux, messages_cons, Frame.message?])
  | quit _ => simp at ho

theorem step_over (h : Step chunk buffer s a s') : s.isOver = false := by
  cases h <;> assumption

/-- Up to its end, a session with bounded queues is a run of the mux. -/
theorem mux_reachable (h : (lts chunk buffer).Reachable s) (ho : s.isOver = false) :
    (Mux.lts chunk).Reachable s.mux := by
  induction h with
  | init h =>
    cases h
    exact .init rfl
  | step _ ht ih =>
    rcases mux_step ht ho with he | hs
    · exact he ▸ ih (step_over ht)
    · exact (ih (step_over ht)).step hs

/-- Every frame of the session, wherever it is. -/
def frames (s : Session) : List Frame :=
  s.toConnector ++ s.serverFrame.toList ++ s.toServer ++ s.connectorFrame.toList ++
    s.writeQueue ++ s.muxFrame.toList

/-- Its receiver can read the frame. -/
def Readable (f : Frame) : Prop := ∀ body, f = .binary body → ∃ m, Message.decode body = .ok m

theorem readable_binary {m : Message} {body : Bytes} (h : m.encode = .ok body) :
    Readable (.binary body) := by
  rintro _ ⟨⟩
  exact ⟨m.truncated, Message.decode_eq_ok_iff.mpr
    ⟨Message.truncated_truncated m, Message.encode_truncated h⟩⟩

/-- A frame was in the session before, or it is new and can be read. -/
theorem frames_step (h : Step chunk buffer s a s') {f : Frame} (hf : f ∈ s'.frames) :
    f ∈ s.frames ∨ Readable f := by
  simp only [frames, List.mem_append, Option.mem_toList] at hf ⊢
  cases h with
  | serverTake _ _ _ he => grind [readable_binary he]
  | muxTake _ _ _ he => grind [readable_binary he]
  | serverPing _ _ => grind [Readable]
  | pong _ _ _ => grind [Readable]
  | _ => grind

/-- No message of the two ends is ever refused as unreadable. -/
theorem readable_of_reachable (h : (lts chunk buffer).Reachable s) {f : Frame}
    (hf : f ∈ s.frames) : Readable f := by
  induction h with
  | init h =>
    cases h
    simp [frames] at hf
  | step _ ht ih => exact (frames_step ht hf).elim ih id

/-- No queue and no buffer holds more than it has room for. -/
structure Bounded (buffer : Nat) (s : Session) : Prop where
  channel : s.channel.length ≤ connectorChannelCapacity
  outbound : s.outbound.length ≤ connectorChannelCapacity
  writeQueue : s.writeQueue.length ≤ connectorChannelCapacity
  toConnector : s.toConnector.length ≤ buffer
  toServer : s.toServer.length ≤ buffer

theorem Bounded.step (hs : Bounded buffer s) (h : Step chunk buffer s a s') :
    Bounded buffer s' := by
  obtain ⟨h1, h2, h3, h4, h5⟩ := hs
  cases h <;> constructor <;> simp_all <;> omega

theorem bounded_of_reachable (h : (lts chunk buffer).Reachable s) : Bounded buffer s :=
  h.invariant (P := Bounded buffer) (fun s h => by cases h; constructor <;> simp)
    fun _ _ _ hs ht => hs.step ht

/-- Something is queued, buffered or in a loop's hands, or a stream task waits for room. -/
def Busy (chunk : Nat) (s : Session) : Prop :=
  s.channel ≠ [] ∨ s.serverFrame ≠ none ∨ s.toConnector ≠ [] ∨ s.outbound ≠ [] ∨
  s.muxFrame ≠ none ∨ s.writeQueue ≠ [] ∨ s.connectorFrame ≠ none ∨ s.toServer ≠ [] ∨
  s.server.reading ≠ none ∨
  (∃ m M, ConnectorManager.Step chunk s.server (.output m) M ∧
    connectorChannelCapacity ≤ s.channel.length) ∨
  ∃ m C, SessionManager.Step chunk s.connector (.output m) C ∧
    connectorChannelCapacity ≤ s.outbound.length

/-- One of the loops can take a step now. -/
def Moves (chunk buffer : Nat) (s : Session) : Prop :=
  ∃ a s', a.isLoop = true ∧ Step chunk buffer s a s'

section Progress

variable (ho : s.isOver = false)
include ho

/-- The server's read loop never waits for anyone. -/
theorem serverRead_moves (h : s.toServer ≠ [] ∨ s.server.reading ≠ none) :
    Moves chunk buffer s := by
  rcases hr : s.server.reading with - | ⟨i, t, p⟩
  · obtain ⟨f, rest, hw⟩ := List.exists_cons_of_ne_nil (h.resolve_right (by simp [hr]))
    cases f with
    | binary body =>
      cases hd : Message.decode body with
      | ok m => exact ⟨_, _, rfl, .serverRecv ho hw hd (.recv hr)⟩
      | error e => exact ⟨_, _, rfl, .serverBadMessage ho hr hw hd⟩
    | ping => exact ⟨_, _, rfl, .serverControl ho hr hw (by simp)⟩
    | pong => exact ⟨_, _, rfl, .serverControl ho hr hw (by simp)⟩
  · exact ⟨_, _, rfl, .serverDeliver ho (.deliver hr)⟩

/-- The connector's write loop waits for the server's read loop only. -/
theorem connectorWrite_moves (hb : 0 < buffer) (h : s.connectorFrame ≠ none ∨ s.writeQueue ≠ []) :
    Moves chunk buffer s := by
  by_cases hw : s.toServer = []
  · cases hf : s.connectorFrame with
    | some f => exact ⟨_, _, rfl, .writerPut ho hf (by simpa [hw] using hb)⟩
    | none =>
      obtain ⟨f, rest, hq⟩ := List.exists_cons_of_ne_nil (h.resolve_left (by simp [hf]))
      exact ⟨_, _, rfl, .writerTake ho hf hq⟩
  · exact serverRead_moves ho (.inl hw)

/-- The mux loop waits for the write loop only: `handle_message` does not wait. -/
theorem mux_moves (hb : 0 < buffer)
    (h : s.muxFrame ≠ none ∨ s.toConnector ≠ [] ∨ s.outbound ≠ []) : Moves chunk buffer s := by
  by_cases hq : s.writeQueue = []
  · cases hf : s.muxFrame with
    | some f => exact ⟨_, _, rfl, .muxPut ho hf (by simp [hq, connectorChannelCapacity])⟩
    | none =>
      rcases h.resolve_left (by simp [hf]) with hw | hout
      · obtain ⟨f, rest, hw⟩ := List.exists_cons_of_ne_nil hw
        cases f with
        | binary body =>
          cases hd : Message.decode body with
          | ok m => exact ⟨_, _, rfl, .muxRecv ho hf hw hd .recv⟩
          | error e => exact ⟨_, _, rfl, .muxBadMessage ho hf hw hd⟩
        | ping => exact ⟨_, _, rfl, .muxControl ho hf hw (by simp)⟩
        | pong => exact ⟨_, _, rfl, .muxControl ho hf hw (by simp)⟩
      · obtain ⟨m, rest, hout⟩ := List.exists_cons_of_ne_nil hout
        cases he : m.encode with
        | ok body => exact ⟨_, _, rfl, .muxTake ho hf hout he⟩
        | error e => exact ⟨_, _, rfl, .muxUnencodable ho hf hout he⟩
  · exact connectorWrite_moves ho hb (.inr hq)

/-- The server's write loop waits for the mux loop only. -/
theorem serverWrite_moves (hb : 0 < buffer) (h : s.serverFrame ≠ none ∨ s.channel ≠ []) :
    Moves chunk buffer s := by
  by_cases hw : s.toConnector = []
  · cases hf : s.serverFrame with
    | some f => exact ⟨_, _, rfl, .serverPut ho hf (by simpa [hw] using hb)⟩
    | none =>
      obtain ⟨m, rest, hc⟩ := List.exists_cons_of_ne_nil (h.resolve_left (by simp [hf]))
      cases he : m.encode with
      | ok body => exact ⟨_, _, rfl, .serverTake ho hf hc he⟩
      | error e => exact ⟨_, _, rfl, .serverUnencodable ho hf hc he⟩
  · exact mux_moves ho hb (.inr (.inl hw))

/-- A busy session moves: the loops wait for each other in one direction only. -/
theorem moves_of_busy (hb : 0 < buffer) (h : Busy chunk s) : Moves chunk buffer s := by
  have hpos : 0 < connectorChannelCapacity := by decide
  rcases h with h | h | h | h | h | h | h | h | h | ⟨m, M, -, h⟩ | ⟨m, C, -, h⟩
  · exact serverWrite_moves ho hb (.inr h)
  · exact serverWrite_moves ho hb (.inl h)
  · exact mux_moves ho hb (.inr (.inl h))
  · exact mux_moves ho hb (.inr (.inr h))
  · exact mux_moves ho hb (.inl h)
  · exact connectorWrite_moves ho hb (.inr h)
  · exact connectorWrite_moves ho hb (.inl h)
  · exact serverRead_moves ho (.inl h)
  · exact serverRead_moves ho (.inr h)
  · exact serverWrite_moves ho hb (.inr (List.ne_nil_of_length_pos (hpos.trans_le h)))
  · exact mux_moves ho hb (.inr (.inr (List.ne_nil_of_length_pos (hpos.trans_le h))))

end Progress

/-- How many loop steps what is in the session can still cause: each stage counts for one more
than the next, and a ping for its pong as well. -/
def work (s : Session) : Nat :=
  6 * s.channel.length + 5 * s.serverFrame.toList.length + 4 * s.toConnector.length +
  6 * s.outbound.length + 5 * s.muxFrame.toList.length + 4 * s.writeQueue.length +
  3 * s.connectorFrame.toList.length + (if s.pongDue then 3 else 0) + 2 * s.toServer.length +
  s.server.reading.toList.length

/-- The loops alone, with every stream task and the clock at a standstill. -/
def loops (chunk buffer : Nat) : LTS Session Actor :=
  (lts chunk buffer).restrict fun _ a _ => a.isLoop = true

theorem deliver_reading {M M' : ConnectorManager} (h : ConnectorManager.Step chunk M .deliver M') :
    M.reading ≠ none ∧ M'.reading = none := by
  cases h with
  | deliver hr =>
    refine ⟨by simp [hr], ?_⟩
    unfold ConnectorManager.deliver
    dsimp only
    split <;> simp

theorem recv_reading {M M' : ConnectorManager} {m : Message}
    (h : ConnectorManager.Step chunk M (.input m) M') : M.reading = none := by
  cases h
  assumption

/-- `handle_message` sends nothing, so what a loop takes from one stage it puts at most into the
next. -/
theorem work_step (h : (loops chunk buffer).Tr s a s') : s'.work < s.work := by
  obtain ⟨h, hl⟩ := h
  cases h with
  | serverTask _ _ => simp [Actor.isLoop] at hl
  | serverSend _ _ _ => simp [Actor.isLoop] at hl
  | connectorTask _ _ => simp [Actor.isLoop] at hl
  | connectorSend _ _ _ => simp [Actor.isLoop] at hl
  | serverPing _ _ => simp [Actor.isLoop] at hl
  | quit _ => simp [Actor.isLoop] at hl
  | @serverRecv M body m rest _ hw _ h =>
    have hle : M.reading.toList.length ≤ 1 := by cases M.reading <;> simp
    simp [work, hw, recv_reading h]
    omega
  | serverDeliver _ h =>
    obtain ⟨hr, hr'⟩ := deliver_reading h
    obtain ⟨p, hp⟩ := Option.ne_none_iff_exists'.mp hr
    simp [work, hp, hr']
  | muxControl _ _ hw _ =>
    simp only [work, hw, List.length_cons]
    split <;> split <;> omega
  | pong _ hp _ => simp [work, hp]; omega
  | _ => simp_all [work]; try omega

/-- No circular wait. A session that has not ended keeps within its queues. Whenever something is
queued or waits to be, one of its loops can move, whatever the stream tasks do; and if they do
nothing at all, the loops come to rest, with every queue empty or the session over. -/
theorem no_circular_wait (hb : 0 < buffer) (h : (lts chunk buffer).Reachable s)
    (ho : s.isOver = false) : Bounded buffer s ∧ (Busy chunk s → Moves chunk buffer s) ∧
      ∀ es t, (loops chunk buffer).MTr s es t → es.length + t.work ≤ s.work ∧
        (¬ Moves chunk buffer t → t.isOver = true ∨ ¬ Busy chunk t) := by
  refine ⟨bounded_of_reachable h, moves_of_busy ho hb, fun es t hrun => ?_⟩
  refine ⟨hrun.length_le (m := work) fun _ _ _ => work_step, fun hm => ?_⟩
  cases hover : t.isOver with
  | true => exact .inl rfl
  | false => exact .inr fun hbusy => hm (moves_of_busy hover hb hbusy)

/-- The manager's own steps are steps of the session. -/
theorem serverTasks {M M' : ConnectorManager} {n : Nat} (ho : s.isOver = false)
    (h : (ConnectorManager.lts chunk).MTr M (List.replicate n .internal) M') (hs : s.server = M) :
    (lts chunk buffer).MTr s (List.replicate n .task) { s with server := M' } := by
  induction n generalizing s M with
  | zero =>
    cases h
    subst hs
    exact .refl
  | succ n ih =>
    rw [List.replicate_succ] at h ⊢
    cases h with
    | stepL hstep hrest =>
      subst hs
      exact .stepL (.serverTask ho hstep) (ih (s := { s with server := _ }) ho hrest rfl)

/-- As many tunnels have queued their `Connect`, and no loop has taken one yet. -/
structure Queued (n : Nat) (s : Session) : Prop where
  running : s.isOver = false
  server : s.server.Serial n
  channel : s.channel.length = n

/-- The next tunnel gets as far as its `Connect`. -/
theorem Queued.opens {n : Nat} (h : Queued n s) (hn : n < maxActiveStreams)
    (hr : (lts chunk buffer).Reachable s) : ∃ M, ConnectorManager.Opened "" s.server M ∧
      (lts chunk buffer).Reachable { s with server := M } := by
  have hmax : maxActiveStreams < 2 ^ 32 := by decide
  obtain ⟨hs, hw⟩ := h.server.fresh (by omega)
  obtain ⟨M, hM, ho⟩ :=
    ConnectorManager.open_run chunk "" (by rw [h.server.active]; exact hn) hs hw
  exact ⟨M, ho, LTS.Reachable.trans hr (serverTasks h.running hM rfl)⟩

theorem queued_run (chunk buffer : Nat) {n : Nat} (hn : n ≤ connectorChannelCapacity) :
    ∃ s, (lts chunk buffer).Reachable s ∧ Queued n s := by
  have hcap : connectorChannelCapacity < maxActiveStreams := by decide
  induction n with
  | zero => exact ⟨{}, .init rfl, rfl, ConnectorManager.serial_init, rfl⟩
  | succ n ih =>
    obtain ⟨s, hr, hs⟩ := ih (by omega)
    obtain ⟨M, ho, hr'⟩ := hs.opens (by omega) hr
    refine ⟨_, hr'.step (.serverSend hs.running (ho.connect hs.server.linkOpen chunk) ?_), hs.running,
      (hs.server.opened ho).setTunnel _ _, ?_⟩
    · rw [hs.channel]
      exact hn
    · rw [List.length_append, hs.channel]
      rfl

/-- The channel is full of `Connect`s, and one more tunnel waits to send its own. -/
theorem no_circular_wait_full : ∃ (s : Session) (m : Message) (M : ConnectorManager),
    (lts tunnelReadChunk 1).Reachable s ∧ s.isOver = false ∧
      s.channel.length = connectorChannelCapacity ∧
      ConnectorManager.Step tunnelReadChunk s.server (.output m) M ∧
      Busy tunnelReadChunk s ∧ Moves tunnelReadChunk 1 s := by
  obtain ⟨s, hr, hs⟩ := queued_run tunnelReadChunk 1 le_rfl
  obtain ⟨M, ho, hr'⟩ := hs.opens (by decide) hr
  have hsend := ho.connect hs.server.linkOpen tunnelReadChunk
  have hbusy : Busy tunnelReadChunk { s with server := M } := by
    iterate 9 right
    exact .inl ⟨_, _, hsend, hs.channel.ge⟩
  exact ⟨_, _, _, hr', hs.running, hs.channel, hsend, hbusy,
    (no_circular_wait (by decide) hr' hs.running).2.1 hbusy⟩

end Session

end X2rp.Wss
