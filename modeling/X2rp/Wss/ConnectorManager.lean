import Mathlib.Data.Finmap
import X2rp.Lts
import X2rp.Wss.Tunnel

/-! The server side of one WSS session: `ConnectorManager` with its tunnel tasks and the
read loop that calls `handle_message`. -/
namespace X2rp.Wss

open Proto

/-- The manager and the tasks it has spawned. Tasks are numbered in the order they were
admitted; the maps hold task numbers for what the source keeps behind an `Arc`.

`reading` is a payload `handle_message` has counted and not yet queued. A call of
`remove_stream` that took an entry out of `streams` still has to free the slot (`releasing`)
and then to fail the pending connect (`failing`); the model lets these run behind their
caller, which covers every interleaving the critical sections allow. `released` counts the
slots each task has given back. -/
structure ConnectorManager where
  activeStreams : Nat := 0
  nextStreamId : UInt32 := 1
  pending : Finmap (fun _ : UInt32 => Nat) := ∅
  streams : Finmap (fun _ : UInt32 => Nat) := ∅
  linkOpen : Bool := true
  started : Nat := 0
  tunnels : Nat → Tunnel := fun _ => { target := "" }
  reading : Option (UInt32 × Nat × Bytes) := none
  releasing : List (UInt32 × Nat) := []
  failing : List UInt32 := []
  spawned : List Message := []
  released : Nat → Nat := fun _ => 0

/-- How a step of the manager shows at its transport. -/
inductive Event
  | internal
  /-- A message enters the session's outbound channel. -/
  | output (m : Message)
  /-- The read loop takes a message from its peer. -/
  | input (m : Message)
  /-- The read loop queues the payload it has in hand. -/
  | deliver
  /-- The receiver of the outbound channel is dropped. -/
  | hangup
deriving DecidableEq

namespace ConnectorManager

variable {s s' : ConnectorManager} {chunk : Nat} {e : Event} {t u : Nat} {i j : UInt32}
  {T : Tunnel} {m : Message}

/-- The task registered under a stream id. -/
def streamOf (s : ConnectorManager) (id : UInt32) : Option Nat := s.streams.lookup id

/-- The task whose connect is pending under a stream id. -/
def waiterOf (s : ConnectorManager) (id : UInt32) : Option Nat := s.pending.lookup id

def setTunnel (s : ConnectorManager) (t : Nat) (T : Tunnel) : ConnectorManager :=
  { s with tunnels := Function.update s.tunnels t T }

def tryReserveStreamSlot (s : ConnectorManager) : Option ConnectorManager :=
  if s.activeStreams < maxActiveStreams then
    some { s with activeStreams := s.activeStreams + 1 }
  else none

/-- `checked_sub` saturates: a counter at zero stays there. -/
def releaseStreamSlot (s : ConnectorManager) : ConnectorManager :=
  { s with activeStreams := s.activeStreams - 1 }

/-- `tokio::spawn` of the tunnel task that `bridge` has reserved a slot for. -/
def spawnTunnel (s : ConnectorManager) (target : String) : ConnectorManager :=
  { s.setTunnel s.started { target := target } with started := s.started + 1 }

/-- The task draws an id: `next_stream_id.fetch_add(1)`, which wraps. -/
def fetchStreamId (s : ConnectorManager) (t : Nat) : ConnectorManager :=
  { s.setTunnel t { s.tunnels t with phase := .checkId, id := s.nextStreamId } with
    nextStreamId := s.nextStreamId + 1 }

/-- `remove_stream` up to the point where it holds the removed entry. -/
def removeStream (s : ConnectorManager) (id : UInt32) : ConnectorManager :=
  match s.streamOf id with
  | none => s
  | some t =>
    { s.setTunnel t (s.tunnels t).closeCredit with
      streams := s.streams.erase id, releasing := (id, t) :: s.releasing }

/-- The next step of that `remove_stream`: give the slot of the removed entry back. -/
def freeRemoved (s : ConnectorManager) (id : UInt32) (t : Nat) : ConnectorManager :=
  { s.releaseStreamSlot with
    releasing := s.releasing.erase (id, t), failing := id :: s.failing,
    released := Function.update s.released t (s.released t + 1) }

/-- Take the pending connect of `id`, if any, and send its task this answer. -/
def answerPending (s : ConnectorManager) (id : UInt32) (answer : Answer) : ConnectorManager :=
  match s.waiterOf id with
  | none => s
  | some t =>
    { s.setTunnel t ((s.tunnels t).answered answer) with pending := s.pending.erase id }

/-- The last step of a `remove_stream`: fail the connect that is still pending. -/
def failPending (s : ConnectorManager) (id : UInt32) : ConnectorManager :=
  ({ s with failing := s.failing.erase id } : ConnectorManager).answerPending id
    (.err "stream closed")

def handleData (s : ConnectorManager) (id : UInt32) (payload : Bytes) : ConnectorManager :=
  match s.streamOf id with
  | none => s
  | some t =>
    let after := (s.tunnels t).outstanding + payload.length
    let s := s.setTunnel t ((s.tunnels t).addOutstanding payload.length)
    if streamRecvWindow < after then
      let s := s.removeStream id
      { s with spawned := s.spawned ++ [.reset id] }
    else { s with reading := some (id, t, payload) }

def grantCredit (s : ConnectorManager) (id : UInt32) (bytes : Nat) : ConnectorManager :=
  match s.streamOf id with
  | none => s
  | some t => s.setTunnel t ((s.tunnels t).addCredit bytes)

def handleMessage (s : ConnectorManager) : Message → ConnectorManager
  | .connectOk id => s.answerPending id .ok
  | .connectErr id error => s.answerPending id (.err error)
  | .data id payload => s.handleData id payload
  | .windowUpdate id bytes => s.grantCredit id bytes.toNat
  | .close id | .reset id => s.removeStream id
  | .connect .. | .auth .. => s

/-- Queue the payload in hand; the receiver is gone once the task has ended. -/
def deliver (s : ConnectorManager) (id : UInt32) (t : Nat) (payload : Bytes) : ConnectorManager :=
  let s := { s with reading := none }
  if (s.tunnels t).phase = .ended then s.removeStream id
  else s.setTunnel t ((s.tunnels t).enqueue payload)

/-- Registering over a live key drops the old sender, which cancels its task's wait. -/
def insertPending (s : ConnectorManager) (id : UInt32) (t : Nat) : ConnectorManager :=
  let s := s.answerPending id .cancelled
  { s with pending := s.pending.insert id t }

def insertStream (s : ConnectorManager) (id : UInt32) (t : Nat) : ConnectorManager :=
  { s with streams := s.streams.insert id t }

/-- The task moves on to `phase`. -/
def setPhase (s : ConnectorManager) (t : Nat) (phase : Phase) : ConnectorManager :=
  s.setTunnel t { s.tunnels t with phase := phase }

/-- The interleaved steps of the manager, its tunnel tasks and its read loop, up to
`shutdown`. Nothing is assumed about the messages that arrive. -/
inductive Step (chunk : Nat) : ConnectorManager → Event → ConnectorManager → Prop
  | bridge {s s' : ConnectorManager} {target : String} (h : s.tryReserveStreamSlot = some s') :
      Step chunk s .internal (s'.spawnTunnel target)
  | fetchId {s : ConnectorManager} {t : Nat} (ht : t < s.started)
      (hp : (s.tunnels t).phase = .fetchId) :
      Step chunk s .internal (s.fetchStreamId t)
  | idInUse {s : ConnectorManager} {t : Nat} (hp : (s.tunnels t).phase = .checkId)
      (hi : (s.tunnels t).id ∈ s.streams) : Step chunk s .internal (s.setPhase t .fetchId)
  | idFree {s : ConnectorManager} {t : Nat} (hp : (s.tunnels t).phase = .checkId)
      (hi : (s.tunnels t).id ∉ s.streams) :
      Step chunk s .internal (s.setPhase t .insertPending)
  | insertPending {s : ConnectorManager} {t : Nat} (hp : (s.tunnels t).phase = .insertPending) :
      Step chunk s .internal
        ((s.insertPending (s.tunnels t).id t).setPhase t .insertStream)
  | insertStream {s : ConnectorManager} {t : Nat} (hp : (s.tunnels t).phase = .insertStream) :
      Step chunk s .internal ((s.insertStream (s.tunnels t).id t).setPhase t .sendConnect)
  | tunnel {s : ConnectorManager} {t : Nat} {T : Tunnel}
      (h : Tunnel.Step chunk (s.tunnels t) .tau T) : Step chunk s .internal (s.setTunnel t T)
  | tunnelSend {s : ConnectorManager} {t : Nat} {b : Body} {T : Tunnel}
      (h : Tunnel.Step chunk (s.tunnels t) (.send b) T) (hl : s.linkOpen = true) :
      Step chunk s (.output (b.message (s.tunnels t).id)) (s.setTunnel t T)
  | tunnelSendFailed {s : ConnectorManager} {t : Nat} {T : Tunnel}
      (h : Tunnel.Step chunk (s.tunnels t) .sendFailed T) (hl : s.linkOpen = false) :
      Step chunk s .internal (s.setTunnel t T)
  | tunnelRemove {s : ConnectorManager} {t : Nat} {T : Tunnel}
      (h : Tunnel.Step chunk (s.tunnels t) .remove T) :
      Step chunk s .internal ((s.setTunnel t T).removeStream T.id)
  -- `recv` yields None once neither the map nor the read loop holds a sender.
  | tunnelStarved {s : ConnectorManager} {t : Nat} {T : Tunnel}
      (h : Tunnel.Step chunk (s.tunnels t) .starved T)
      (hs : s.streamOf (s.tunnels t).id ≠ some t) (hr : ∀ i p, s.reading ≠ some (i, t, p)) :
      Step chunk s .internal (s.setTunnel t T)
  | release {s : ConnectorManager} {id : UInt32} {t : Nat} (h : (id, t) ∈ s.releasing) :
      Step chunk s .internal (s.freeRemoved id t)
  | failPending {s : ConnectorManager} {id : UInt32} (h : id ∈ s.failing) :
      Step chunk s .internal (s.failPending id)
  | spawnedSend {s : ConnectorManager} {m : Message} (h : m ∈ s.spawned) (hl : s.linkOpen = true) :
      Step chunk s (.output m) { s with spawned := s.spawned.erase m }
  | spawnedFailed {s : ConnectorManager} {m : Message} (h : m ∈ s.spawned)
      (hl : s.linkOpen = false) : Step chunk s .internal { s with spawned := s.spawned.erase m }
  | recv {s : ConnectorManager} {m : Message} (hr : s.reading = none) :
      Step chunk s (.input m) (s.handleMessage m)
  | deliver {s : ConnectorManager} {id : UInt32} {t : Nat} {p : Bytes}
      (hr : s.reading = some (id, t, p)) : Step chunk s .deliver (s.deliver id t p)
  | hangup {s : ConnectorManager} : Step chunk s .hangup { s with linkOpen := false }

section Frame

variable {answer : Answer}

@[simp] theorem setTunnel_tunnels : (s.setTunnel t T).tunnels u = if u = t then T else s.tunnels u :=
  Function.update_apply ..

theorem setTunnel_self : (s.setTunnel t T).tunnels t = T := Function.update_self ..

@[simp] theorem setTunnel_fields : (s.setTunnel t T).streams = s.streams ∧
    (s.setTunnel t T).pending = s.pending ∧ (s.setTunnel t T).started = s.started ∧
    (s.setTunnel t T).nextStreamId = s.nextStreamId ∧
    (s.setTunnel t T).activeStreams = s.activeStreams ∧
    (s.setTunnel t T).linkOpen = s.linkOpen ∧ (s.setTunnel t T).reading = s.reading ∧
    (s.setTunnel t T).releasing = s.releasing ∧ (s.setTunnel t T).failing = s.failing ∧
    (s.setTunnel t T).spawned = s.spawned ∧ (s.setTunnel t T).released = s.released := by
  simp [setTunnel]

@[simp] theorem setTunnel_streamOf : (s.setTunnel t T).streamOf i = s.streamOf i := rfl

@[simp] theorem setTunnel_waiterOf : (s.setTunnel t T).waiterOf i = s.waiterOf i := rfl

theorem lookup_erase_apply (m : Finmap fun _ : UInt32 => Nat) :
    (m.erase i).lookup j = if j = i then none else m.lookup j := by
  split
  · rename_i h
    subst h
    exact Finmap.lookup_erase ..
  · rename_i h
    exact Finmap.lookup_erase_ne h

theorem lookup_insert_apply (m : Finmap fun _ : UInt32 => Nat) :
    (m.insert i t).lookup j = if j = i then some t else m.lookup j := by
  split
  · rename_i h
    subst h
    exact Finmap.lookup_insert ..
  · rename_i h
    exact Finmap.lookup_insert_of_ne m h

@[simp] theorem spawnTunnel_tunnels {target : String} : (s.spawnTunnel target).tunnels u =
    if u = s.started then { target := target } else s.tunnels u :=
  Function.update_apply ..

@[simp] theorem spawnTunnel_fields {target : String} :
    (s.spawnTunnel target).streams = s.streams ∧ (s.spawnTunnel target).pending = s.pending ∧
    (s.spawnTunnel target).started = s.started + 1 ∧
    (s.spawnTunnel target).nextStreamId = s.nextStreamId ∧
    (s.spawnTunnel target).activeStreams = s.activeStreams ∧
    (s.spawnTunnel target).linkOpen = s.linkOpen ∧
    (s.spawnTunnel target).reading = s.reading ∧
    (s.spawnTunnel target).releasing = s.releasing ∧
    (s.spawnTunnel target).failing = s.failing ∧ (s.spawnTunnel target).spawned = s.spawned ∧
    (s.spawnTunnel target).released = s.released := by
  simp [spawnTunnel]

@[simp] theorem spawnTunnel_streamOf {target : String} :
    (s.spawnTunnel target).streamOf i = s.streamOf i := rfl

@[simp] theorem spawnTunnel_waiterOf {target : String} :
    (s.spawnTunnel target).waiterOf i = s.waiterOf i := rfl

theorem tryReserveStreamSlot_eq (h : s.tryReserveStreamSlot = some s') :
    s.activeStreams < maxActiveStreams ∧ { s with activeStreams := s.activeStreams + 1 } = s' := by
  simpa [tryReserveStreamSlot] using h

@[simp] theorem fetchStreamId_tunnels : (s.fetchStreamId t).tunnels u =
    if u = t then { s.tunnels t with phase := .checkId, id := s.nextStreamId }
    else s.tunnels u :=
  Function.update_apply ..

@[simp] theorem fetchStreamId_fields : (s.fetchStreamId t).streams = s.streams ∧
    (s.fetchStreamId t).pending = s.pending ∧ (s.fetchStreamId t).started = s.started ∧
    (s.fetchStreamId t).nextStreamId = s.nextStreamId + 1 ∧
    (s.fetchStreamId t).activeStreams = s.activeStreams ∧
    (s.fetchStreamId t).linkOpen = s.linkOpen ∧ (s.fetchStreamId t).reading = s.reading ∧
    (s.fetchStreamId t).releasing = s.releasing ∧ (s.fetchStreamId t).failing = s.failing ∧
    (s.fetchStreamId t).spawned = s.spawned ∧ (s.fetchStreamId t).released = s.released := by
  simp [fetchStreamId]

@[simp] theorem fetchStreamId_streamOf : (s.fetchStreamId t).streamOf i = s.streamOf i := rfl

@[simp] theorem fetchStreamId_waiterOf : (s.fetchStreamId t).waiterOf i = s.waiterOf i := rfl

@[simp] theorem freeRemoved_fields : (s.freeRemoved i t).tunnels = s.tunnels ∧
    (s.freeRemoved i t).streams = s.streams ∧ (s.freeRemoved i t).pending = s.pending ∧
    (s.freeRemoved i t).started = s.started ∧
    (s.freeRemoved i t).nextStreamId = s.nextStreamId ∧
    (s.freeRemoved i t).activeStreams = s.activeStreams - 1 ∧
    (s.freeRemoved i t).linkOpen = s.linkOpen ∧ (s.freeRemoved i t).reading = s.reading ∧
    (s.freeRemoved i t).releasing = s.releasing.erase (i, t) ∧
    (s.freeRemoved i t).failing = i :: s.failing ∧
    (s.freeRemoved i t).spawned = s.spawned := by
  simp [freeRemoved, releaseStreamSlot]

@[simp] theorem freeRemoved_released : (s.freeRemoved i t).released u =
    if u = t then s.released t + 1 else s.released u :=
  Function.update_apply ..

@[simp] theorem freeRemoved_streamOf : (s.freeRemoved i t).streamOf j = s.streamOf j := rfl

@[simp] theorem freeRemoved_waiterOf : (s.freeRemoved i t).waiterOf j = s.waiterOf j := rfl

@[simp] theorem insertStream_fields : (s.insertStream i t).tunnels = s.tunnels ∧
    (s.insertStream i t).pending = s.pending ∧ (s.insertStream i t).started = s.started ∧
    (s.insertStream i t).nextStreamId = s.nextStreamId ∧
    (s.insertStream i t).activeStreams = s.activeStreams ∧
    (s.insertStream i t).linkOpen = s.linkOpen ∧ (s.insertStream i t).reading = s.reading ∧
    (s.insertStream i t).releasing = s.releasing ∧ (s.insertStream i t).failing = s.failing ∧
    (s.insertStream i t).spawned = s.spawned ∧ (s.insertStream i t).released = s.released := by
  simp [insertStream]

@[simp] theorem insertStream_waiterOf : (s.insertStream i t).waiterOf j = s.waiterOf j := rfl

@[simp] theorem insertStream_streamOf :
    (s.insertStream i t).streamOf j = if j = i then some t else s.streamOf j :=
  lookup_insert_apply s.streams

theorem removeStream_none (h : s.streamOf i = none) : s.removeStream i = s := by
  simp [removeStream, h]

theorem removeStream_some (h : s.streamOf i = some t) : s.removeStream i =
    { s.setTunnel t (s.tunnels t).closeCredit with
      streams := s.streams.erase i, releasing := (i, t) :: s.releasing } := by
  simp [removeStream, h]

@[simp] theorem removeStream_fields : (s.removeStream i).pending = s.pending ∧
    (s.removeStream i).started = s.started ∧
    (s.removeStream i).nextStreamId = s.nextStreamId ∧
    (s.removeStream i).activeStreams = s.activeStreams ∧
    (s.removeStream i).linkOpen = s.linkOpen ∧ (s.removeStream i).reading = s.reading ∧
    (s.removeStream i).failing = s.failing ∧ (s.removeStream i).spawned = s.spawned ∧
    (s.removeStream i).released = s.released := by
  cases h : s.streamOf i with
  | none => simp [removeStream_none h]
  | some t => simp [removeStream_some h]

@[simp] theorem removeStream_waiterOf : (s.removeStream i).waiterOf j = s.waiterOf j := by
  simp [waiterOf]

theorem removeStream_tunnels : (s.removeStream i).tunnels u =
    if s.streamOf i = some u then (s.tunnels u).closeCredit else s.tunnels u := by
  cases h : s.streamOf i with
  | none => simp [removeStream_none h]
  | some t =>
    by_cases hu : u = t
    · subst u
      simp [removeStream_some h]
    · simp [removeStream_some h, hu, Ne.symm hu]

@[simp] theorem removeStream_id :
    ((s.removeStream i).tunnels u).id = (s.tunnels u).id := by
  rw [removeStream_tunnels]
  split <;> rfl

@[simp] theorem removeStream_phase :
    ((s.removeStream i).tunnels u).phase = (s.tunnels u).phase := by
  rw [removeStream_tunnels]
  split <;> rfl

theorem removeStream_streamOf :
    (s.removeStream i).streamOf j = if j = i then none else s.streamOf j := by
  cases h : s.streamOf i with
  | none =>
    rw [removeStream_none h]
    split <;> simp_all
  | some t =>
    rw [removeStream_some h]
    exact lookup_erase_apply s.streams

theorem answerPending_none (h : s.waiterOf i = none) : s.answerPending i answer = s := by
  simp [answerPending, h]

theorem answerPending_some (h : s.waiterOf i = some t) : s.answerPending i answer =
    { s.setTunnel t ((s.tunnels t).answered answer) with pending := s.pending.erase i } := by
  simp [answerPending, h]

@[simp] theorem answerPending_fields : (s.answerPending i answer).streams = s.streams ∧
    (s.answerPending i answer).started = s.started ∧
    (s.answerPending i answer).nextStreamId = s.nextStreamId ∧
    (s.answerPending i answer).activeStreams = s.activeStreams ∧
    (s.answerPending i answer).linkOpen = s.linkOpen ∧
    (s.answerPending i answer).reading = s.reading ∧
    (s.answerPending i answer).releasing = s.releasing ∧
    (s.answerPending i answer).failing = s.failing ∧
    (s.answerPending i answer).spawned = s.spawned ∧
    (s.answerPending i answer).released = s.released := by
  cases h : s.waiterOf i with
  | none => simp [answerPending_none h]
  | some t => simp [answerPending_some h]

@[simp] theorem answerPending_streamOf : (s.answerPending i answer).streamOf j = s.streamOf j := by
  simp [streamOf]

theorem answerPending_tunnels : (s.answerPending i answer).tunnels u =
    if s.waiterOf i = some u then (s.tunnels u).answered answer else s.tunnels u := by
  cases h : s.waiterOf i with
  | none => simp [answerPending_none h]
  | some t =>
    by_cases hu : u = t
    · subst u
      simp [answerPending_some h]
    · simp [answerPending_some h, hu, Ne.symm hu]

@[simp] theorem answerPending_id :
    ((s.answerPending i answer).tunnels u).id = (s.tunnels u).id := by
  rw [answerPending_tunnels]
  split <;> rfl

@[simp] theorem answerPending_phase :
    ((s.answerPending i answer).tunnels u).phase = (s.tunnels u).phase := by
  rw [answerPending_tunnels]
  split <;> rfl

theorem answerPending_waiterOf :
    (s.answerPending i answer).waiterOf j = if j = i then none else s.waiterOf j := by
  cases h : s.waiterOf i with
  | none =>
    rw [answerPending_none h]
    split <;> simp_all
  | some t =>
    rw [answerPending_some h]
    exact lookup_erase_apply s.pending

@[simp] theorem failPending_fields : (s.failPending i).streams = s.streams ∧
    (s.failPending i).started = s.started ∧ (s.failPending i).nextStreamId = s.nextStreamId ∧
    (s.failPending i).activeStreams = s.activeStreams ∧
    (s.failPending i).linkOpen = s.linkOpen ∧ (s.failPending i).reading = s.reading ∧
    (s.failPending i).releasing = s.releasing ∧
    (s.failPending i).failing = s.failing.erase i ∧
    (s.failPending i).spawned = s.spawned ∧ (s.failPending i).released = s.released := by
  simp [failPending]

@[simp] theorem failPending_streamOf : (s.failPending i).streamOf j = s.streamOf j := by
  simp [streamOf]

theorem failPending_tunnels : (s.failPending i).tunnels u =
    if s.waiterOf i = some u then (s.tunnels u).answered (.err "stream closed")
    else s.tunnels u :=
  answerPending_tunnels

@[simp] theorem failPending_id : ((s.failPending i).tunnels u).id = (s.tunnels u).id :=
  answerPending_id

@[simp] theorem failPending_phase : ((s.failPending i).tunnels u).phase = (s.tunnels u).phase :=
  answerPending_phase

theorem failPending_waiterOf :
    (s.failPending i).waiterOf j = if j = i then none else s.waiterOf j :=
  answerPending_waiterOf

@[simp] theorem insertPending_fields : (s.insertPending i t).streams = s.streams ∧
    (s.insertPending i t).started = s.started ∧
    (s.insertPending i t).nextStreamId = s.nextStreamId ∧
    (s.insertPending i t).activeStreams = s.activeStreams ∧
    (s.insertPending i t).linkOpen = s.linkOpen ∧
    (s.insertPending i t).reading = s.reading ∧
    (s.insertPending i t).releasing = s.releasing ∧
    (s.insertPending i t).failing = s.failing ∧ (s.insertPending i t).spawned = s.spawned ∧
    (s.insertPending i t).released = s.released := by
  simp [insertPending]

@[simp] theorem insertPending_streamOf : (s.insertPending i t).streamOf j = s.streamOf j := by
  simp [streamOf]

@[simp] theorem insertPending_id : ((s.insertPending i t).tunnels u).id = (s.tunnels u).id := by
  simp [insertPending]

@[simp] theorem insertPending_phase :
    ((s.insertPending i t).tunnels u).phase = (s.tunnels u).phase := by
  simp [insertPending]

theorem insertPending_tunnels : (s.insertPending i t).tunnels u =
    if s.waiterOf i = some u then (s.tunnels u).answered .cancelled else s.tunnels u :=
  answerPending_tunnels

theorem insertPending_waiterOf :
    (s.insertPending i t).waiterOf j = if j = i then some t else s.waiterOf j := by
  have h := lookup_insert_apply (t := t) (i := i) (j := j) (s.answerPending i .cancelled).pending
  have h' : (s.answerPending i .cancelled).pending.lookup j = _ := answerPending_waiterOf
  by_cases hj : j = i <;> simp_all [insertPending, waiterOf]

@[simp] theorem setPhase_streamOf {ph : Phase} : (s.setPhase t ph).streamOf j = s.streamOf j := rfl

@[simp] theorem setPhase_waiterOf {ph : Phase} : (s.setPhase t ph).waiterOf j = s.waiterOf j := rfl

@[simp] theorem setPhase_tunnels {ph : Phase} : (s.setPhase t ph).tunnels u =
    if u = t then { s.tunnels t with phase := ph } else s.tunnels u :=
  Function.update_apply ..

@[simp] theorem setPhase_fields {ph : Phase} : (s.setPhase t ph).streams = s.streams ∧
    (s.setPhase t ph).pending = s.pending ∧ (s.setPhase t ph).started = s.started ∧
    (s.setPhase t ph).nextStreamId = s.nextStreamId ∧
    (s.setPhase t ph).activeStreams = s.activeStreams ∧
    (s.setPhase t ph).linkOpen = s.linkOpen ∧ (s.setPhase t ph).reading = s.reading ∧
    (s.setPhase t ph).releasing = s.releasing ∧ (s.setPhase t ph).failing = s.failing ∧
    (s.setPhase t ph).spawned = s.spawned ∧ (s.setPhase t ph).released = s.released := by
  simp [setPhase]

theorem handleData_none {p : Bytes} (h : s.streamOf i = none) : s.handleData i p = s := by
  simp [handleData, h]

theorem handleData_exceeded {p : Bytes} (h : s.streamOf i = some t)
    (hw : streamRecvWindow < (s.tunnels t).outstanding + p.length) :
    s.handleData i p =
      { (s.setTunnel t ((s.tunnels t).addOutstanding p.length)).removeStream i with
        spawned := s.spawned ++ [.reset i] } := by
  simp [handleData, h, hw]

theorem handleData_within {p : Bytes} (h : s.streamOf i = some t)
    (hw : (s.tunnels t).outstanding + p.length ≤ streamRecvWindow) :
    s.handleData i p =
      { s.setTunnel t ((s.tunnels t).addOutstanding p.length) with
        reading := some (i, t, p) } := by
  simp [handleData, h, Nat.not_lt.mpr hw]

theorem grantCredit_none {n : Nat} (h : s.streamOf i = none) : s.grantCredit i n = s := by
  simp [grantCredit, h]

theorem grantCredit_some {n : Nat} (h : s.streamOf i = some t) :
    s.grantCredit i n = s.setTunnel t ((s.tunnels t).addCredit n) := by
  simp [grantCredit, h]

/-- What a message from the connector comes to. -/
inductive Handled (s : ConnectorManager) : Message → ConnectorManager → Prop
  | ignored {m : Message} : Handled s m s
  | answered {m : Message} {i : UInt32} {b : Body} {answer : Answer}
      (hm : bodyOf m = some (i, b)) : Handled s m (s.answerPending i answer)
  | removed {m : Message} {i : UInt32} {b : Body} (hm : bodyOf m = some (i, b)) :
      Handled s m (s.removeStream i)
  | granted {i n : UInt32} {t : Nat} (hi : s.streamOf i = some t) :
      Handled s (.windowUpdate i n) (s.setTunnel t ((s.tunnels t).addCredit n.toNat))
  | exceeded {i : UInt32} {t : Nat} {p : Bytes} (hi : s.streamOf i = some t)
      (hw : streamRecvWindow < (s.tunnels t).outstanding + p.length) :
      Handled s (.data i p)
        { (s.setTunnel t ((s.tunnels t).addOutstanding p.length)).removeStream i with
          spawned := s.spawned ++ [.reset i] }
  | within {i : UInt32} {t : Nat} {p : Bytes} (hi : s.streamOf i = some t)
      (hw : (s.tunnels t).outstanding + p.length ≤ streamRecvWindow) :
      Handled s (.data i p)
        { s.setTunnel t ((s.tunnels t).addOutstanding p.length) with reading := some (i, t, p) }

theorem handled (s : ConnectorManager) (m : Message) : Handled s m (s.handleMessage m) := by
  cases m with
  | connect id target => exact .ignored
  | auth token => exact .ignored
  | connectOk id => exact .answered rfl
  | connectErr id error => exact .answered rfl
  | close id => exact .removed rfl
  | reset id => exact .removed rfl
  | windowUpdate id bytes =>
    change Handled s _ (s.grantCredit id bytes.toNat)
    cases hi : s.streamOf id with
    | none =>
      rw [grantCredit_none hi]
      exact .ignored
    | some t =>
      rw [grantCredit_some hi]
      exact .granted hi
  | data id payload =>
    change Handled s _ (s.handleData id payload)
    cases hi : s.streamOf id with
    | none =>
      rw [handleData_none hi]
      exact .ignored
    | some t =>
      rcases lt_or_ge streamRecvWindow ((s.tunnels t).outstanding + payload.length) with hw | hw
      · rw [handleData_exceeded hi hw]
        exact .exceeded hi hw
      · rw [handleData_within hi hw]
        exact .within hi hw

theorem deliver_ended {p : Bytes} (h : (s.tunnels t).phase = .ended) :
    s.deliver i t p = ({ s with reading := none } : ConnectorManager).removeStream i := by
  simp [deliver, h]

theorem deliver_live {p : Bytes} (h : (s.tunnels t).phase ≠ .ended) :
    s.deliver i t p =
      { s.setTunnel t ((s.tunnels t).enqueue p) with reading := none } := by
  simp [deliver, h, setTunnel]

end Frame

/-- A fresh manager and everything it can do. -/
def lts (chunk : Nat) : LTS ConnectorManager Event where
  Init s := s = {}
  Tr := Step chunk

end ConnectorManager

end X2rp.Wss
