import Mathlib.Data.Finset.Card
import Mathlib.Logic.Function.Basic
import X2rp.Wss.ConnectorManager
import X2rp.Wss.Handler

/-! The connector side of one WSS session: `SessionManager` with its stream handlers. -/
namespace X2rp.Wss

open Proto

/-- The mux loop's map and the tasks it has spawned. `streams` holds the keys of the map;
`tasks` every handler ever spawned under an id, newest first, so that an entry's task is the
first one. `refusals` are the spawned sends of `connector overloaded`. -/
structure SessionManager where
  streams : Finset UInt32 := ∅
  tasks : UInt32 → List Handler := fun _ => []
  refusals : List UInt32 := []

namespace SessionManager

variable {c c' : SessionManager} {chunk : Nat} {e : Event} {i j : UInt32} {H H' : Handler}
  {m : Message}

def setTasks (c : SessionManager) (id : UInt32) (hs : List Handler) : SessionManager :=
  { c with tasks := Function.update c.tasks id hs }

@[simp] theorem setTasks_fields {hs : List Handler} : (c.setTasks i hs).streams = c.streams ∧
    (c.setTasks i hs).refusals = c.refusals := ⟨rfl, rfl⟩

@[simp] theorem setTasks_tasks {hs : List Handler} :
    (c.setTasks i hs).tasks j = if j = i then hs else c.tasks j :=
  Function.update_apply ..

theorem setTasks_self {hs : List Handler} : (c.setTasks i hs).tasks i = hs := Function.update_self ..

/-- Change the task of the entry `id`. -/
def modify (c : SessionManager) (id : UInt32) (f : Handler → Handler) : SessionManager :=
  c.setTasks id ((c.tasks id).modifyHead f)

@[simp] theorem modify_fields {f : Handler → Handler} : (c.modify i f).streams = c.streams ∧
    (c.modify i f).refusals = c.refusals := ⟨rfl, rfl⟩

@[simp] theorem modify_tasks {f : Handler → Handler} : (c.modify i f).tasks j =
    if j = i then (c.tasks i).modifyHead f else c.tasks j :=
  Function.update_apply ..

/-- `task.is_finished()` of the entry `id`. -/
def taskFinished (c : SessionManager) (id : UInt32) : Bool :=
  ((c.tasks id).head?.map fun H => H.pc == .finished).getD true

/-- `streams.remove(&stream_id)`: the dropped `StreamState` aborts its task. -/
def remove (c : SessionManager) (id : UInt32) : SessionManager :=
  if id ∈ c.streams then { c.modify id Handler.abort with streams := c.streams.erase id } else c

@[simp] theorem remove_refusals : (c.remove i).refusals = c.refusals := by
  unfold remove
  split <;> rfl

theorem remove_streams : (c.remove i).streams = c.streams.erase i := by
  unfold remove
  split
  · rfl
  · exact (Finset.erase_eq_of_notMem ‹_›).symm

theorem remove_tasks : (c.remove i).tasks j =
    if j = i ∧ i ∈ c.streams then (c.tasks i).modifyHead Handler.abort else c.tasks j := by
  by_cases hi : i ∈ c.streams
  · by_cases hj : j = i <;> simp [remove, hi, hj]
  · simp [remove, hi]

/-- Finished handlers free their slot: `streams.retain(|_, state| !state.task.is_finished())`. -/
def retainUnfinished (c : SessionManager) : SessionManager :=
  { c with streams := c.streams.filter fun id => !c.taskFinished id }

def handleConnect (c : SessionManager) (id : UInt32) (target : String) : SessionManager :=
  let c := (c.retainUnfinished).remove id
  if maxActiveStreams ≤ c.streams.card then { c with refusals := c.refusals ++ [id] }
  else
    { c.setTasks id ({ target := target } :: c.tasks id) with streams := insert id c.streams }

/-- No entry and a closed request side count as delivered; a queue whose handler has returned
does not, and its entry goes. -/
def handleData (c : SessionManager) (id : UInt32) (payload : Bytes) : SessionManager :=
  if id ∈ c.streams then
    match (c.tasks id).head? with
    | none => c
    | some H =>
      if H.requestOpen then
        if H.running then c.modify id (·.enqueue payload) else c.remove id
      else c
  else c

def handleMessage (c : SessionManager) : Message → SessionManager
  | .connect id target => c.handleConnect id target
  | .data id payload => c.handleData id payload
  | .close id => if id ∈ c.streams then c.modify id Handler.closeRequest else c
  | .reset id => c.remove id
  | .windowUpdate id bytes => if id ∈ c.streams then c.modify id (·.addCredit bytes.toNat) else c
  | .connectOk .. | .connectErr .. | .auth .. => c

/-- The interleaved steps of the connector's handlers and of its mux loop's `handle_message`,
as long as the session runs. -/
inductive Step (chunk : Nat) : SessionManager → Event → SessionManager → Prop
  | handler {c : SessionManager} {id : UInt32} {newer older : List Handler} {H H' : Handler}
      (ht : c.tasks id = newer ++ H :: older) (h : Handler.Step chunk H .tau H') :
      Step chunk c .internal (c.setTasks id (newer ++ H' :: older))
  | handlerSend {c : SessionManager} {id : UInt32} {newer older : List Handler}
      {H H' : Handler} {b : Body} (ht : c.tasks id = newer ++ H :: older)
      (h : Handler.Step chunk H (.send b) H') :
      Step chunk c (.output (b.message id)) (c.setTasks id (newer ++ H' :: older))
  | refuse {c : SessionManager} {id : UInt32} (h : id ∈ c.refusals) :
      Step chunk c (.output (.connectErr id "connector overloaded"))
        { c with refusals := c.refusals.erase id }
  | recv {c : SessionManager} {m : Message} : Step chunk c (.input m) (c.handleMessage m)

end SessionManager

end X2rp.Wss
