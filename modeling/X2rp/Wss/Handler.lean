import X2rp.Wss.Pump

/-! The connector's backend task, `stream_handler`, one await at a time. -/
namespace X2rp.Wss

open Proto

inductive HandlerPc
  | connecting
  | sendErr (error : String)
  | sendOk
  | splice
  /-- The function has returned; the runtime has not recorded it yet. -/
  | returned
  | finished
deriving DecidableEq, Repr

/-- One backend stream. `download` reads the backend and `upload` writes to it; its queue is
`request_rx`. `requestOpen` says that the sender half of that queue is still held, and
`aborted` that the task's abort has been requested. -/
structure Handler where
  target : String
  pc : HandlerPc := .connecting
  requestOpen : Bool := true
  aborted : Bool := false
  download : Sender := {}
  upload : Drain := {}
deriving DecidableEq, Repr

namespace Handler

variable {H H' : Handler} {a : Act} {chunk : Nat}

/-- The function has not returned, so it still owns its queue and its backend socket. -/
def running (H : Handler) : Bool := H.pc != .returned && H.pc != .finished

/-- What the mux loop does to the cells it shares with a handler. Dropping a `StreamState`
aborts the task and drops the sender of its queue. -/
def abort (H : Handler) : Handler := { H with aborted := true, requestOpen := false }

def closeRequest (H : Handler) : Handler := { H with requestOpen := false }

def addCredit (H : Handler) (bytes : Nat) : Handler :=
  { H with download := { H.download with credit := H.download.credit.add bytes } }

def enqueue (H : Handler) (payload : Bytes) : Handler :=
  { H with upload := { H.upload with queue := H.upload.queue ++ [payload] } }

@[simp] theorem abort_fields : H.abort.pc = H.pc ∧ H.abort.requestOpen = false ∧
    H.abort.aborted = true ∧ H.abort.download = H.download ∧ H.abort.upload = H.upload := by
  simp [abort]

@[simp] theorem closeRequest_fields : H.closeRequest.pc = H.pc ∧
    H.closeRequest.requestOpen = false ∧ H.closeRequest.aborted = H.aborted ∧
    H.closeRequest.download = H.download ∧ H.closeRequest.upload = H.upload := by
  simp [closeRequest]

@[simp] theorem addCredit_fields {n : Nat} : (H.addCredit n).pc = H.pc ∧
    (H.addCredit n).requestOpen = H.requestOpen ∧ (H.addCredit n).aborted = H.aborted ∧
    (H.addCredit n).upload = H.upload ∧ (H.addCredit n).download.pc = H.download.pc ∧
    (H.addCredit n).download.source = H.download.source ∧
    (H.addCredit n).download.sent = H.download.sent ∧
    (H.addCredit n).download.ending = H.download.ending ∧
    (H.addCredit n).download.closeSent = H.download.closeSent := by
  simp [addCredit]

@[simp] theorem enqueue_fields {p : Bytes} : (H.enqueue p).pc = H.pc ∧
    (H.enqueue p).requestOpen = H.requestOpen ∧ (H.enqueue p).aborted = H.aborted ∧
    (H.enqueue p).download = H.download ∧ (H.enqueue p).upload.queue = H.upload.queue ++ [p] ∧
    (H.enqueue p).upload.pc = H.upload.pc ∧ (H.enqueue p).upload.sink = H.upload.sink ∧
    (H.enqueue p).upload.failed = H.upload.failed ∧
    (H.enqueue p).upload.drained = H.upload.drained := by
  simp [enqueue]

/-- An aborted task may run on until its current poll ends, so abort only adds `reap`. -/
inductive Step (chunk : Nat) : Handler → Act → Handler → Prop
  | ignoreData {H : Handler} {p : Bytes} {q : List Bytes} (hp : H.pc = .connecting)
      (hq : H.upload.queue = p :: q) :
      Step chunk H .tau { H with upload := { H.upload with queue := q } }
  | abandoned {H : Handler} (hp : H.pc = .connecting) (hq : H.upload.queue = [])
      (ho : H.requestOpen = false) :
      Step chunk H .tau { H with pc := .sendErr "stream abandoned" }
  -- The select is biased: the backend's answer counts only while the queue has nothing to say.
  | backendUp {H : Handler} (hp : H.pc = .connecting) (hq : H.upload.queue = [])
      (ho : H.requestOpen = true) : Step chunk H .tau { H with pc := .sendOk }
  | backendDown {H : Handler} {error : String} (hp : H.pc = .connecting)
      (hq : H.upload.queue = []) (ho : H.requestOpen = true) :
      Step chunk H .tau { H with pc := .sendErr error }
  | errSent {H : Handler} {error : String} (hp : H.pc = .sendErr error) :
      Step chunk H (.send (.connectErr error)) { H with pc := .returned }
  | errFailed {H : Handler} {error : String} (hp : H.pc = .sendErr error) :
      Step chunk H .sendFailed { H with pc := .returned }
  | okSent {H : Handler} (hp : H.pc = .sendOk) :
      Step chunk H (.send .connectOk) { H with pc := .splice }
  | okFailed {H : Handler} (hp : H.pc = .sendOk) :
      Step chunk H .sendFailed { H with pc := .returned }
  -- The response ends the stream: the handler returns with its download loop.
  | download {H : Handler} {a : Act} {S : Sender} (hp : H.pc = .splice)
      (h : Sender.Step chunk H.download a S) :
      Step chunk H a
        { H with download := S, pc := if S.pc = .done then .returned else .splice }
  | readEnd {H : Handler} {e : Ending} (hp : H.pc = .splice) (hd : H.download.pc = .read) :
      Step chunk H .tau
        { H with download := { H.download with pc := .sendClose, ending := some e } }
  | upload {H : Handler} {D : Drain} (hp : H.pc = .splice)
      (h : Drain.Step H.upload .tau D) : Step chunk H .tau { H with upload := D }
  | uploadDrained {H : Handler} {n : Nat} {D : Drain} (hp : H.pc = .splice)
      (h : Drain.Step H.upload (.drained n) D) : Step chunk H .tau { H with upload := D }
  | uploadStarved {H : Handler} {D : Drain} (hp : H.pc = .splice)
      (h : Drain.Step H.upload .starved D) (ho : H.requestOpen = false) :
      Step chunk H .tau { H with upload := D }
  | uploadSend {H : Handler} {b : Body} {D : Drain} (hp : H.pc = .splice)
      (h : Drain.Step H.upload (.send b) D) : Step chunk H (.send b) { H with upload := D }
  | uploadSendFailed {H : Handler} {D : Drain} (hp : H.pc = .splice)
      (h : Drain.Step H.upload .sendFailed D) : Step chunk H .sendFailed { H with upload := D }
  -- Request EOF: half-close so the backend can finish its response.
  | uploadShutdown {H : Handler} (hp : H.pc = .splice) (hu : H.upload.pc = .shutdown) :
      Step chunk H .tau { H with upload := { H.upload with pc := .done } }
  | finish {H : Handler} (hp : H.pc = .returned) : Step chunk H .tau { H with pc := .finished }
  | reap {H : Handler} (ha : H.aborted = true) : Step chunk H .tau { H with pc := .finished }

end Handler

end X2rp.Wss
