import X2rp.Wss.Pump

/-! The server's tunnel task, `ConnectorManager::wss_tunnel`, one await at a time. -/
namespace X2rp.Wss

open Proto

/-- What `response_rx` yields; `cancelled` is a sender dropped without an answer. -/
inductive Answer
  | ok
  | err (reason : String)
  | cancelled
deriving DecidableEq, Repr

inductive Phase
  | fetchId
  | checkId
  | insertPending
  | insertStream
  | sendConnect
  /-- The Connect was not sent: remove the stream and return. -/
  | unsent
  | awaitConnect
  /-- The connect failed: remove the stream, then send Reset. -/
  | giveUp
  | sendReset
  | splice
  /-- The download has ended: remove the stream and return. -/
  | finish
  | ended
deriving DecidableEq, Repr

/-- Not yet in the stream map: the tunnel holds a slot and nothing else. -/
def Phase.early : Phase → Bool
  | .fetchId | .checkId | .insertPending | .insertStream => true
  | _ => false

/-- One bridged connection. `upload` reads the client and `download` writes to it;
`outstanding` is `recv_outstanding`. -/
structure Tunnel where
  target : String
  id : UInt32 := 0
  phase : Phase := .fetchId
  answer : Option Answer := none
  upload : Sender := {}
  download : Drain := {}
  outstanding : Nat := 0
deriving DecidableEq, Repr

namespace Tunnel

variable {T T' : Tunnel} {a : Act} {chunk : Nat}

/-- What the manager does to the cells it shares with a tunnel. -/
def closeCredit (T : Tunnel) : Tunnel :=
  { T with upload := { T.upload with credit := T.upload.credit.close } }

def addCredit (T : Tunnel) (bytes : Nat) : Tunnel :=
  { T with upload := { T.upload with credit := T.upload.credit.add bytes } }

def answered (T : Tunnel) (answer : Answer) : Tunnel := { T with answer := some answer }

/-- `recv_outstanding.fetch_add(len)`. -/
def addOutstanding (T : Tunnel) (len : Nat) : Tunnel :=
  { T with outstanding := T.outstanding + len }

def enqueue (T : Tunnel) (payload : Bytes) : Tunnel :=
  { T with download := { T.download with queue := T.download.queue ++ [payload] } }

@[simp] theorem closeCredit_fields : T.closeCredit.target = T.target ∧ T.closeCredit.id = T.id ∧
    T.closeCredit.phase = T.phase ∧ T.closeCredit.answer = T.answer ∧
    T.closeCredit.download = T.download ∧ T.closeCredit.outstanding = T.outstanding := by
  simp [closeCredit]

@[simp] theorem addCredit_fields {n : Nat} : (T.addCredit n).target = T.target ∧
    (T.addCredit n).id = T.id ∧ (T.addCredit n).phase = T.phase ∧
    (T.addCredit n).answer = T.answer ∧ (T.addCredit n).download = T.download ∧
    (T.addCredit n).outstanding = T.outstanding := by
  simp [addCredit]

@[simp] theorem answered_fields {r : Answer} : (T.answered r).target = T.target ∧
    (T.answered r).id = T.id ∧ (T.answered r).phase = T.phase ∧
    (T.answered r).answer = some r ∧ (T.answered r).upload = T.upload ∧
    (T.answered r).download = T.download ∧ (T.answered r).outstanding = T.outstanding := by
  simp [answered]

@[simp] theorem addOutstanding_fields {n : Nat} : (T.addOutstanding n).target = T.target ∧
    (T.addOutstanding n).id = T.id ∧ (T.addOutstanding n).phase = T.phase ∧
    (T.addOutstanding n).answer = T.answer ∧ (T.addOutstanding n).upload = T.upload ∧
    (T.addOutstanding n).download = T.download ∧
    (T.addOutstanding n).outstanding = T.outstanding + n := by
  simp [addOutstanding]

@[simp] theorem enqueue_fields {p : Bytes} : (T.enqueue p).target = T.target ∧
    (T.enqueue p).id = T.id ∧ (T.enqueue p).phase = T.phase ∧
    (T.enqueue p).answer = T.answer ∧ (T.enqueue p).upload = T.upload ∧
    (T.enqueue p).outstanding = T.outstanding := by
  simp [enqueue]

/-- The steps of a tunnel that touch no map of its manager. The two loops of the splice
run side by side until the download ends. -/
inductive Step (chunk : Nat) : Tunnel → Act → Tunnel → Prop
  | connectSent {T : Tunnel} (hp : T.phase = .sendConnect) :
      Step chunk T (.send (.connect T.target)) { T with phase := .awaitConnect }
  | connectUnsent {T : Tunnel} (hp : T.phase = .sendConnect) :
      Step chunk T .tau { T with phase := .unsent }
  | removeUnsent {T : Tunnel} (hp : T.phase = .unsent) :
      Step chunk T .remove { T with phase := .ended }
  | connected {T : Tunnel} (hp : T.phase = .awaitConnect) (ha : T.answer = some .ok) :
      Step chunk T .tau { T with phase := .splice }
  | refused {T : Tunnel} {r : Answer} (hp : T.phase = .awaitConnect) (ha : T.answer = some r)
      (hr : r ≠ .ok) : Step chunk T .tau { T with phase := .giveUp }
  | timedOut {T : Tunnel} (hp : T.phase = .awaitConnect) (ha : T.answer = none) :
      Step chunk T .tau { T with phase := .giveUp }
  | removeRefused {T : Tunnel} (hp : T.phase = .giveUp) :
      Step chunk T .remove { T with phase := .sendReset }
  | resetSent {T : Tunnel} (hp : T.phase = .sendReset) :
      Step chunk T (.send .reset) { T with phase := .ended }
  | resetFailed {T : Tunnel} (hp : T.phase = .sendReset) :
      Step chunk T .sendFailed { T with phase := .ended }
  | upload {T : Tunnel} {a : Act} {S : Sender} (hp : T.phase = .splice)
      (h : Sender.Step chunk T.upload a S) : Step chunk T a { T with upload := S }
  -- Request EOF: the connector half-closes the backend and still streams the response.
  | readEof {T : Tunnel} (hp : T.phase = .splice) (hu : T.upload.pc = .read) :
      Step chunk T .tau
        { T with upload := { T.upload with pc := .sendClose, ending := some .eof } }
  -- Client error: full abort, not request EOF.
  | readErr {T : Tunnel} (hp : T.phase = .splice) (hu : T.upload.pc = .read) :
      Step chunk T .tau
        { T with upload := { T.upload with pc := .sendReset, ending := some .error } }
  | uploadReset {T : Tunnel} (hp : T.phase = .splice) (hu : T.upload.pc = .sendReset) :
      Step chunk T (.send .reset) { T with upload := { T.upload with pc := .remove } }
  | uploadResetFailed {T : Tunnel} (hp : T.phase = .splice) (hu : T.upload.pc = .sendReset) :
      Step chunk T .sendFailed { T with upload := { T.upload with pc := .remove } }
  | uploadRemove {T : Tunnel} (hp : T.phase = .splice) (hu : T.upload.pc = .remove) :
      Step chunk T .remove { T with upload := { T.upload with pc := .done } }
  | download {T : Tunnel} {a : Act} {D : Drain} (hp : T.phase = .splice)
      (h : Drain.Step T.download a D) (ha : ∀ n, a ≠ .drained n) :
      Step chunk T a { T with download := D }
  | downloadDrained {T : Tunnel} {n : Nat} {D : Drain} (hp : T.phase = .splice)
      (h : Drain.Step T.download (.drained n) D) :
      Step chunk T .tau { T with download := D, outstanding := T.outstanding - n }
  | shutdownClean {T : Tunnel} (hp : T.phase = .splice) (hd : T.download.pc = .shutdown)
      (hf : T.download.failed = none) :
      Step chunk T .tau
        { T with phase := .finish, download := { T.download with pc := .done } }
  | shutdownFailed {T : Tunnel} (hp : T.phase = .splice) (hd : T.download.pc = .shutdown)
      (hf : T.download.failed ≠ none) :
      Step chunk T .tau { T with download := { T.download with pc := .sendReset } }
  | downloadReset {T : Tunnel} (hp : T.phase = .splice) (hd : T.download.pc = .sendReset) :
      Step chunk T (.send .reset)
        { T with phase := .finish, download := { T.download with pc := .done } }
  | downloadResetFailed {T : Tunnel} (hp : T.phase = .splice)
      (hd : T.download.pc = .sendReset) :
      Step chunk T .sendFailed
        { T with phase := .finish, download := { T.download with pc := .done } }
  | removeFinished {T : Tunnel} (hp : T.phase = .finish) :
      Step chunk T .remove { T with phase := .ended }

/-- Registration is the manager's business: no tunnel step enters or leaves it. -/
theorem step_not_early (h : Step chunk T a T') : T.phase.early = false ∧ T'.phase.early = false := by
  cases h <;> simp_all [Phase.early]

@[simp] theorem step_id (h : Step chunk T a T') : T'.id = T.id := by
  cases h <;> rfl

/-- A tunnel's own removal precedes its Reset and its end. -/
theorem step_removed (h : Step chunk T a T') (ha : a ≠ .remove)
    (hp : T'.phase = .sendReset ∨ T'.phase = .ended) : T.phase = .sendReset := by
  cases h <;> simp_all

theorem step_ended (h : Step chunk T a T') : T.phase ≠ .ended := by
  cases h <;> simp_all

end Tunnel

end X2rp.Wss
