import X2rp.Proto.SendCredit

/-! The two loops every tunnel direction is made of: a credit-gated sender that turns
reads into `Data`, and a drain that writes received payloads and grants them back. -/
namespace X2rp.Wss

open Proto

/-- A message of one stream, without the stream id it is muxed under. -/
inductive Body
  | connect (target : String)
  | connectOk
  | connectErr (error : String)
  | data (payload : Bytes)
  | close
  | reset
  | windowUpdate (bytes : UInt32)
deriving DecidableEq, Repr

/-- The message that carries a body for stream `id`. -/
def Body.message (id : UInt32) : Body → Message
  | .connect target => .connect id target
  | .connectOk => .connectOk id
  | .connectErr error => .connectErr id error
  | .data payload => .data id payload
  | .close => .close id
  | .reset => .reset id
  | .windowUpdate bytes => .windowUpdate id bytes

/-- The body a message carries and the stream it is for; `Auth` is for none. -/
def bodyOf : Message → Option (UInt32 × Body)
  | .connect id target => some (id, .connect target)
  | .connectOk id => some (id, .connectOk)
  | .connectErr id error => some (id, .connectErr error)
  | .data id payload => some (id, .data payload)
  | .close id => some (id, .close)
  | .reset id => some (id, .reset)
  | .windowUpdate id bytes => some (id, .windowUpdate bytes)
  | .auth _ => none

@[simp] theorem bodyOf_message (id : UInt32) (b : Body) : bodyOf (b.message id) = some (id, b) := by
  cases b <;> rfl

/-- Where a sender loop stands. `acquire` is about to load `closed`, `reserve` to take
the credit, `park` waits for a grant. -/
inductive SenderPc
  | read
  | acquire (payload : Bytes)
  | reserve (payload : Bytes)
  | park (payload : Bytes)
  | sendData (payload : Bytes)
  | sendClose
  | sendReset
  | remove
  | done
deriving DecidableEq, Repr

/-- How a read loop's source ended. -/
inductive Ending
  | eof
  | error
deriving DecidableEq, Repr

/-- A sender loop with the credit it shares with its session. The last four fields are
history: what it has read and sent, how the source ended, whether `Close` went out. -/
structure Sender where
  pc : SenderPc := .read
  credit : SendCredit := SendCredit.new streamRecvWindow
  source : Bytes := []
  sent : Bytes := []
  ending : Option Ending := none
  closeSent : Bool := false
deriving DecidableEq, Repr

/-- Where a drain loop stands. `write` keeps the unwritten rest of a payload of `size`
bytes. -/
inductive DrainPc
  | recv
  | write (rest : Bytes) (size : Nat)
  | grant (bytes : Nat)
  | shutdown
  | sendReset
  | done
deriving DecidableEq, Repr

/-- A drain loop with its queue. `sink` is what it has written; `failed` keeps the rest and
the size of the payload whose write failed. -/
structure Drain where
  pc : DrainPc := .recv
  queue : List Bytes := []
  drained : Nat := 0
  sink : Bytes := []
  failed : Option (Bytes × Nat) := none
deriving DecidableEq, Repr

/-- What a loop's step asks of its surroundings. -/
inductive Act
  | tau
  /-- Push a message onto the session's outbound channel. -/
  | send (b : Body)
  /-- The outbound channel is gone. -/
  | sendFailed
  /-- A payload of this size has been written downstream. -/
  | drained (size : Nat)
  /-- Call `remove_stream` on the own stream. -/
  | remove
  /-- Every sender of the own queue is gone and the queue is empty. -/
  | starved
deriving DecidableEq, Repr

/-- The part of the sender loop both ends share: `read_buf`, `acquire`, `send`. -/
inductive Sender.Step (chunk : Nat) : Sender → Act → Sender → Prop
  | readData {S : Sender} {p : Bytes} (hp : S.pc = .read) (h0 : p ≠ []) (hc : p.length ≤ chunk) :
      Step chunk S .tau { S with pc := .acquire p, source := S.source ++ p }
  | acquireClosed {S : Sender} {p : Bytes} (hp : S.pc = .acquire p) (hc : S.credit.closed = true) :
      Step chunk S .tau { S with pc := .done }
  | acquireOpen {S : Sender} {p : Bytes} (hp : S.pc = .acquire p) (hc : S.credit.closed = false) :
      Step chunk S .tau { S with pc := .reserve p }
  | reserve {S : Sender} {p : Bytes} {c : SendCredit} (hp : S.pc = .reserve p)
      (hr : S.credit.tryReserve p.length = some c) :
      Step chunk S .tau { S with pc := .sendData p, credit := c }
  | reserveShort {S : Sender} {p : Bytes} (hp : S.pc = .reserve p)
      (hr : S.credit.tryReserve p.length = none) :
      Step chunk S .tau { S with pc := .park p }
  | wake {S : Sender} {p : Bytes} (hp : S.pc = .park p)
      (hw : S.credit.closed = true ∨ (p.length : Int) ≤ S.credit.credit) :
      Step chunk S .tau { S with pc := .acquire p }
  | sendData {S : Sender} {p : Bytes} (hp : S.pc = .sendData p) :
      Step chunk S (.send (.data p)) { S with pc := .read, sent := S.sent ++ p }
  | sendDataFailed {S : Sender} {p : Bytes} (hp : S.pc = .sendData p) :
      Step chunk S .sendFailed { S with pc := .done }
  | sendClose {S : Sender} (hp : S.pc = .sendClose) :
      Step chunk S (.send .close) { S with pc := .done, closeSent := true }
  | sendCloseFailed {S : Sender} (hp : S.pc = .sendClose) :
      Step chunk S .sendFailed { S with pc := .done }

/-- The part of the drain loop both ends share: `recv`, `write_all`, grant. -/
inductive Drain.Step : Drain → Act → Drain → Prop
  | recv {D : Drain} {p : Bytes} {q : List Bytes} (hp : D.pc = .recv) (hq : D.queue = p :: q) :
      Step D .tau { D with pc := .write p p.length, queue := q }
  | recvNone {D : Drain} (hp : D.pc = .recv) (hq : D.queue = []) :
      Step D .starved { D with pc := .shutdown }
  | writeSome {D : Drain} {rest : Bytes} {size k : Nat} (hp : D.pc = .write rest size)
      (h0 : 0 < k) (hk : k ≤ rest.length) :
      Step D .tau { D with pc := .write (rest.drop k) size, sink := D.sink ++ rest.take k }
  | writeFailed {D : Drain} {rest : Bytes} {size : Nat} (hp : D.pc = .write rest size) :
      Step D .tau { D with pc := .shutdown, failed := some (rest, size) }
  | writtenBelow {D : Drain} {size : Nat} (hp : D.pc = .write [] size)
      (ht : D.drained + size < windowUpdateThreshold) :
      Step D (.drained size) { D with pc := .recv, drained := D.drained + size }
  | writtenGrant {D : Drain} {size : Nat} (hp : D.pc = .write [] size)
      (ht : windowUpdateThreshold ≤ D.drained + size) :
      Step D (.drained size) { D with pc := .grant (D.drained + size), drained := 0 }
  | sendGrant {D : Drain} {n : Nat} (hp : D.pc = .grant n) :
      Step D (.send (.windowUpdate (UInt32.ofNat n))) { D with pc := .recv }
  | sendGrantFailed {D : Drain} {n : Nat} (hp : D.pc = .grant n) :
      Step D .sendFailed { D with pc := .shutdown }

end X2rp.Wss
