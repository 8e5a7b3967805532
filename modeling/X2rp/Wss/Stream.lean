import X2rp.Lts
import X2rp.Wss.Handler
import X2rp.Wss.Tunnel

/-! One stream of the mux on its own: what the two ends keep under one stream id, and the
messages of that id on their way. -/
namespace X2rp.Wss

open Proto

/-- How a step of one end shows on the stream's two channels. -/
abbrev Port := LTS.Port Body

/-- How a body reads at the other end: only an over-long connect error is cut. -/
def Body.truncated : Body → Body
  | .connectErr error => .connectErr (truncateStr error maxConnectErrLen)
  | b => b

/-- What the server keeps for one stream: the tunnel, whether its id maps to it in `streams`
and in `pending`, the payload the read loop has counted for it, how many calls of
`remove_stream` have yet to fail its pending connect, and how many spawned Resets are due. -/
structure ServerEnd where
  tunnel : Tunnel
  registered : Bool := true
  waiting : Bool := true
  hand : Option Bytes := none
  removing : Nat := 0
  resets : Nat := 0
deriving DecidableEq

namespace ServerEnd

def remove (S : ServerEnd) : ServerEnd :=
  if S.registered then
    { S with registered := false, tunnel := S.tunnel.closeCredit, removing := S.removing + 1 }
  else S

def answer (S : ServerEnd) (r : Answer) : ServerEnd :=
  if S.waiting then { S with waiting := false, tunnel := S.tunnel.answered r } else S

def handleData (S : ServerEnd) (payload : Bytes) : ServerEnd :=
  if S.registered then
    let S' := { S with tunnel := S.tunnel.addOutstanding payload.length }
    if streamRecvWindow < S.tunnel.outstanding + payload.length then
      { S'.remove with resets := S.resets + 1 }
    else { S' with hand := some payload }
  else S

def handle (S : ServerEnd) : Body → ServerEnd
  | .connectOk => S.answer .ok
  | .connectErr error => S.answer (.err error)
  | .data payload => S.handleData payload
  | .windowUpdate bytes =>
    if S.registered then { S with tunnel := S.tunnel.addCredit bytes.toNat } else S
  | .close | .reset => S.remove
  | .connect _ => S

def deliver (S : ServerEnd) (payload : Bytes) : ServerEnd :=
  if S.tunnel.phase = .ended then ({ S with hand := none } : ServerEnd).remove
  else { S with hand := none, tunnel := S.tunnel.enqueue payload }

inductive Step (chunk : Nat) : ServerEnd → Port → ServerEnd → Prop
  | tunnel {S : ServerEnd} {T : Tunnel} (h : Tunnel.Step chunk S.tunnel .tau T) :
      Step chunk S .internal { S with tunnel := T }
  | tunnelSend {S : ServerEnd} {T : Tunnel} {b : Body}
      (h : Tunnel.Step chunk S.tunnel (.send b) T) : Step chunk S (.output b) { S with tunnel := T }
  | tunnelRemove {S : ServerEnd} {T : Tunnel} (h : Tunnel.Step chunk S.tunnel .remove T) :
      Step chunk S .internal ({ S with tunnel := T } : ServerEnd).remove
  | tunnelStarved {S : ServerEnd} {T : Tunnel} (h : Tunnel.Step chunk S.tunnel .starved T)
      (hs : S.registered = false) (hh : S.hand = none) :
      Step chunk S .internal { S with tunnel := T }
  | failPending {S : ServerEnd} {n : Nat} (h : S.removing = n + 1) :
      Step chunk S .internal
        (({ S with removing := n } : ServerEnd).answer (.err "stream closed"))
  | spawnedReset {S : ServerEnd} {n : Nat} (h : S.resets = n + 1) :
      Step chunk S (.output .reset) { S with resets := n }
  | recv {S : ServerEnd} {b : Body} (hh : S.hand = none) : Step chunk S (.input b) (S.handle b)
  | deliver {S : ServerEnd} {p : Bytes} (hh : S.hand = some p) :
      Step chunk S .internal (S.deliver p)

variable {S S' : ServerEnd} {chunk : Nat} {q : Port}

@[simp] theorem remove_id : S.remove.tunnel.id = S.tunnel.id := by
  unfold remove
  split <;> simp

@[simp] theorem remove_phase : S.remove.tunnel.phase = S.tunnel.phase := by
  unfold remove
  split <;> simp

@[simp] theorem answer_id {r : Answer} : (S.answer r).tunnel.id = S.tunnel.id := by
  unfold answer
  split <;> simp

@[simp] theorem answer_phase {r : Answer} : (S.answer r).tunnel.phase = S.tunnel.phase := by
  unfold answer
  split <;> simp

/-- What a message for the stream comes to. -/
inductive Handled (S : ServerEnd) : Body → ServerEnd → Prop
  | connect {target : String} : Handled S (.connect target) S
  | accepted : Handled S .connectOk (S.answer .ok)
  | refused {error : String} : Handled S (.connectErr error) (S.answer (.err error))
  | told {b : Body} (hb : b = .close ∨ b = .reset) : Handled S b S.remove
  | stray {n : UInt32} (hr : S.registered = false) : Handled S (.windowUpdate n) S
  | granted {n : UInt32} (hr : S.registered = true) :
      Handled S (.windowUpdate n) { S with tunnel := S.tunnel.addCredit n.toNat }
  | late {p : Bytes} (hr : S.registered = false) : Handled S (.data p) S
  | exceeded {p : Bytes} (hr : S.registered = true)
      (hw : streamRecvWindow < S.tunnel.outstanding + p.length) :
      Handled S (.data p)
        { ({ S with tunnel := S.tunnel.addOutstanding p.length } : ServerEnd).remove with
          resets := S.resets + 1 }
  | within {p : Bytes} (hr : S.registered = true)
      (hw : S.tunnel.outstanding + p.length ≤ streamRecvWindow) :
      Handled S (.data p)
        { S with tunnel := S.tunnel.addOutstanding p.length, hand := some p }

theorem handled (S : ServerEnd) (b : Body) : Handled S b (S.handle b) := by
  cases b with
  | connect target => exact .connect
  | connectOk => exact .accepted
  | connectErr error => exact .refused
  | close => exact .told (.inl rfl)
  | reset => exact .told (.inr rfl)
  | windowUpdate n =>
    cases hr : S.registered with
    | false => simpa [handle, hr] using Handled.stray hr
    | true => simpa [handle, hr] using Handled.granted (n := n) hr
  | data p =>
    cases hr : S.registered with
    | false => simpa [handle, handleData, hr] using Handled.late hr
    | true =>
      rcases lt_or_ge streamRecvWindow (S.tunnel.outstanding + p.length) with hw | hw
      · simpa [handle, handleData, hr, hw] using Handled.exceeded hr hw
      · simpa [handle, handleData, hr, Nat.not_lt.mpr hw] using Handled.within hr hw

theorem Handled.id_phase {b : Body} (h : Handled S b S') :
    S'.tunnel.id = S.tunnel.id ∧ S'.tunnel.phase = S.tunnel.phase := by
  cases h <;> simp

theorem deliver_id_phase {p : Bytes} : (S.deliver p).tunnel.id = S.tunnel.id ∧
    (S.deliver p).tunnel.phase = S.tunnel.phase := by
  unfold deliver
  split <;> simp

/-- A registered tunnel keeps its id and stays past its early phases. -/
theorem step_id_early (h : Step chunk S q S') : S'.tunnel.id = S.tunnel.id ∧
    (S.tunnel.phase.early = false → S'.tunnel.phase.early = false) := by
  cases h with
  | tunnel h => exact ⟨Tunnel.step_id h, fun _ => (Tunnel.step_not_early h).2⟩
  | tunnelSend h => exact ⟨Tunnel.step_id h, fun _ => (Tunnel.step_not_early h).2⟩
  | tunnelRemove h => exact ⟨by simp [Tunnel.step_id h], by simp [(Tunnel.step_not_early h).2]⟩
  | tunnelStarved h _ _ => exact ⟨Tunnel.step_id h, fun _ => (Tunnel.step_not_early h).2⟩
  | failPending h => simp
  | spawnedReset h => simp
  | recv hh => simp [(handled ..).id_phase]
  | deliver hh => simp [deliver_id_phase]

end ServerEnd

/-- What the connector keeps for one stream: whether its map has an entry, the handlers spawned
for it, newest first, and how many refusals it has yet to send. -/
structure ConnectorEnd where
  entry : Bool := false
  handlers : List Handler := []
  refusals : Nat := 0
deriving DecidableEq

namespace ConnectorEnd

def modify (C : ConnectorEnd) (f : Handler → Handler) : ConnectorEnd :=
  { C with handlers := C.handlers.modifyHead f }

def remove (C : ConnectorEnd) : ConnectorEnd :=
  if C.entry then { C.modify Handler.abort with entry := false } else C

/-- The newest handler is finished. -/
def taskFinished (C : ConnectorEnd) : Bool :=
  (C.handlers.head?.map fun H => H.pc == .finished).getD true

def retire (C : ConnectorEnd) : ConnectorEnd := { C with entry := C.entry && !C.taskFinished }

def handleData (C : ConnectorEnd) (payload : Bytes) : ConnectorEnd :=
  if C.entry then
    match C.handlers.head? with
    | none => C
    | some H =>
      if H.requestOpen then if H.running then C.modify (·.enqueue payload) else C.remove
      else C
  else C

/-- Every message but `Connect`, whose answer depends on the other streams. -/
def handle (C : ConnectorEnd) : Body → ConnectorEnd
  | .data payload => C.handleData payload
  | .close => if C.entry then C.modify Handler.closeRequest else C
  | .reset => C.remove
  | .windowUpdate bytes => if C.entry then C.modify (·.addCredit bytes.toNat) else C
  | .connect _ | .connectOk | .connectErr _ => C

inductive Step (chunk : Nat) : ConnectorEnd → Port → ConnectorEnd → Prop
  | handler {C : ConnectorEnd} {newer older : List Handler} {H H' : Handler}
      (ht : C.handlers = newer ++ H :: older) (h : Handler.Step chunk H .tau H') :
      Step chunk C .internal { C with handlers := newer ++ H' :: older }
  | handlerSend {C : ConnectorEnd} {newer older : List Handler} {H H' : Handler} {b : Body}
      (ht : C.handlers = newer ++ H :: older) (h : Handler.Step chunk H (.send b) H') :
      Step chunk C (.output b) { C with handlers := newer ++ H' :: older }
  | refuse {C : ConnectorEnd} {n : Nat} (h : C.refusals = n + 1) :
      Step chunk C (.output (.connectErr "connector overloaded")) { C with refusals := n }
  | recv {C : ConnectorEnd} {b : Body} (hb : ∀ target, b ≠ .connect target) :
      Step chunk C (.input b) (C.handle b)
  | accept {C : ConnectorEnd} {target : String} :
      Step chunk C (.input (.connect target))
        { C.retire.remove with
          entry := true, handlers := { target := target } :: C.retire.remove.handlers }
  | overload {C : ConnectorEnd} {target : String} :
      Step chunk C (.input (.connect target))
        { C.retire.remove with refusals := C.retire.remove.refusals + 1 }
  -- Another stream's Connect sweeps finished entries out of the map.
  | retire {C : ConnectorEnd} : Step chunk C .internal C.retire

end ConnectorEnd

/-- The two ends and the bodies in flight, oldest first. -/
structure Stream where
  server : ServerEnd
  connector : ConnectorEnd := {}
  up : List Body := []
  down : List Body := []
deriving DecidableEq

namespace Stream

variable {s s' : Stream} {chunk : Nat}

inductive Step (chunk : Nat) : Stream → Unit → Stream → Prop
  | server {s : Stream} {S : ServerEnd} (h : ServerEnd.Step chunk s.server .internal S) :
      Step chunk s () { s with server := S }
  | serverSend {s : Stream} {S : ServerEnd} {b : Body}
      (h : ServerEnd.Step chunk s.server (.output b) S) :
      Step chunk s () { s with server := S, up := s.up ++ [b.truncated] }
  | serverRecv {s : Stream} {S : ServerEnd} {b : Body} {rest : List Body}
      (hd : s.down = b :: rest) (h : ServerEnd.Step chunk s.server (.input b) S) :
      Step chunk s () { s with server := S, down := rest }
  | connector {s : Stream} {C : ConnectorEnd}
      (h : ConnectorEnd.Step chunk s.connector .internal C) :
      Step chunk s () { s with connector := C }
  | connectorSend {s : Stream} {C : ConnectorEnd} {b : Body}
      (h : ConnectorEnd.Step chunk s.connector (.output b) C) :
      Step chunk s () { s with connector := C, down := s.down ++ [b.truncated] }
  | connectorRecv {s : Stream} {C : ConnectorEnd} {b : Body} {rest : List Body}
      (hu : s.up = b :: rest) (h : ConnectorEnd.Step chunk s.connector (.input b) C) :
      Step chunk s () { s with connector := C, up := rest }

/-- A stream starts when its tunnel has registered under a fresh id. -/
def lts (chunk : Nat) : LTS Stream Unit where
  Init s := ∃ target id, s =
    { server := { tunnel := { target := target, id := id, phase := .sendConnect } } }
  Tr := Step chunk

end Stream

end X2rp.Wss
