import X2rp.Wss.Bytes
import X2rp.Wss.Stream

/-! Each end of a stream as a component of its own, and a stream as the two of them joined:
what one end has sent is what the other has taken in and what is on its way. -/
namespace X2rp.Wss

open Proto

/-- The stream bytes of a sequence of messages. -/
def payloads (l : List Body) : Bytes := l.flatMap Body.payload

/-- The bytes a sequence of messages grants. -/
def grants (l : List Body) : Nat := (l.map Body.granted).sum

@[simp] theorem payloads_nil : payloads [] = [] := rfl

@[simp] theorem payloads_append (l r : List Body) : payloads (l ++ r) = payloads l ++ payloads r :=
  List.flatMap_append

@[simp] theorem payloads_cons (b : Body) (l : List Body) :
    payloads (b :: l) = b.payload ++ payloads l := List.flatMap_cons

@[simp] theorem grants_nil : grants [] = 0 := rfl

@[simp] theorem grants_append (l r : List Body) : grants (l ++ r) = grants l + grants r := by
  simp [grants]

@[simp] theorem grants_cons (b : Body) (l : List Body) : grants (b :: l) = b.granted + grants l := by
  simp [grants]

namespace Body

/-- The messages of a stream whose connect has been answered. -/
def spliced : Body → Bool
  | .data _ | .close | .windowUpdate _ => true
  | _ => false

def isConnect : Body → Bool
  | .connect _ => true
  | _ => false

def isErr : Body → Bool
  | .connectErr _ => true
  | _ => false

variable {b : Body}

@[simp] theorem truncated_payload : b.truncated.payload = b.payload := by
  cases b <;> rfl

@[simp] theorem truncated_granted : b.truncated.granted = b.granted := by
  cases b <;> rfl

@[simp] theorem truncated_isErr : b.truncated.isErr = b.isErr := by
  cases b <;> rfl

/-- Only a connect error is cut on the way. -/
theorem truncated_of_not_err (h : b.isErr = false) : b.truncated = b := by
  cases b <;> simp_all [truncated, isErr]

theorem eq_of_truncated {c : Body} (h : b.truncated = c) (hc : c.isErr = false) : b = c := by
  subst h
  exact (truncated_of_not_err (by simpa using hc)).symm

end Body

theorem mem_map_truncated {b : Body} {l : List Body} (hb : b.isErr = false) :
    b ∈ l.map Body.truncated ↔ b ∈ l := by
  refine ⟨fun h => ?_, fun h => List.mem_map.mpr ⟨b, h, Body.truncated_of_not_err hb⟩⟩
  obtain ⟨c, hc, he⟩ := List.mem_map.mp h
  exact Body.eq_of_truncated he hb ▸ hc

@[simp] theorem payloads_truncated (l : List Body) :
    payloads (l.map Body.truncated) = payloads l := by
  induction l with
  | nil => rfl
  | cons b l ih => simp [ih]

/-- What has been sent is the loop's bytes, and after a `Close` no more of them. -/
structure Closing (outs : List Body) (U : Sender) : Prop where
  sent : payloads outs = U.sent
  close : .close ∈ outs ↔ U.closeSent = true
  last : outs.Pairwise fun a b => a = .close → b.payload = []

section Closing

variable {outs : List Body} {U U' : Sender} {b : Body}

theorem closing_init : Closing [] {} := ⟨rfl, by simp, .nil⟩

theorem Closing.congr (h : Closing outs U) (hs : U'.sent = U.sent)
    (hc : U'.closeSent = U.closeSent) : Closing outs U' :=
  ⟨hs ▸ h.sent, hc ▸ h.close, h.last⟩

theorem Closing.send (h : Closing outs U) (hs : U'.sent = U.sent ++ b.payload)
    (hc : U'.closeSent = true ↔ U.closeSent = true ∨ b = .close)
    (hl : U.closeSent = true → b.payload = []) : Closing (outs ++ [b]) U' := by
  refine ⟨by simp [h.sent, hs], by simp [hc, h.close, @eq_comm _ Body.close b], ?_⟩
  refine List.pairwise_append.mpr ⟨h.last, List.pairwise_singleton .., fun a ha b' hb' hcl => ?_⟩
  subst hcl
  rw [List.mem_singleton.mp hb']
  exact hl (h.close.mp ha)

end Closing

/-- The traffic of one step, counted in stream bytes and in granted bytes. -/
def bytesIn : Port → Nat
  | .input b => b.payload.length
  | _ => 0

def bytesOut : Port → Nat
  | .output b => b.payload.length
  | _ => 0

def grantsIn : Port → Nat
  | .input b => b.granted
  | _ => 0

def grantsOut : Port → Nat
  | .output b => b.granted
  | _ => 0

def ServerEnd.lts (chunk : Nat) : LTS ServerEnd Port where
  Init S := ∃ target id, S = { tunnel := { target := target, id := id, phase := .sendConnect } }
  Tr := ServerEnd.Step chunk

def ConnectorEnd.lts (chunk : Nat) : LTS ConnectorEnd Port where
  Init C := C = {}
  Tr := ConnectorEnd.Step chunk

/-- A run of the server's end through states that meet `P`, and likewise for the connector's. -/
abbrev ServerEnd.Run (chunk : Nat) (P : ServerEnd → Prop) :=
  ((ServerEnd.lts chunk).restrict fun S _ S' => P S ∧ P S').Run

abbrev ConnectorEnd.Run (chunk : Nat) (Q : ConnectorEnd → Prop) :=
  ((ConnectorEnd.lts chunk).restrict fun C _ C' => Q C ∧ Q C').Run

namespace ServerEnd

variable {S S' : ServerEnd} {chunk : Nat} {P : ServerEnd → Prop} {ins outs : List Body} {b : Body}

/-- The server sends no connect error, so all it sends arrives as it is. -/
theorem output_not_err (h : Step chunk S (.output b) S') : b.isErr = false := by
  cases h with
  | tunnelSend h =>
    cases h with
    | upload hp h => cases h <;> rfl
    | download hp h _ => cases h; rfl
    | _ => rfl
  | spawnedReset h => rfl

end ServerEnd

namespace Stream

variable {s s' : Stream} {chunk : Nat} {P : ServerEnd → Prop} {Q : ConnectorEnd → Prop}

/-- A run of each end, with nothing but the channels between what one has sent and what the
other has taken in. -/
structure Runs (chunk : Nat) (P : ServerEnd → Prop) (Q : ConnectorEnd → Prop) (s : Stream)
    (sIns sOuts cIns cOuts : List Body) : Prop where
  server : ServerEnd.Run chunk P sIns sOuts s.server
  connector : ConnectorEnd.Run chunk Q cIns cOuts s.connector
  up : cIns ++ s.up = sOuts
  down : sIns ++ s.down = cOuts.map Body.truncated

/-- A reachable stream is a run of each end. Conditions that are known to hold of every
reachable state may be carried along. -/
theorem runs_of_reachable (h : (lts chunk).Reachable s)
    (hP : ∀ s, (lts chunk).Reachable s → P s.server)
    (hQ : ∀ s, (lts chunk).Reachable s → Q s.connector) :
    ∃ sIns sOuts cIns cOuts, Runs chunk P Q s sIns sOuts cIns cOuts := by
  induction h with
  | init h =>
    obtain ⟨target, id, rfl⟩ := h
    exact ⟨[], [], [], [], .init ⟨target, id, rfl⟩, .init rfl, rfl, rfl⟩
  | @step s s' e hr ht ih =>
    obtain ⟨sIns, sOuts, cIns, cOuts, hS, hC, hup, hdown⟩ := ih
    have hp := And.intro (hP s hr) (hP s' (hr.step ht))
    have hq := And.intro (hQ s hr) (hQ s' (hr.step ht))
    cases ht with
    | server h => exact ⟨_, _, _, _, hS.internal ⟨h, hp⟩, hC, hup, hdown⟩
    | @serverSend S b h =>
      refine ⟨_, _, _, _, hS.output ⟨h, hp⟩, hC, ?_, hdown⟩
      simp [← hup, Body.truncated_of_not_err (ServerEnd.output_not_err h)]
    | serverRecv hd h =>
      refine ⟨_, _, _, _, hS.input ⟨h, hp⟩, hC, hup, ?_⟩
      simpa [hd] using hdown
    | connector h => exact ⟨_, _, _, _, hS, hC.internal ⟨h, hq⟩, hup, hdown⟩
    | connectorSend h =>
      refine ⟨_, _, _, _, hS, hC.output ⟨h, hq⟩, hup, ?_⟩
      simp [← hdown]
    | connectorRecv hu h =>
      refine ⟨_, _, _, _, hS, hC.input ⟨h, hq⟩, ?_, hdown⟩
      simpa [hu] using hup

end Stream

end X2rp.Wss
