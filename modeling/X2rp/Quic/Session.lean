import Mathlib.Data.Finset.Card
import Mathlib.Data.Finset.Range
import X2rp.Quic.Integrity

/-! All the tunnels of a QUIC session, and the slots of its `ConnectorManager`. -/
namespace X2rp.Quic

open Proto Relay

/-- `next` is how many tasks there have been, each with its `tunnel`; one that has `returned` gave
back its slot last. `zeroed` is whether `shutdown` has come to the counter. -/
structure Session where
  next : Nat := 0
  tunnel : Nat → Tunnel := fun _ => { target := "" }
  returned : Nat → Bool := fun _ => false
  activeStreams : Nat := 0
  closed : Bool := false
  zeroed : Bool := false

/-- The tunnel has its streams. -/
def ServerPhase.isOpen : ServerPhase → Bool
  | .connecting _ | .awaiting _ | .splicing _ _ => true
  | .opening | .ended _ => false

namespace Session

def set (s : Session) (i : Nat) (t : Tunnel) : Session :=
  { s with tunnel := Function.update s.tunnel i t }

/-- `bridge` with a slot to be had: the task is spawned. -/
def bridge (s : Session) (target : String) : Session :=
  { s.set s.next { target } with
    next := s.next + 1
    returned := Function.update s.returned s.next false
    activeStreams := s.activeStreams + 1 }

/-- `release_stream_slot`; the counter stays at zero once it is there. -/
def releaseStreamSlot (s : Session) : Session := { s with activeStreams := s.activeStreams - 1 }

/-- Any number of tunnels, in any order. The connection may be closed at any time, by `shutdown`
or by anything else, and from then on `open_bi` fails. -/
inductive Step : Session → Unit → Session → Prop
  | bridge {s : Session} {target : String} (hc : s.activeStreams < maxActiveStreams) :
      Step s () (s.bridge target)
  | tunnel {s : Session} {i : Nat} {e : Event} {t : Tunnel} (hi : i < s.next)
      (hs : Tunnel.Step (s.tunnel i) e t) (ho : e = .opened → s.closed = false) :
      Step s () (s.set i t)
  | release {s : Session} {i : Nat} {whole : Bool} (hi : i < s.next) (hr : s.returned i = false)
      (he : (s.tunnel i).server = .ended whole) :
      Step s () { s.releaseStreamSlot with returned := Function.update s.returned i true }
  | close {s : Session} : Step s () { s with closed := true }
  | zero {s : Session} (hc : s.closed = true) : Step s () { s with activeStreams := 0, zeroed := true }

def system : LTS Session Unit := ⟨fun s => s = {}, Step⟩

variable {s s' : Session} {i : Nat} {t : Tunnel} {u : Unit}

/-- Whatever the others do, a tunnel only makes the steps of a tunnel. -/
theorem tunnel_reachable (h : system.Reachable s) : ∀ i, Tunnel.system.Reachable (s.tunnel i) := by
  refine h.invariant (P := fun s => ∀ i, Tunnel.system.Reachable (s.tunnel i)) ?_ ?_
  · rintro _ rfl i
    exact .init ⟨_, rfl⟩
  · intro s _ s' ih hs i
    cases hs with
    | @bridge target hc =>
      change Tunnel.system.Reachable (Function.update s.tunnel s.next { target } i)
      by_cases hi : i = s.next
      · subst hi
        rw [Function.update_self]
        exact .init ⟨_, rfl⟩
      · rw [Function.update_of_ne hi]
        exact ih i
    | @tunnel j e t hj ht ho =>
      change Tunnel.system.Reachable (Function.update s.tunnel j t i)
      by_cases hi : i = j
      · subst hi
        rw [Function.update_self]
        exact (ih i).step ht
      · rw [Function.update_of_ne hi]
        exact ih i
    | _ => exact ih i

/-- And every course of a single tunnel is one of a session. -/
theorem reachable_of_tunnel (h : Tunnel.system.Reachable t) :
    ∃ s, system.Reachable s ∧ s.next = 1 ∧ s.closed = false ∧ s.tunnel 0 = t := by
  induction h with
  | init h =>
    obtain ⟨target, rfl⟩ := h
    exact ⟨_, .step (.init rfl) (@Step.bridge _ target (by decide)), rfl, rfl, rfl⟩
  | step _ ht ih =>
    obtain ⟨s, hr, hn, hc, rfl⟩ := ih
    exact ⟨_, hr.step (.tunnel (i := 0) (by omega) ht fun _ => hc), hn, hc,
      Function.update_self 0 _ s.tunnel⟩

/-- The tasks that have not returned. -/
def live (s : Session) : Finset Nat := (Finset.range s.next).filter fun i => s.returned i = false

theorem mem_live : i ∈ s.live ↔ i < s.next ∧ s.returned i = false := by
  rw [live, Finset.mem_filter, Finset.mem_range]

theorem live_bridge {target : String} : (s.bridge target).live = insert s.next s.live := by
  ext i
  rw [Finset.mem_insert, mem_live, mem_live]
  change i < s.next + 1 ∧ Function.update s.returned s.next false i = false ↔ _
  by_cases hi : i = s.next
  · simp [hi]
  · rw [Function.update_of_ne hi]
    have : i < s.next + 1 ↔ i < s.next := by omega
    simp [hi, this]

theorem live_returned :
    ({ s.releaseStreamSlot with returned := Function.update s.returned i true } : Session).live =
      s.live.erase i := by
  ext j
  rw [Finset.mem_erase, mem_live, mem_live]
  change j < s.next ∧ Function.update s.returned i true j = false ↔ _
  by_cases hj : j = i
  · simp [hj]
  · rw [Function.update_of_ne hj]
    simp [hj]

/-- The tunnels with streams on the connection. -/
def opened (s : Session) : Finset Nat :=
  (Finset.range s.next).filter fun i => (s.tunnel i).server.isOpen

theorem mem_opened : i ∈ s.opened ↔ i < s.next ∧ (s.tunnel i).server.isOpen = true := by
  rw [opened, Finset.mem_filter, Finset.mem_range]

theorem isOpen_step {t t' : Tunnel} {e : Event} (h : Tunnel.Step t e t')
    (ho : t'.server.isOpen = true) : t.server.isOpen = true ∨ e = .opened := by
  cases h with
  | opened hp hf => exact .inr rfl
  | connectWrite hp | connectSent hp | awaitRead hp | accepted hp | serverCopy hp =>
    exact .inl (by rw [hp]; rfl)
  | refused hp | serverDone hp | serverFailed hp => cases ho
  | _ => exact .inl ho

theorem ended_step {t t' : Tunnel} {e : Event} {whole : Bool} (h : Tunnel.Step t e t')
    (he : t.server = .ended whole) : t'.server = .ended whole := by
  cases h with
  | serverFailed hp => exact absurd he (hp whole)
  | opened hp | connectWrite hp | connectSent hp | awaitRead hp | accepted hp | refused hp
  | serverCopy hp | serverDone hp => simp [hp] at he
  | _ => exact he

/-- The counter counts the tasks that hold a slot, until `shutdown` sets it to zero; a task gives
its slot back when its tunnel has ended. -/
structure Slots (s : Session) : Prop where
  ended : ∀ i, i < s.next → i ∉ s.live → ∃ whole, (s.tunnel i).server = .ended whole
  exact : s.zeroed = false → s.activeStreams = s.live.card
  le : s.activeStreams ≤ s.live.card
  capped : s.activeStreams ≤ maxActiveStreams
  closed : s.zeroed = true → s.closed = true
  opened : s.opened.card ≤ maxActiveStreams

theorem Slots.opened_subset (h : Slots s) : s.opened ⊆ s.live := by
  intro i hi
  obtain ⟨hlt, ho⟩ := mem_opened.mp hi
  by_contra hn
  obtain ⟨whole, he⟩ := h.ended i hlt hn
  simp [he, ServerPhase.isOpen] at ho

theorem Slots.step (h : Slots s) (hs : Step s u s') : Slots s' := by
  cases hs with
  | @bridge target hc =>
    have hn : s.next ∉ s.live := fun hmem => absurd (mem_live.mp hmem).1 (Nat.lt_irrefl _)
    have hcard : (s.bridge target).live.card = s.live.card + 1 := by
      rw [live_bridge, Finset.card_insert_of_notMem hn]
    refine ⟨fun i hi hl => ?_, fun hz => ?_, ?_, hc, h.closed, ?_⟩
    · obtain ⟨hne, hl⟩ : i ≠ s.next ∧ i ∉ s.live := by simpa [live_bridge] using hl
      have hlt : i < s.next := by
        change i < s.next + 1 at hi
        omega
      obtain ⟨whole, he⟩ := h.ended i hlt hl
      exact ⟨whole, by simp [bridge, set, hne, he]⟩
    · change s.activeStreams + 1 = (s.bridge target).live.card
      rw [hcard, h.exact hz]
    · change s.activeStreams + 1 ≤ (s.bridge target).live.card
      have := h.le
      omega
    · -- The new task has not opened anything.
      refine (Finset.card_le_card fun i hi => ?_).trans h.opened
      obtain ⟨hlt, ho⟩ := mem_opened.mp hi
      by_cases hne : i = s.next
      · subst hne
        simp [bridge, set, ServerPhase.isOpen] at ho
      · change i < s.next + 1 at hlt
        refine mem_opened.mpr ⟨by omega, ?_⟩
        simpa [bridge, set, hne] using ho
  | @tunnel j e t hj ht ho =>
    refine ⟨fun i hi hl => ?_, h.exact, h.le, h.capped, h.closed, ?_⟩
    · obtain ⟨whole, he⟩ := h.ended i hi hl
      by_cases hij : i = j
      · subst hij
        exact ⟨whole, by simp [set, ended_step ht he]⟩
      · exact ⟨whole, by simp [set, hij, he]⟩
    · by_cases hopen : e = .opened
      · -- A stream is opened on a connection that is up, where every tunnel holds its slot.
        have hz : s.zeroed = false := by
          by_contra hz
          have := h.closed (by simpa using hz)
          simp [ho hopen] at this
        have hsub : (s.set j t).opened ⊆ s.live := by
          intro i hi
          obtain ⟨hlt, hio⟩ := mem_opened.mp hi
          by_contra hn
          obtain ⟨whole, he⟩ := h.ended i hlt hn
          by_cases hij : i = j
          · subst hij
            have := ended_step ht he
            simp [set, this, ServerPhase.isOpen] at hio
          · simp [set, hij, he, ServerPhase.isOpen] at hio
        have hle := Finset.card_le_card hsub
        have := h.exact hz
        have := h.capped
        omega
      · refine (Finset.card_le_card fun i hi => ?_).trans h.opened
        obtain ⟨hlt, hio⟩ := mem_opened.mp hi
        refine mem_opened.mpr ⟨hlt, ?_⟩
        by_cases hij : i = j
        · subst hij
          exact (isOpen_step ht (by simpa [set] using hio)).resolve_right hopen
        · simpa [set, hij] using hio
  | @release j whole hj hr he =>
    have hcard := Finset.card_erase_of_mem (mem_live.mpr ⟨hj, hr⟩)
    rw [← live_returned] at hcard
    refine ⟨fun i hi hl => ?_, fun hz => ?_, ?_, ?_, h.closed, h.opened⟩
    · by_cases hij : i = j
      · subst hij
        exact ⟨whole, he⟩
      · refine h.ended i hi fun hmem => hl ?_
        rw [live_returned]
        exact Finset.mem_erase.mpr ⟨hij, hmem⟩
    · rw [hcard, ← h.exact hz]
      rfl
    · rw [hcard]
      exact Nat.sub_le_sub_right h.le 1
    · exact (Nat.sub_le ..).trans h.capped
  | close => exact ⟨h.ended, h.exact, h.le, h.capped, fun _ => rfl, h.opened⟩
  | zero hc =>
    exact ⟨h.ended, by simp, Nat.zero_le _, Nat.zero_le _, fun _ => hc, h.opened⟩

theorem slots_of_reachable (h : system.Reachable s) : Slots s := by
  refine h.invariant ?_ fun _ _ _ hi hs => hi.step hs
  rintro _ rfl
  exact ⟨by simp, by simp [live], by simp, by simp, by simp, by simp [opened]⟩

/-- However many tunnels a session has and however their steps are interleaved, each of them
connects to the target it was bridged for, takes nothing from its client before the backend is
there, and passes bytes on in order, with none lost in between, none added and none of the frames
among them. -/
theorem quic_tunnels_are_pipes (h : system.Reachable s) (i : Nat) :
    (s.tunnel i).backend.got <+: (s.tunnel i).client.read ∧
    (s.tunnel i).client.got <+: (s.tunnel i).backend.read ∧
    (∀ target, (s.tunnel i).dialled = some target → target = (s.tunnel i).target) ∧
    ((s.tunnel i).client ≠ {} ∨ (s.tunnel i).backend ≠ {} → (s.tunnel i).Connected) := by
  have hs := Tunnel.sound_of_reachable (tunnel_reachable h i)
  exact ⟨hs.inOrder.1, hs.inOrder.2, hs.dialled, fun hne => hne.elim hs.client hs.backend⟩

theorem quic_tunnels_are_pipes_echo : ∃ s, system.Reachable s ∧ s.tunnel 0 = Tunnel.echoA ∧
    (s.tunnel 0).backend.got <+: (s.tunnel 0).client.read ∧ (s.tunnel 0).Connected := by
  obtain ⟨s, hr, -, -, ht⟩ := reachable_of_tunnel Tunnel.reachable_echoA
  obtain ⟨h1, -, -, h4⟩ := quic_tunnels_are_pipes hr 0
  exact ⟨s, hr, ht, h1, h4 (.inl (by rw [ht]; decide))⟩

/-- A tunnel that shuts down its client's side has delivered all of the response, up to its end,
unless the connector's task was broken off before that was sent; and a backend's side that is
shut down has all of the request, unless the server's task was. -/
theorem quic_end_is_complete (h : system.Reachable s) (i : Nat) :
    ((s.tunnel i).client.shut = true → (s.tunnel i).connector = .ended false ∨
      (s.tunnel i).client.got = (s.tunnel i).backend.read ∧ (s.tunnel i).backend.eof = true) ∧
    ((s.tunnel i).backend.shut = true → (s.tunnel i).server = .ended false ∨
      (s.tunnel i).backend.got = (s.tunnel i).client.read ∧ (s.tunnel i).client.eof = true) := by
  have hs := Tunnel.sound_of_reachable (tunnel_reachable h i)
  exact ⟨hs.client_shut, hs.backend_shut⟩

theorem quic_end_is_complete_echo : ∃ s, system.Reachable s ∧ s.tunnel 0 = Tunnel.echoA ∧
    (s.tunnel 0).client.got = (s.tunnel 0).backend.read := by
  obtain ⟨s, hr, -, -, ht⟩ := reachable_of_tunnel Tunnel.reachable_echoA
  refine ⟨s, hr, ht, ?_⟩
  rcases (quic_end_is_complete hr 0).1 (by rw [ht]; rfl) with he | he
  · rw [ht] at he
    cases he
  · exact he.1

/-- Until `shutdown` the counter is the number of tasks that have not ended, after it no more than
that; it is never past the cap, and no session ever has more than the cap of streams open at
once, whatever is bridged during or after `shutdown`. -/
theorem quic_slots_counted (h : system.Reachable s) :
    (s.zeroed = false → s.activeStreams = s.live.card) ∧ s.activeStreams ≤ s.live.card ∧
    s.activeStreams ≤ maxActiveStreams ∧ s.opened.card ≤ maxActiveStreams ∧ s.opened ⊆ s.live ∧
    ∀ i, i < s.next → i ∉ s.live → ∃ whole, (s.tunnel i).server = .ended whole := by
  have hs := slots_of_reachable h
  exact ⟨hs.exact, hs.le, hs.capped, hs.opened, hs.opened_subset, hs.ended⟩

/-- A request that has the manager already bridges after `shutdown`. -/
theorem quic_slots_counted_late : ∃ s, system.Reachable s ∧ s.zeroed = true ∧ s.live.card = 2 ∧
    s.activeStreams ≤ s.live.card := by
  have h1 := (LTS.Reachable.init (L := system) rfl).step (@Step.bridge _ "a" (by decide))
  have h2 := (h1.step .close).step (.zero rfl)
  have h3 := h2.step (@Step.bridge _ "b" (by decide))
  exact ⟨_, h3, rfl, by decide, (quic_slots_counted h3).2.1⟩

end Session

end X2rp.Quic
