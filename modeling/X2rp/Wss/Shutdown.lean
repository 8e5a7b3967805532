import X2rp.Wss.Slots

/-! `ConnectorManager::shutdown` beside the bridges and tunnel tasks it does not wait for. -/
namespace X2rp.Wss

open Proto

/-- How far a call of `shutdown` has come; it has notified the writer before its first section. -/
inductive ShutdownPc
  | absent
  | drainPending
  | drainStreams
  | resetSlots
  | returned
deriving DecidableEq, Repr

/-- The call has emptied `pending`. -/
def ShutdownPc.pendingDrained : ShutdownPc → Bool
  | .drainStreams | .resetSlots | .returned => true
  | _ => false

/-- The call has emptied `streams`. -/
def ShutdownPc.streamsDrained : ShutdownPc → Bool
  | .resetSlots | .returned => true
  | _ => false

namespace ConnectorManager

variable {s s' : ConnectorManager} {chunk : Nat} {e : Event} {t u : Nat} {i : UInt32} {m : Message}

/-- Fail every pending connect. -/
def drainPending (s : ConnectorManager) : ConnectorManager :=
  { s with
    pending := ∅
    tunnels := fun t =>
      if ∃ id ∈ s.pending.keys, s.waiterOf id = some t then
        (s.tunnels t).answered (.err "connector disconnected")
      else s.tunnels t }

/-- Close the credit of every stream. -/
def drainStreams (s : ConnectorManager) : ConnectorManager :=
  { s with
    streams := ∅
    tunnels := fun t =>
      if ∃ id ∈ s.streams.keys, s.streamOf id = some t then (s.tunnels t).closeCredit
      else s.tunnels t }

def resetSlots (s : ConnectorManager) : ConnectorManager := { s with activeStreams := 0 }

@[simp] theorem drainPending_phase :
    ((s.drainPending).tunnels t).phase = (s.tunnels t).phase := by
  simp only [drainPending]
  split <;> simp

@[simp] theorem drainStreams_phase :
    ((s.drainStreams).tunnels t).phase = (s.tunnels t).phase := by
  simp only [drainStreams]
  split <;> simp

/-- A tunnel that has been started and is not in `streams` yet. -/
def OnItsWay (s : ConnectorManager) (t : Nat) : Prop :=
  t < s.started ∧ (s.tunnels t).phase.early = true

/-- Tunnels that have not been started have not drawn an id. -/
def Idle (s : ConnectorManager) : Prop := ∀ t, s.started ≤ t → (s.tunnels t).phase = .fetchId

/-- Nothing is registered that was not before. -/
structure Recedes (s s' : ConnectorManager) : Prop where
  started : s'.started = s.started
  fetch : ∀ t, (s'.tunnels t).phase = .fetchId ↔ (s.tunnels t).phase = .fetchId
  early : ∀ t, (s'.tunnels t).phase.early = (s.tunnels t).phase.early
  pending : ∀ i, s.waiterOf i = none → s'.waiterOf i = none
  streams : ∀ i, s.streamOf i = none → s'.streamOf i = none

/-- What a step can do to the maps: bridge one more tunnel, bring one nearer to its registration,
or take away from them. -/
inductive Moved (s s' : ConnectorManager) : Prop
  | bridged (hs : s'.started = s.started + 1)
      (ht : ∀ u, s.started < u → s'.tunnels u = s.tunnels u)
  | early {t : Nat} (he : (s.tunnels t).phase.early = true)
      (hl : t < s.started ∨ (s.tunnels t).phase ≠ .fetchId) (hs : s'.started = s.started)
      (ht : ∀ u, u ≠ t → (s'.tunnels u).phase = (s.tunnels u).phase)
  | receded (h : Recedes s s')

theorem Recedes.trans {s'' : ConnectorManager} (h : Recedes s s') (h' : Recedes s' s'') :
    Recedes s s'' where
  started := h'.started.trans h.started
  fetch t := (h'.fetch t).trans (h.fetch t)
  early t := (h'.early t).trans (h.early t)
  pending i := h'.pending i ∘ h.pending i
  streams i := h'.streams i ∘ h.streams i

theorem recedes_tunnelStep {T : Tunnel} {a : Act} (h : Tunnel.Step chunk (s.tunnels t) a T) :
    Recedes s (s.setTunnel t T) := by
  have hs := sameSlots_tunnelStep h
  refine ⟨hs.started, hs.fetch, fun u => ?_, fun i => by simp, fun i => by simp⟩
  obtain ⟨h1, h2⟩ := Tunnel.step_not_early h
  rw [setTunnel_tunnels]
  split
  · rename_i hu
    rw [hu, h1, h2]
  · rfl

theorem Shrinks.recedes (h : Shrinks s s') (hs : s'.started = s.started) : Recedes s s' where
  started := hs
  fetch t := by rw [h.phase t]
  early t := by rw [h.phase t]
  pending i hn := Option.eq_none_iff_forall_ne_some.mpr fun t ht => by
    simp [h.waiter i t ht] at hn
  streams i hn := Option.eq_none_iff_forall_ne_some.mpr fun t ht => by
    simp [h.stream i t ht] at hn

theorem recedes_failPending : Recedes s (s.failPending i) := by
  have h : Recedes s { s with failing := s.failing.erase i } :=
    ⟨rfl, fun _ => Iff.rfl, fun _ => rfl, fun _ => id, fun _ => id⟩
  exact h.trans (shrinks_answerPending.recedes (by simp))

/-- The tunnel has drawn an id and is not in `streams` yet. -/
theorem moved_of_phase {ph : Phase} (hp : (s.tunnels t).phase = ph) (he : ph.early = true)
    (hf : ph ≠ .fetchId) (hs : s'.started = s.started)
    (ht : ∀ u, u ≠ t → (s'.tunnels u).phase = (s.tunnels u).phase) : Moved s s' :=
  .early (hp ▸ he) (.inr (hp ▸ hf)) hs ht

theorem step_moved (h : Step chunk s e s') : Moved s s' := by
  cases h with
  | bridge hr =>
    obtain ⟨-, rfl⟩ := tryReserveStreamSlot_eq hr
    refine .bridged (by simp) fun u hu => ?_
    rw [spawnTunnel_tunnels]
    exact if_neg (Nat.ne_of_gt hu)
  | fetchId ht hp =>
    refine .early (by simp [hp, Phase.early]) (.inl ht) (by simp) fun u hu => ?_
    simp [hu]
  | idInUse hp => exact moved_of_phase hp rfl (by simp) (by simp) fun u hu => by simp [hu]
  | idFree hp => exact moved_of_phase hp rfl (by simp) (by simp) fun u hu => by simp [hu]
  | insertPending hp => exact moved_of_phase hp rfl (by simp) (by simp) fun u hu => by simp [hu]
  | insertStream hp => exact moved_of_phase hp rfl (by simp) (by simp) fun u hu => by simp [hu]
  | tunnel h => exact .receded (recedes_tunnelStep h)
  | tunnelSend h => exact .receded (recedes_tunnelStep h)
  | tunnelSendFailed h => exact .receded (recedes_tunnelStep h)
  | tunnelRemove h => exact .receded ((recedes_tunnelStep h).trans (shrinks_removeStream.recedes (by simp)))
  | tunnelStarved h => exact .receded (recedes_tunnelStep h)
  | failPending => exact .receded recedes_failPending
  | recv => exact .receded ((handled ..).shrinks.recedes (handled ..).started)
  | deliver => exact .receded (shrinks_deliver.recedes deliver_started)
  | _ => exact .receded ⟨rfl, fun _ => Iff.rfl, fun _ => rfl, fun _ => id, fun _ => id⟩

theorem Idle.moved (h : Idle s) (hm : Moved s s') : Idle s' := by
  intro u hu
  cases hm with
  | bridged hs ht =>
    rw [ht u (by omega)]
    exact h u (by omega)
  | @early t he hl hs ht =>
    have hne : u ≠ t := by
      rintro rfl
      rcases hl with hl | hl
      · omega
      · exact hl (h u (hs ▸ hu))
    rw [ht u hne]
    exact h u (hs ▸ hu)
  | receded hs => exact (hs.fetch u).mpr (h u (hs.started ▸ hu))

/-- With no tunnel on its way, a step that bridges none leaves it at that, and the maps recede. -/
theorem Idle.recedes (h : Idle s) (hn : ∀ t, ¬ s.OnItsWay t) (hm : Moved s s')
    (hb : ¬ s.started < s'.started) : Recedes s s' := by
  cases hm with
  | bridged hs ht => omega
  | @early t he hl hs ht =>
    have hlt : t < s.started := hl.elim id fun hne => by
      by_contra hge
      exact hne (h t (by omega))
    exact absurd ⟨hlt, he⟩ (hn t)
  | receded hs => exact hs

section Expected

/-- The tunnel has entered a sender for its answer in `pending` and has yet to see one. -/
def Awaits (T : Tunnel) : Prop :=
  (T.phase = .insertStream ∨ T.phase = .sendConnect ∨ T.phase = .awaitConnect) ∧ T.answer = none

/-- The sender that a tunnel waits for is in the map. -/
def Expected (s : ConnectorManager) : Prop :=
  ∀ t, Awaits (s.tunnels t) → s.waiterOf (s.tunnels t).id = some t

theorem awaits_step {T T' : Tunnel} {a : Act} (h : Tunnel.Step chunk T a T') (ha : Awaits T') :
    Awaits T := by
  obtain ⟨hp, hn⟩ := ha
  cases h <;> simp_all [Awaits]

theorem Expected.congr (h : Expected s) (hw : ∀ i, s'.waiterOf i = s.waiterOf i)
    (ht : ∀ t, Awaits (s'.tunnels t) → Awaits (s.tunnels t) ∧
      (s'.tunnels t).id = (s.tunnels t).id) : Expected s' := by
  intro t ha
  obtain ⟨ha', hid⟩ := ht t ha
  rw [hw, hid]
  exact h t ha'

theorem Expected.setTunnel {T : Tunnel} (h : Expected s)
    (ht : Awaits T → Awaits (s.tunnels t) ∧ T.id = (s.tunnels t).id) :
    Expected (s.setTunnel t T) := by
  refine h.congr (fun i => rfl) fun u hu => ?_
  rw [setTunnel_tunnels] at hu ⊢
  split at hu
  · rename_i he
    rw [if_pos he, he]
    exact ht hu
  · rename_i he
    rw [if_neg he]
    exact ⟨hu, rfl⟩

theorem Expected.tunnelStep {T : Tunnel} {a : Act} (h : Expected s)
    (hs : Tunnel.Step chunk (s.tunnels t) a T) : Expected (s.setTunnel t T) :=
  h.setTunnel fun ha => ⟨awaits_step hs ha, Tunnel.step_id hs⟩

theorem Expected.removeStream (h : Expected s) : Expected (s.removeStream i) := by
  refine h.congr (fun j => by simp) fun t ha => ⟨?_, by simp⟩
  rw [removeStream_tunnels] at ha
  split at ha
  · exact ha
  · exact ha

/-- Whoever was to be answered has been. -/
theorem Expected.answerPending {answer : Answer} (h : Expected s) :
    Expected (s.answerPending i answer) := by
  intro t ha
  rw [answerPending_tunnels] at ha
  split at ha
  · cases ha.2
  · rename_i hne
    have hw := h t ha
    rw [answerPending_id, answerPending_waiterOf, if_neg ?_]
    · exact hw
    · rintro rfl
      exact hne hw

theorem Expected.insertPending (h : Expected s) (hp : (s.tunnels t).phase = .insertPending) :
    Expected ((s.insertPending (s.tunnels t).id t).setPhase t .insertStream) := by
  intro u ha
  rw [setPhase_waiterOf, insertPending_waiterOf]
  by_cases hu : u = t
  · subst hu
    simp
  · simp only [setPhase_tunnels, if_neg hu] at ha ⊢
    rw [insertPending_id]
    rw [insertPending_tunnels] at ha
    split at ha
    · cases ha.2
    · rename_i hne
      have hw := h u ha
      rw [if_neg ?_]
      · exact hw
      · intro he
        exact hne (he ▸ hw)

theorem Expected.handled (h : Expected s) (hm : Handled s m s') : Expected s' := by
  cases hm with
  | ignored => exact h
  | answered => exact h.answerPending
  | removed => exact h.removeStream
  | granted => exact h.setTunnel fun ha => ⟨ha, rfl⟩
  | @exceeded i t p =>
    have hadd : Expected (s.setTunnel t ((s.tunnels t).addOutstanding p.length)) :=
      h.setTunnel fun ha => ⟨ha, rfl⟩
    exact (hadd.removeStream (i := i)).congr (fun _ => rfl) fun _ ha => ⟨ha, rfl⟩
  | @within i t p =>
    have hadd : Expected (s.setTunnel t ((s.tunnels t).addOutstanding p.length)) :=
      h.setTunnel fun ha => ⟨ha, rfl⟩
    exact hadd.congr (fun _ => rfl) fun _ ha => ⟨ha, rfl⟩

theorem Expected.deliver {p : Bytes} (h : Expected s) : Expected (s.deliver i t p) := by
  have hidle : Expected { s with reading := none } := h.congr (fun _ => rfl) fun _ ha => ⟨ha, rfl⟩
  by_cases hp : (s.tunnels t).phase = .ended
  · rw [deliver_ended hp]
    exact hidle.removeStream
  · rw [deliver_live hp]
    have hqueue : Expected (s.setTunnel t ((s.tunnels t).enqueue p)) :=
      h.setTunnel fun ha => ⟨ha, rfl⟩
    exact hqueue.congr (fun _ => rfl) fun _ ha => ⟨ha, rfl⟩

theorem Expected.step (h : Expected s) (hs : Step chunk s e s') : Expected s' := by
  cases hs with
  | bridge hr =>
    obtain ⟨-, rfl⟩ := tryReserveStreamSlot_eq hr
    refine h.congr (fun _ => rfl) fun u ha => ?_
    rw [spawnTunnel_tunnels] at ha ⊢
    split at ha
    · simp [Awaits] at ha
    · rename_i hu
      rw [if_neg hu]
      exact ⟨ha, rfl⟩
  | fetchId ht hp =>
    refine h.congr (fun _ => rfl) fun u ha => ?_
    rw [fetchStreamId_tunnels] at ha ⊢
    split at ha
    · simp [Awaits] at ha
    · rename_i hu
      rw [if_neg hu]
      exact ⟨ha, rfl⟩
  | idInUse hp => exact h.setTunnel fun ha => by simp [Awaits] at ha
  | idFree hp => exact h.setTunnel fun ha => by simp [Awaits] at ha
  | insertPending hp => exact h.insertPending hp
  | @insertStream t hp =>
    have hlisted : Expected (s.insertStream (s.tunnels t).id t) :=
      h.congr (fun _ => rfl) fun _ ha => ⟨ha, rfl⟩
    exact hlisted.setTunnel fun ha => ⟨⟨.inl hp, ha.2⟩, rfl⟩
  | tunnel h' => exact h.tunnelStep h'
  | tunnelSend h' => exact h.tunnelStep h'
  | tunnelSendFailed h' => exact h.tunnelStep h'
  | tunnelRemove h' => exact (h.tunnelStep h').removeStream
  | tunnelStarved h' => exact h.tunnelStep h'
  | @failPending id hm =>
    have hfail : Expected { s with failing := s.failing.erase id } :=
      h.congr (fun _ => rfl) fun _ ha => ⟨ha, rfl⟩
    exact hfail.answerPending
  | recv => exact h.handled (ConnectorManager.handled ..)
  | deliver => exact h.deliver
  | _ => exact h.congr (fun _ => rfl) fun _ ha => ⟨ha, rfl⟩

theorem Expected.drainPending (h : Expected s) : Expected s.drainPending := by
  intro t ha
  simp only [ConnectorManager.drainPending] at ha
  split at ha
  · cases ha.2
  · rename_i hne
    refine absurd ⟨(s.tunnels t).id, ?_, h t ha⟩ hne
    rw [Finmap.mem_keys, ← Finmap.lookup_isSome]
    exact Option.isSome_iff_exists.mpr ⟨t, h t ha⟩

theorem Expected.drainStreams (h : Expected s) : Expected s.drainStreams := by
  refine h.congr (fun _ => rfl) fun t ha => ?_
  simp only [ConnectorManager.drainStreams] at ha ⊢
  split
  · rename_i hp
    rw [if_pos hp] at ha
    exact ⟨ha, rfl⟩
  · rename_i hp
    rw [if_neg hp] at ha
    exact ⟨ha, rfl⟩

end Expected

end ConnectorManager

/-- One step of a call of `shutdown`. -/
inductive ShutdownPc.Step : ConnectorManager → ShutdownPc → ConnectorManager → ShutdownPc → Prop
  | call {M : ConnectorManager} : Step M .absent M .drainPending
  | drainPending {M : ConnectorManager} : Step M .drainPending M.drainPending .drainStreams
  | drainStreams {M : ConnectorManager} : Step M .drainStreams M.drainStreams .resetSlots
  | resetSlots {M : ConnectorManager} : Step M .resetSlots M.resetSlots .returned

theorem ShutdownPc.Step.called {M M' : ConnectorManager} {pc pc' : ShutdownPc}
    (h : Step M pc M' pc') : pc' ≠ .absent := by
  cases h <;> exact nofun

/-- A manager with the calls of its `shutdown`. Whoever holds the manager may still bridge. -/
structure Teardown where
  manager : ConnectorManager := {}
  calls : Nat → ShutdownPc := fun _ => .absent

namespace Teardown

open ConnectorManager

variable {s s' : Teardown} {chunk : Nat} {k : Nat}

inductive Step (chunk : Nat) : Teardown → Unit → Teardown → Prop
  | manager {s : Teardown} {e : Event} {M : ConnectorManager}
      (h : ConnectorManager.Step chunk s.manager e M) : Step chunk s () { s with manager := M }
  | shutdown {s : Teardown} {k : Nat} {M : ConnectorManager} {pc : ShutdownPc}
      (h : ShutdownPc.Step s.manager (s.calls k) M pc) :
      Step chunk s () ⟨M, Function.update s.calls k pc⟩

def lts (chunk : Nat) : LTS Teardown Unit := ⟨fun s => s = {}, Step chunk⟩

/-- The condition on a step: no tunnel is on its way when a shutdown drains `pending`, and none is
bridged after that. -/
structure Orderly (s : Teardown) (_ : Unit) (s' : Teardown) : Prop where
  settled : ∀ k, (s.calls k).pendingDrained = false → (s'.calls k).pendingDrained = true →
    ∀ t, ¬ s.manager.OnItsWay t
  unbridged : ∀ k, (s.calls k).pendingDrained = true →
    ¬ s.manager.started < s'.manager.started

/-- What a shutdown has emptied stays empty, since no tunnel is on its way. -/
structure Final (s : Teardown) : Prop where
  idle : s.manager.Idle
  settled : ∀ k, (s.calls k).pendingDrained = true → ∀ t, ¬ s.manager.OnItsWay t
  pending : ∀ k, (s.calls k).pendingDrained = true → ∀ i, s.manager.waiterOf i = none
  streams : ∀ k, (s.calls k).streamsDrained = true → ∀ i, s.manager.streamOf i = none

theorem pendingDrained_of_streamsDrained {pc : ShutdownPc} (h : pc.streamsDrained = true) :
    pc.pendingDrained = true := by
  cases pc <;> simp_all [ShutdownPc.streamsDrained, ShutdownPc.pendingDrained]

/-- A manager whose maps have receded. -/
theorem Final.recedes {M : ConnectorManager} (h : Final s) (hi : M.Idle)
    (hs : (∃ k, (s.calls k).pendingDrained = true) → Recedes s.manager M) :
    Final { s with manager := M } where
  idle := hi
  settled k hk t ht := by
    have hm := hs ⟨k, hk⟩
    exact h.settled k hk t ⟨hm.started ▸ ht.1, hm.early t ▸ ht.2⟩
  pending k hk i := (hs ⟨k, hk⟩).pending i (h.pending k hk i)
  streams k hk i :=
    (hs ⟨k, pendingDrained_of_streamsDrained hk⟩).streams i (h.streams k hk i)

/-- A call of `shutdown` goes on. -/
theorem Final.advance {pc : ShutdownPc} (h : Final s)
    (hp : pc.pendingDrained = true → (∀ t, ¬ s.manager.OnItsWay t) ∧
      ∀ i, s.manager.waiterOf i = none)
    (hs : pc.streamsDrained = true → ∀ i, s.manager.streamOf i = none) :
    Final { s with calls := Function.update s.calls k pc } where
  idle := h.idle
  settled k' hk := by
    by_cases he : k' = k
    · subst he
      exact (hp (by simpa using hk)).1
    · exact h.settled k' (by simpa [he] using hk)
  pending k' hk := by
    by_cases he : k' = k
    · subst he
      exact (hp (by simpa using hk)).2
    · exact h.pending k' (by simpa [he] using hk)
  streams k' hk := by
    by_cases he : k' = k
    · subst he
      exact hs (by simpa using hk)
    · exact h.streams k' (by simpa [he] using hk)

theorem recedes_drainPending {M : ConnectorManager} : Recedes M M.drainPending :=
  ⟨rfl, fun t => by simp, fun t => by simp, fun i _ => Finmap.lookup_empty i, fun _ => id⟩

theorem recedes_drainStreams {M : ConnectorManager} : Recedes M M.drainStreams :=
  ⟨rfl, fun t => by simp, fun t => by simp, fun _ => id, fun i _ => Finmap.lookup_empty i⟩

theorem final_step (h : Final s) (hs : Step chunk s () s') (ho : Orderly s () s') : Final s' := by
  cases hs with
  | manager hm =>
    have hmoved := step_moved hm
    refine h.recedes (h.idle.moved hmoved) ?_
    rintro ⟨k, hk⟩
    exact h.idle.recedes (h.settled k hk) hmoved (ho.unbridged k hk)
  | @shutdown k M pc hc =>
    have hsettled := ho.settled k
    have hpending := h.pending k
    have hsettled' := h.settled k
    have hstreams := h.streams k
    generalize s.calls k = pc₀ at hc hsettled hsettled' hpending hstreams
    cases hc with
    | call => exact h.advance nofun nofun
    | drainPending =>
      have hway := hsettled rfl (by simp [ShutdownPc.pendingDrained])
      have hM := h.recedes (h.idle.moved (.receded recedes_drainPending))
        fun _ => recedes_drainPending
      refine hM.advance (fun _ => ⟨fun t ht => hway t ?_, fun i => Finmap.lookup_empty i⟩) nofun
      exact ⟨ht.1, drainPending_phase ▸ ht.2⟩
    | drainStreams =>
      have hM := h.recedes (h.idle.moved (.receded recedes_drainStreams))
        fun _ => recedes_drainStreams
      refine hM.advance (fun _ => ⟨fun t ht => hsettled' rfl t ?_, hpending rfl⟩)
        fun _ i => Finmap.lookup_empty i
      exact ⟨ht.1, drainStreams_phase ▸ ht.2⟩
    | resetSlots =>
      have hM : Final { s with manager := s.manager.resetSlots } :=
        ⟨h.idle, h.settled, h.pending, h.streams⟩
      exact hM.advance (fun _ => ⟨hsettled' rfl, hpending rfl⟩) fun _ => hstreams rfl

theorem final_run (h : ((lts chunk).restrict Orderly).Reachable s) : Final s := by
  refine h.invariant (fun s hs => ?_) fun s _ t hf hs => final_step hf hs.1 hs.2
  obtain rfl : s = {} := hs
  exact ⟨fun _ _ => rfl, nofun, nofun, nofun⟩

theorem expected_run (h : (lts chunk).Reachable s) : s.manager.Expected := by
  refine h.invariant (P := fun s => s.manager.Expected) (fun s hs => ?_) fun s _ t he hs => ?_
  · obtain rfl : s = {} := hs
    intro t ha
    simp [Awaits] at ha
  · cases hs with
    | manager hm => exact he.step hm
    | @shutdown k M pc hc =>
      generalize s.calls k = pc₀ at hc
      cases hc with
      | call => exact he
      | drainPending => exact he.drainPending
      | drainStreams => exact he.drainStreams
      | resetSlots => exact he.congr (fun _ => rfl) fun _ ha => ⟨ha, rfl⟩

theorem returned_step (hs : Step chunk s () s') (hk : s.calls k = .returned) :
    s'.calls k = .returned := by
  cases hs with
  | manager => exact hk
  | @shutdown k' M pc hc =>
    by_cases he : k = k'
    · subst he
      rw [hk] at hc
      cases hc
    · simpa [he] using hk

/-- Nothing is registered and nothing waits. -/
structure Over (s : Teardown) : Prop where
  pending : s.manager.pending = ∅
  streams : s.manager.streams = ∅
  waits : ∀ t, (s.manager.tunnels t).phase = .awaitConnect → (s.manager.tunnels t).answer ≠ none

theorem over_of_returned (h : ((lts chunk).restrict Orderly).Reachable s)
    (hk : s.calls k = .returned) : Over s := by
  have hf := final_run h
  have hpending := hf.pending k (by rw [hk]; rfl)
  have hstreams := hf.streams k (by rw [hk]; rfl)
  refine ⟨Finmap.ext_lookup fun i => ?_, Finmap.ext_lookup fun i => ?_, fun t hp ha => ?_⟩
  · rw [Finmap.lookup_empty]
    exact hpending i
  · rw [Finmap.lookup_empty]
    exact hstreams i
  · have hw := expected_run h.of_restrict t ⟨.inr (.inr hp), ha⟩
    rw [hpending] at hw
    cases hw

/-- If no tunnel is on its way when a shutdown drains the maps, and none is bridged afterwards, then
from its return on both maps are empty, and no tunnel waits for its connect. -/
theorem shutdown_final (h : ((lts chunk).restrict Orderly).Reachable s)
    (hk : s.calls k = .returned) :
    Over s ∧ ∀ es t, ((lts chunk).restrict Orderly).MTr s es t → Over t := by
  refine ⟨over_of_returned h hk, fun es t hr => ?_⟩
  induction hr with
  | refl => exact over_of_returned h hk
  | stepL hs _ ih => exact ih (h.step hs) (returned_step hs.1 hk)

section Runs

variable {C : Teardown → Unit → Teardown → Prop} {target : String}

/-- A call of `shutdown` from beginning to end. -/
theorem shutdown_run (h : ((lts chunk).restrict C).Reachable s) (hk : s.calls k = .absent)
    (hC : ∀ s₁ s₂ : Teardown, (∀ t, (s₁.manager.tunnels t).phase = (s.manager.tunnels t).phase) →
      s₁.manager.started = s.manager.started → s₂.manager.started = s.manager.started →
      C s₁ () s₂) :
    ((lts chunk).restrict C).Reachable
      ⟨s.manager.drainPending.drainStreams.resetSlots, Function.update s.calls k .returned⟩ := by
  have hstep : ∀ {s₁ : Teardown} {pc pc' : ShutdownPc} {M : ConnectorManager},
      ((lts chunk).restrict C).Reachable s₁ → s₁.calls k = pc →
      (∀ t, (s₁.manager.tunnels t).phase = (s.manager.tunnels t).phase) →
      s₁.manager.started = s.manager.started → ShutdownPc.Step s₁.manager pc M pc' →
      M.started = s.manager.started →
      ((lts chunk).restrict C).Reachable ⟨M, Function.update s₁.calls k pc'⟩ := by
    rintro s₁ _ pc' M hr rfl hph h1 hs h2
    exact hr.step ⟨.shutdown hs, hC _ _ hph h1 h2⟩
  have h₁ := hstep h hk (fun _ => rfl) rfl .call rfl
  have h₂ := hstep h₁ (Function.update_self ..) (fun _ => rfl) rfl .drainPending rfl
  have h₃ := hstep h₂ (Function.update_self ..) (fun _ => drainPending_phase) rfl .drainStreams rfl
  have h₄ := hstep h₃ (Function.update_self ..)
    (fun _ => drainStreams_phase.trans drainPending_phase) rfl .resetSlots rfl
  simpa only [Function.update_idem] using h₄

/-- The first tunnel of a session is bridged. -/
theorem bridge_run (chunk : Nat) (target : String)
    (hC : ∀ M, C {} () { manager := M }) : ∃ M : ConnectorManager,
      ((lts chunk).restrict C).Reachable { manager := M } ∧ M.started = 1 ∧
      M.nextStreamId = 1 ∧ M.linkOpen = true ∧ (∀ i, M.waiterOf i = none) ∧
      (∀ i, M.streamOf i = none) ∧ M.tunnels 0 = { target := target } := by
  have h₀ : ((lts chunk).restrict C).Reachable {} := .init rfl
  have hr : tryReserveStreamSlot {} = some { activeStreams := 1 } := rfl
  have hbridge : ConnectorManager.Step chunk {} .internal (spawnTunnel _ target) := .bridge hr
  refine ⟨_, h₀.step ⟨.manager hbridge, hC _⟩, rfl, rfl, rfl, fun i => Finmap.lookup_empty i,
    fun i => Finmap.lookup_empty i, rfl⟩

/-- It registers and sends its Connect. -/
theorem register_run {M : ConnectorManager} {calls : Nat → ShutdownPc}
    (h : ((lts chunk).restrict C).Reachable ⟨M, calls⟩) (hst : M.started = 1)
    (ht : M.tunnels 0 = { target := target }) (hn : M.nextStreamId = 1) (hl : M.linkOpen = true)
    (hs : M.streamOf 1 = none)
    (hC : ∀ M₁ M₂ : ConnectorManager, M₂.started = M₁.started → C ⟨M₁, calls⟩ () ⟨M₂, calls⟩) :
    ∃ M' : ConnectorManager, ((lts chunk).restrict C).Reachable ⟨M', calls⟩ ∧
      M'.started = 1 ∧ M'.waiterOf 1 = some 0 ∧ M'.streamOf 1 = some 0 ∧
      (M'.tunnels 0).phase = .awaitConnect := by
  have hstep : ∀ {M₁ M₂ : ConnectorManager} {e : Event},
      ((lts chunk).restrict C).Reachable ⟨M₁, calls⟩ → ConnectorManager.Step chunk M₁ e M₂ →
      M₂.started = M₁.started → ((lts chunk).restrict C).Reachable ⟨M₂, calls⟩ :=
    fun hr h hs => hr.step ⟨.manager h, hC _ _ hs⟩
  have h₁ := hstep h (.fetchId (t := 0) (by omega) (by rw [ht])) (by simp)
  have hfree : ((M.fetchStreamId 0).tunnels 0).id ∉ (M.fetchStreamId 0).streams := by
    rw [← Finmap.lookup_eq_none, fetchStreamId_tunnels, if_pos rfl, hn]
    exact hs
  have h₂ := hstep h₁ (.idFree (t := 0) (by simp) hfree) (by simp)
  have h₃ := hstep h₂ (.insertPending (t := 0) (by simp)) (by simp)
  have h₄ := hstep h₃ (.insertStream (t := 0) (by simp)) (by simp)
  have h₅ := hstep h₄ (.tunnelSend (t := 0) (.connectSent (by simp)) (by simp [hl])) (by simp)
  refine ⟨_, h₅, by simp [hst], ?_, ?_, by simp⟩
  · simp [insertPending_waiterOf, hn]
  · simp [hn]

/-- A session is shut down while its tunnel waits for its connect. -/
theorem shutdown_final_waiting : ∃ s : Teardown,
    ((lts tunnelReadChunk).restrict Orderly).Reachable s ∧ s.calls 0 = .returned ∧
    (s.manager.tunnels 0).phase = .awaitConnect ∧ Over s := by
  have hquiet : ∀ s₁ s₂ : Teardown, s₁.calls = s₂.calls →
      (∀ k, (s₁.calls k).pendingDrained = false) → Orderly s₁ () s₂ := by
    intro s₁ s₂ hc hn
    refine ⟨fun k _ hk => ?_, fun k hk => ?_⟩
    · rw [← hc, hn k] at hk
      cases hk
    · rw [hn k] at hk
      cases hk
  obtain ⟨M, hr, hst, hn, hl, -, hs, ht⟩ := bridge_run tunnelReadChunk "http://10.0.0.5:8080"
    (C := Orderly) fun M => hquiet _ _ rfl fun _ => rfl
  obtain ⟨M', hr', hst', -, -, hph⟩ := register_run hr hst ht hn hl (hs 1)
    fun M₁ M₂ _ => hquiet _ _ rfl fun _ => rfl
  have hdown := shutdown_run (k := 0) hr' rfl fun s₁ s₂ hphase h1 h2 => by
    refine ⟨fun k _ _ t ht => ?_, fun k _ hlt => by omega⟩
    obtain ⟨hlt, hearly⟩ := ht
    rw [h1, show (Teardown.mk M' fun _ => .absent).manager.started = 1 from hst'] at hlt
    obtain rfl : t = 0 := by omega
    rw [hphase, hph] at hearly
    cases hearly
  exact ⟨_, hdown, rfl, drainStreams_phase.trans (drainPending_phase.trans hph),
    (shutdown_final (k := 0) hdown rfl).1⟩

/-- A tunnel that was bridged before the shutdown registers after it, on a session that is over, and
waits for its connect. -/
theorem registered_after_shutdown : ∃ s : Teardown, (lts tunnelReadChunk).Reachable s ∧
    s.calls 0 = .returned ∧ s.manager.waiterOf 1 = some 0 ∧ s.manager.streamOf 1 = some 0 ∧
    (s.manager.tunnels 0).phase = .awaitConnect := by
  obtain ⟨M, hr, hst, hn, hl, hw, hs, ht⟩ := bridge_run tunnelReadChunk "http://10.0.0.5:8080"
    (C := fun _ _ _ => True) fun _ => trivial
  have hdown := shutdown_run (k := 0) hr rfl fun _ _ _ _ _ => trivial
  have htunnel : (M.drainPending.drainStreams.resetSlots).tunnels 0 =
      { target := "http://10.0.0.5:8080" } := by
    have hpending : M.drainPending.tunnels 0 = M.tunnels 0 := by simp [drainPending, hw]
    have hstreams : ∀ i, M.drainPending.streamOf i = none := hs
    simp only [resetSlots, drainStreams, hstreams, reduceCtorEq, and_false, exists_false, if_false,
      hpending, ht]
  obtain ⟨M', hr', -, hwait, hstream, hph⟩ := register_run hdown hst htunnel hn hl
    (Finmap.lookup_empty 1) fun _ _ _ => trivial
  exact ⟨_, hr'.of_restrict, rfl, hwait, hstream, hph⟩

end Runs

end Teardown

end X2rp.Wss
