import X2rp.Wss.Slots

/-! The end of a `remove_stream`: what a call that has taken an entry still does, that it does it,
and what the counter and the maps say once it has. -/
namespace X2rp.Wss.ConnectorManager

open Proto

variable {s s' : ConnectorManager} {chunk : Nat} {e : Event} {t u : Nat} {i : UInt32}

section Tail

/-- What the calls of `remove_stream` under way have left to do, and nothing else: give a slot back,
and fail the connect. -/
inductive Tail : ConnectorManager → ConnectorManager → Prop
  | release {s : ConnectorManager} {id : UInt32} {t : Nat} (h : (id, t) ∈ s.releasing) :
      Tail s (s.freeRemoved id t)
  | failPending {s : ConnectorManager} {id : UInt32} (h : id ∈ s.failing) : Tail s (s.failPending id)

theorem Tail.step (h : Tail s s') : Step chunk s .internal s' := by
  cases h with
  | release h => exact .release h
  | failPending h => exact .failPending h

/-- The statements that are still to run. -/
def tailLength (s : ConnectorManager) : Nat := 2 * s.releasing.length + s.failing.length

theorem Tail.tailLength (h : Tail s s') : s'.tailLength + 1 = s.tailLength := by
  cases h with
  | release h =>
    have hpos := List.length_pos_of_mem h
    simp only [ConnectorManager.tailLength, freeRemoved_fields, List.length_erase_of_mem h,
      List.length_cons]
    omega
  | failPending h =>
    have hpos := List.length_pos_of_mem h
    simp only [ConnectorManager.tailLength, failPending_fields, List.length_erase_of_mem h]
    omega

theorem exists_tail (h : s.tailLength ≠ 0) : ∃ s', Tail s s' := by
  cases hr : s.releasing with
  | cons entry rest =>
    have hmem : (entry.1, entry.2) ∈ s.releasing := by
      rw [hr]
      exact List.mem_cons_self
    exact ⟨_, .release hmem⟩
  | nil =>
    cases hf : s.failing with
    | cons id rest =>
      have hmem : id ∈ s.failing := by
        rw [hf]
        exact List.mem_cons_self
      exact ⟨_, .failPending hmem⟩
    | nil => simp [tailLength, hr, hf] at h

theorem tailLength_eq_zero : s.tailLength = 0 ↔ s.releasing = [] ∧ s.failing = [] := by
  rw [tailLength, ← List.length_eq_zero_iff, ← List.length_eq_zero_iff]
  omega

/-- The removals under way come to their end by their own steps. -/
theorem exists_drained (s : ConnectorManager) :
    ∃ s', Relation.ReflTransGen Tail s s' ∧ s'.releasing = [] ∧ s'.failing = [] := by
  induction hn : s.tailLength generalizing s with
  | zero => exact ⟨s, .refl, tailLength_eq_zero.mp hn⟩
  | succ n ih =>
    obtain ⟨s₁, h₁⟩ := exists_tail (s := s) (by omega)
    obtain ⟨s', h', hend⟩ := ih s₁ (by have := h₁.tailLength; omega)
    exact ⟨s', .head h₁ h', hend⟩

/-- What no `remove_stream` touches after it has taken its entry. -/
structure Settled (s s' : ConnectorManager) : Prop where
  started : s'.started = s.started
  streams : s'.streams = s.streams
  phase : ∀ t, (s'.tunnels t).phase = (s.tunnels t).phase
  id : ∀ t, (s'.tunnels t).id = (s.tunnels t).id

theorem Tail.settled (h : Tail s s') : Settled s s' := by
  cases h with
  | release h => exact ⟨rfl, rfl, fun _ => rfl, fun _ => rfl⟩
  | failPending h => constructor <;> simp

theorem settled_of_tails (h : Relation.ReflTransGen Tail s s') : Settled s s' := by
  induction h with
  | refl => exact ⟨rfl, rfl, fun _ => rfl, fun _ => rfl⟩
  | tail _ hs ih =>
    have hs := hs.settled
    exact ⟨hs.started.trans ih.started, hs.streams.trans ih.streams,
      fun t => (hs.phase t).trans (ih.phase t), fun t => (hs.id t).trans (ih.id t)⟩

theorem reachable_of_tails (h : (lts chunk).Reachable s) (ht : Relation.ReflTransGen Tail s s') :
    (lts chunk).Reachable s' := by
  induction ht with
  | refl => exact h
  | tail _ hs ih => exact ih.step hs.step

/-- Nobody else takes a removal over: it is under way until its own next step. -/
theorem releasing_step (hs : Step chunk s e s') (h : (i, t) ∈ s.releasing) :
    (i, t) ∈ s'.releasing ∨ s' = s.freeRemoved i t := by
  cases slotMove_step hs with
  | same hsame => exact .inl (hsame.releasing ▸ h)
  | @remove s₁ _ j hbefore hafter =>
    have h : (i, t) ∈ s₁.releasing := hbefore.releasing ▸ h
    rw [hafter.releasing]
    exact .inl (shrinks_removeStream.releasing h)
  | bridge hr =>
    obtain ⟨-, rfl⟩ := tryReserveStreamSlot_eq hr
    exact .inl (by simpa using h)
  | fetchId => exact .inl (by simpa using h)
  | idInUse => exact .inl (by simpa using h)
  | insertStream => exact .inl (by simpa using h)
  | @release j u hm =>
    by_cases hj : (i, t) = (j, u)
    · cases hj
      exact .inr rfl
    · exact .inl (by simpa using (List.mem_erase_of_ne hj).mpr h)

/-- A slot on its way back is that of a task without an entry. -/
theorem Tracked.releasing_spec (h : Tracked s) (hm : (i, t) ∈ s.releasing) :
    t < s.started ∧ (s.tunnels t).id = i ∧ (s.tunnels t).phase.early = false ∧
      s.streamOf i ≠ some t := by
  obtain ⟨L, hL, hsim⟩ := h.ledger
  obtain ⟨hid, hst⟩ := hsim.of_releasing hm
  have hc := Permits.Ledger.counted_of_reachable hL
  refine ⟨hsim.started ▸ hc.lt (by simp [hst]), hid, hsim.not_early hc (by simp [hst]) (by simp [hst]),
    fun hi => ?_⟩
  simpa [hst] using (((hsim.slot t).listed i).mp hi).2

/-- At its end a removal has given its slot back, once. -/
theorem released_of_tails (h : (lts chunk).Reachable s) (hw : s.started < 2 ^ 32)
    (ht : Relation.ReflTransGen Tail s s') (hend : s'.releasing = []) (hm : (i, t) ∈ s.releasing) :
    s'.released t = 1 := by
  obtain ⟨hlt, hid, hearly, hout⟩ := (tracked_of_reachable h hw).releasing_spec hm
  have hset := settled_of_tails ht
  have hT := tracked_of_reachable (reachable_of_tails h ht) (hset.started ▸ hw)
  have hone := hT.slot_once (hset.started ▸ hlt : t < s'.started)
  have hout : s'.streamOf (s'.tunnels t).id ≠ some t := by
    rw [hset.id, hid, streamOf, hset.streams]
    exact hout
  simpa [hset.phase, hearly, hout, hend] using hone

end Tail

section Runs

/-- What a task itself keeps, whatever the manager does to the cells it shares with it. -/
def SameTask (T T' : Tunnel) : Prop :=
  T'.phase = T.phase ∧ T'.id = T.id ∧ T'.download = T.download ∧ T'.upload.pc = T.upload.pc

/-- The entry of `i` is gone, the slot of its task is free, and its connect has been failed. -/
structure Cleared (i : UInt32) (t : Nat) (s s' : ConnectorManager) : Prop where
  started : s'.started = s.started
  next : s'.nextStreamId = s.nextStreamId
  active : s'.activeStreams = s.activeStreams - 1
  released : s'.released t = s.released t + 1
  task : ∀ u, SameTask (s.tunnels u) (s'.tunnels u)
  streamOf : ∀ j, s'.streamOf j = if j = i then none else s.streamOf j
  waiterOf : ∀ j, s'.waiterOf j = if j = i then none else s.waiterOf j
  idle : s'.reading = s.reading ∧ s'.releasing = s.releasing ∧ s'.failing = s.failing ∧
    s'.spawned = s.spawned

/-- A `remove_stream` that has found its entry, to its end. -/
theorem clear_run (chunk : Nat) (hi : s.streamOf i = some t) :
    ∃ s', (lts chunk).MTr (s.removeStream i) [.internal, .internal] s' ∧ Cleared i t s s' := by
  have hrel : (s.removeStream i).releasing = (i, t) :: s.releasing := by rw [removeStream_some hi]
  have h1 : Step chunk (s.removeStream i) .internal ((s.removeStream i).freeRemoved i t) := by
    refine .release ?_
    rw [hrel]
    exact List.mem_cons_self
  have h2 : Step chunk ((s.removeStream i).freeRemoved i t) .internal
      (((s.removeStream i).freeRemoved i t).failPending i) := .failPending (by simp)
  refine ⟨_, .stepL h1 (.stepL h2 .refl), by simp, by simp, by simp, by simp, fun u => ?_, fun j => ?_,
    fun j => ?_, by simp [hrel]⟩
  · have hT : (s.removeStream i).tunnels u = _ := removeStream_tunnels
    rw [SameTask, failPending_tunnels, freeRemoved_fields.1, hT]
    split <;> split <;> simp [Tunnel.closeCredit]
  · rw [failPending_streamOf, freeRemoved_streamOf, removeStream_streamOf]
  · rw [failPending_waiterOf, freeRemoved_waiterOf, removeStream_waiterOf]

/-- One more tunnel has come and gone. -/
structure Passed (s s' : ConnectorManager) : Prop where
  started : s'.started = s.started + 1
  next : s'.nextStreamId = s.nextStreamId + 1
  active : s'.activeStreams = s.activeStreams
  ended : (s'.tunnels s.started).phase = .ended
  released : s'.released s.started = s.released s.started + 1
  task : ∀ u, u ≠ s.started → SameTask (s.tunnels u) (s'.tunnels u)
  streamOf : ∀ i, s'.streamOf i = s.streamOf i
  waiterOf : ∀ i, s'.waiterOf i = s.waiterOf i
  idle : s'.reading = s.reading ∧ s'.releasing = s.releasing ∧ s'.failing = s.failing ∧
    s'.spawned = s.spawned

/-- A tunnel that registers and cannot send its Connect. -/
theorem pass_run (chunk : Nat) (ha : s.activeStreams < maxActiveStreams)
    (hs : s.streamOf s.nextStreamId = none) (hw : s.waiterOf s.nextStreamId = none) :
    ∃ s', (lts chunk).MTr s (List.replicate 9 .internal) s' ∧ Passed s s' := by
  obtain ⟨s₁, hopen, ho⟩ := open_run chunk "" ha hs hw
  have hT : s₁.tunnels s.started = { target := "", id := s.nextStreamId, phase := .sendConnect } := by
    simp [ho.tunnels]
  have h1 : Step chunk s₁ .internal _ := .tunnel (t := s.started) (.connectUnsent (by rw [hT]))
  have h2 : Step chunk _ .internal _ := .tunnelRemove (t := s.started)
    (s := s₁.setTunnel s.started { s₁.tunnels s.started with phase := .unsent })
    (.removeUnsent (by simp))
  simp only [setTunnel_self, hT] at h1 h2
  have hi : ((s₁.setTunnel s.started { target := "", id := s.nextStreamId, phase := .unsent }).setTunnel
      s.started { target := "", id := s.nextStreamId, phase := .ended }).streamOf s.nextStreamId =
        some s.started := by
    simp [ho.streamOf]
  obtain ⟨s', hclear, hc⟩ := clear_run chunk hi
  refine ⟨s', hopen.trans (.stepL h1 (.stepL h2 hclear)), ?_⟩
  constructor
  · simp [hc.started, ho.started]
  · simp [hc.next, ho.next]
  · simp [hc.active, ho.active]
  · simpa using (hc.task s.started).1
  · simp [hc.released, ho.released]
  · intro u hu
    have h := hc.task u
    simpa [ho.tunnels, hu] using h
  · intro i
    have h := hc.streamOf i
    simp only [setTunnel_streamOf, ho.streamOf] at h
    rw [h]
    split
    · rename_i he
      rw [he, hs]
    · rfl
  · intro i
    have h := hc.waiterOf i
    simp only [setTunnel_waiterOf, ho.waiterOf] at h
    rw [h]
    split
    · rename_i he
      rw [he, hw]
    · rfl
  · simpa [ho.idle] using hc.idle

end Runs

/-- A pending connect without an entry is that of a tunnel between its two inserts, or of a removal
under way. -/
theorem pending_cases (h : (lts chunk).Reachable s) (hw : s.started < 2 ^ 32) (hi : i ∈ s.pending) :
    i ∈ s.streams ∨
      (∃ t < s.started, (s.tunnels t).phase = .insertStream ∧ (s.tunnels t).id = i) ∨
      (∃ t, (i, t) ∈ s.releasing) ∨ i ∈ s.failing := by
  obtain ⟨t, ht⟩ := Finmap.mem_iff.mp hi
  obtain ⟨hid, hp | ⟨-, hk | hk | hk⟩⟩ := (kept_of_reachable h hw).2 i t ht
  · have hlt : t < s.started := by
      by_contra hn
      simp [(tracked_of_reachable h hw).ids.idle t (by omega)] at hp
    exact .inr (.inl ⟨t, hlt, hp, hid⟩)
  · exact .inl (Finmap.mem_iff.mpr ⟨t, hk⟩)
  · exact .inr (.inr (.inl ⟨t, hk⟩))
  · exact .inr (.inr (.inr hk))

theorem released_of_ended (h : (lts chunk).Reachable s) (hw : s.started < 2 ^ 32) (ht : t < s.started)
    (hp : (s.tunnels t).phase = .ended) :
    s.released t + s.releasing.count ((s.tunnels t).id, t) = 1 := by
  have hone := (tracked_of_reachable h hw).slot_once ht
  have hout : s.streamOf (s.tunnels t).id ≠ some t :=
    fun hi => ((kept_of_reachable h hw).1 _ t hi).2 hp
  simpa [hp, hout, Phase.early] using hone

/-- Slot accounting, for any connector at the other end. While no `remove_stream` is between two of
its statements, the counter is the registered tunnels and those not registered yet, a pending connect
has an entry or is between its two inserts, and an ended tunnel has given its slot back, once; no
tunnel ever does so twice. A removal between two statements counts until its slot is back; it stays
under way until it takes its own next step, and by such steps all of them come to their end, at which
each has given back the one slot. -/
theorem slot_accounting (h : (lts chunk).Reachable s) (hw : s.started < 2 ^ 32) :
    s.activeStreams ≤ maxActiveStreams ∧ (∀ t < s.started, s.released t ≤ 1) ∧
    (s.releasing = [] → s.activeStreams = s.streams.keys.card + s.reserved.card ∧
      (∀ t < s.started, (s.tunnels t).phase = .ended → s.released t = 1) ∧
      (s.failing = [] → ∀ i ∈ s.pending, i ∈ s.streams ∨
        ∃ t < s.started, (s.tunnels t).phase = .insertStream ∧ (s.tunnels t).id = i)) ∧
    s.activeStreams = s.streams.keys.card + s.reserved.card + s.releasing.length ∧
    (∀ e s' i t, Step chunk s e s' → (i, t) ∈ s.releasing →
      (i, t) ∈ s'.releasing ∨ s' = s.freeRemoved i t) ∧
    (∃ s', Relation.ReflTransGen Tail s s' ∧ s'.releasing = [] ∧ s'.failing = []) ∧
    ∀ s', Relation.ReflTransGen Tail s s' → s'.releasing = [] →
      s'.activeStreams = s'.streams.keys.card + s'.reserved.card ∧
      ∀ i t, (i, t) ∈ s.releasing → s'.released t = 1 := by
  have hT := tracked_of_reachable h hw
  refine ⟨hT.activeStreams_le, fun t ht => ?_, fun hr => ⟨?_, fun t ht hp => ?_, fun hf i hi => ?_⟩,
    hT.activeStreams_eq, fun e s' i t hs => releasing_step hs, exists_drained s, fun s' ht hr => ⟨?_, ?_⟩⟩
  · have := hT.slot_once ht
    omega
  · simpa [hr] using hT.activeStreams_eq
  · simpa [hr] using released_of_ended h hw ht hp
  · simpa [hr, hf] using pending_cases h hw hi
  · have hT' := tracked_of_reachable (reachable_of_tails h ht) ((settled_of_tails ht).started ▸ hw)
    simpa [hr] using hT'.activeStreams_eq
  · intro i t
    exact released_of_tails h hw ht hr

/-- A tunnel that could not send its Connect has come and gone, and another one stands. -/
theorem slot_accounting_freed : ∃ s : ConnectorManager,
    (lts tunnelReadChunk).Reachable s ∧ s.started = 2 ∧ (s.tunnels 0).phase = .ended ∧
    s.released 0 = 1 ∧ s.streamOf 2 = some 1 ∧ s.activeStreams = 1 ∧
    s.activeStreams = s.streams.keys.card + s.reserved.card := by
  obtain ⟨s₁, hpass, hp⟩ := pass_run (s := {}) tunnelReadChunk (by decide) rfl rfl
  have hnext : s₁.nextStreamId = 2 := hp.next
  have hstarted : s₁.started = 1 := hp.started
  obtain ⟨s, hopen, ho⟩ := open_run (s := s₁) tunnelReadChunk "http://localhost:80"
    (by rw [hp.active]; decide) (hp.streamOf _) (hp.waiterOf _)
  have hr : (lts tunnelReadChunk).Reachable s := (LTS.Reachable.trans (.init rfl) hpass).trans hopen
  have hst : s.started = 2 := by rw [ho.started, hstarted]
  have hended : (s.tunnels 0).phase = .ended := by
    rw [ho.tunnels, if_neg (by omega)]
    exact hp.ended
  have hrel : s.releasing = [] := ho.idle.2.1.trans hp.idle.2.1
  obtain ⟨-, -, hquiet, -⟩ := slot_accounting hr (by omega)
  obtain ⟨hcount, honce, -⟩ := hquiet hrel
  refine ⟨s, hr, hst, hended, honce 0 (by omega) hended, ?_, ?_, hcount⟩
  · rw [ho.streamOf, if_pos hnext.symm, hstarted]
  · rw [ho.active, hp.active]

end X2rp.Wss.ConnectorManager
