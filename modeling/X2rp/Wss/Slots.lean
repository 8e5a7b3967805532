import X2rp.Permits
import X2rp.Wss.ConnectorManager

/-! Slot accounting: every tunnel's slot goes through the life of a permit, whatever the
connector sends. -/
namespace X2rp.Wss.ConnectorManager

open Proto Permits

variable {s s' : ConnectorManager} {L : Ledger} {chunk : Nat} {e : Event} {t u : Nat}
  {i j : UInt32} {T : Tunnel} {answer : Answer} {p : Bytes} {m : Message}

/-- The tunnels that have drawn a stream id. -/
def allocated (s : ConnectorManager) : Finset Nat :=
  (Finset.range s.started).filter fun t => (s.tunnels t).phase ≠ .fetchId

/-- The tunnels that hold a slot and are not in `streams` yet. -/
def reserved (s : ConnectorManager) : Finset Nat :=
  (Finset.range s.started).filter fun t => (s.tunnels t).phase.early

@[simp] theorem mem_allocated :
    t ∈ s.allocated ↔ t < s.started ∧ (s.tunnels t).phase ≠ .fetchId := by
  rw [allocated, Finset.mem_filter, Finset.mem_range]

@[simp] theorem mem_reserved :
    t ∈ s.reserved ↔ t < s.started ∧ (s.tunnels t).phase.early = true := by
  rw [reserved, Finset.mem_filter, Finset.mem_range]

/-- Ids are drawn in counting order, so no two tunnels have the same one. -/
structure Ids (s : ConnectorManager) : Prop where
  idle : ∀ t, s.started ≤ t → (s.tunnels t).phase = .fetchId
  next : s.nextStreamId = UInt32.ofNat (1 + s.allocated.card)
  drawn : ∀ t, (s.tunnels t).phase ≠ .fetchId →
    ∃ k < s.allocated.card, (s.tunnels t).id = UInt32.ofNat (1 + k)
  unique : ∀ t u, (s.tunnels t).phase ≠ .fetchId → (s.tunnels u).phase ≠ .fetchId →
    (s.tunnels t).id = (s.tunnels u).id → t = u

/-- What the manager's maps, lists and counts say about the slot of tunnel `t`. -/
structure SlotAt (s : ConnectorManager) (t : Nat) (σ : Stage) : Prop where
  early : σ = .reserved ↔ t < s.started ∧ (s.tunnels t).phase.early = true
  listed : ∀ i, s.streamOf i = some t ↔ (s.tunnels t).id = i ∧ σ = .listed
  leaving : ∀ i, s.releasing.count (i, t) =
    if (s.tunnels t).id = i ∧ σ = .leaving then 1 else 0
  freed : s.released t = if σ = .freed then 1 else 0

/-- The manager read as a ledger of permits. -/
structure Sim (s : ConnectorManager) (L : Ledger) : Prop where
  started : L.started = s.started
  inUse : L.inUse = s.activeStreams
  slot : ∀ t, SlotAt s t (L.stage t)

/-- Some run of the permit pool accounts for the manager's state. -/
structure Tracked (s : ConnectorManager) : Prop where
  ids : Ids s
  ledger : ∃ L, (Ledger.lts maxActiveStreams).Reachable L ∧ Sim s L

/-- Two states whose tunnels have drawn the same ids. -/
structure SameIds (s s' : ConnectorManager) : Prop where
  started : s'.started = s.started
  next : s'.nextStreamId = s.nextStreamId
  id : ∀ t, (s'.tunnels t).id = (s.tunnels t).id
  fetch : ∀ t, (s'.tunnels t).phase = .fetchId ↔ (s.tunnels t).phase = .fetchId

/-- Two states that differ in nothing the slots depend on. -/
structure SameSlots (s s' : ConnectorManager) : Prop extends SameIds s s' where
  active : s'.activeStreams = s.activeStreams
  stream : ∀ i, s'.streamOf i = s.streamOf i
  releasing : s'.releasing = s.releasing
  released : s'.released = s.released
  early : ∀ t, (s'.tunnels t).phase.early = (s.tunnels t).phase.early

section SameSlots

theorem SameIds.allocated (h : SameIds s s') : s'.allocated = s.allocated := by
  ext t
  simp [h.started, h.fetch t]

theorem SameIds.ids (h : SameIds s s') (hs : Ids s) : Ids s' where
  idle t ht := (h.fetch t).mpr (hs.idle t (h.started ▸ ht))
  next := by rw [h.next, h.allocated, hs.next]
  drawn t ht := by
    rw [h.id t, h.allocated]
    exact hs.drawn t ((h.fetch t).not.mp ht)
  unique t u ht hu he := by
    rw [h.id t, h.id u] at he
    exact hs.unique t u ((h.fetch t).not.mp ht) ((h.fetch u).not.mp hu) he

theorem SameSlots.sim (h : SameSlots s s') (hs : Sim s L) : Sim s' L where
  started := by rw [h.started, hs.started]
  inUse := by rw [h.active, hs.inUse]
  slot t := by
    obtain ⟨h1, h2, h3, h4⟩ := hs.slot t
    refine ⟨?_, fun i => ?_, fun i => ?_, ?_⟩
    · rw [h1, h.started, h.early t]
    · rw [h.stream i, h2 i, h.id t]
    · rw [h.releasing, h3 i, h.id t]
    · rw [h.released, h4]

theorem SameSlots.tracked (h : SameSlots s s') (hs : Tracked s) : Tracked s' := by
  obtain ⟨L, hL, hsim⟩ := hs.ledger
  exact ⟨h.toSameIds.ids hs.ids, L, hL, h.sim hsim⟩

theorem sameSlots_setTunnel (hid : T.id = (s.tunnels t).id)
    (hf : T.phase = .fetchId ↔ (s.tunnels t).phase = .fetchId)
    (he : T.phase.early = (s.tunnels t).phase.early) : SameSlots s (s.setTunnel t T) := by
  refine ⟨⟨by simp, by simp, fun u => ?_, fun u => ?_⟩, by simp, by simp, by simp, by simp,
    fun u => ?_⟩ <;> by_cases hu : u = t <;> simp_all

theorem sameSlots_phase (hid : T.id = (s.tunnels t).id) (hp : T.phase = (s.tunnels t).phase) :
    SameSlots s (s.setTunnel t T) :=
  sameSlots_setTunnel hid (by rw [hp]) (by rw [hp])

theorem sameSlots_setPhase {ph : Phase} (hf : ph = .fetchId ↔ (s.tunnels t).phase = .fetchId)
    (he : ph.early = (s.tunnels t).phase.early) : SameSlots s (s.setPhase t ph) :=
  sameSlots_setTunnel rfl hf he

theorem sameSlots_tunnelStep {a : Act} (h : Tunnel.Step chunk (s.tunnels t) a T) :
    SameSlots s (s.setTunnel t T) := by
  obtain ⟨h1, h2⟩ := Tunnel.step_not_early h
  refine sameSlots_setTunnel (Tunnel.step_id h) ?_ (by rw [h1, h2])
  constructor <;> intro hp <;> simp [hp, Phase.early] at h1 h2

theorem sameSlots_answerPending : SameSlots s (s.answerPending i answer) :=
  ⟨by constructor <;> simp, by simp, by simp, by simp, by simp, by simp⟩

theorem SameSlots.trans {s₁ s₂ s₃ : ConnectorManager} (h : SameSlots s₁ s₂) (h' : SameSlots s₂ s₃) :
    SameSlots s₁ s₃ where
  started := h'.started.trans h.started
  next := h'.next.trans h.next
  id t := (h'.id t).trans (h.id t)
  fetch t := (h'.fetch t).trans (h.fetch t)
  active := h'.active.trans h.active
  stream i := (h'.stream i).trans (h.stream i)
  releasing := h'.releasing.trans h.releasing
  released := h'.released.trans h.released
  early t := (h'.early t).trans (h.early t)

theorem sameSlots_of_eq (ht : s'.tunnels = s.tunnels) (hs : s'.streams = s.streams)
    (hn : s'.nextStreamId = s.nextStreamId) (hst : s'.started = s.started)
    (ha : s'.activeStreams = s.activeStreams) (hr : s'.releasing = s.releasing)
    (hd : s'.released = s.released) : SameSlots s s' :=
  ⟨⟨hst, hn, by simp [ht], by simp [ht]⟩, ha, by simp [streamOf, hs], hr, hd, by simp [ht]⟩

theorem sameSlots_insertPending (hp : (s.tunnels t).phase = .insertPending) :
    SameSlots s ((s.insertPending i t).setPhase t .insertStream) := by
  have h1 : SameSlots s (s.answerPending i .cancelled) := sameSlots_answerPending
  have h2 : SameSlots s (s.insertPending i t) := h1.trans (sameSlots_of_eq rfl rfl rfl rfl rfl rfl rfl)
  exact h2.trans (sameSlots_setPhase (by simp [hp]) (by simp [hp, Phase.early]))

/-- What a step can do to the slots: nothing, a removal, or one move of a tunnel's own slot. -/
inductive SlotMove (s : ConnectorManager) : ConnectorManager → Prop
  | same {s' : ConnectorManager} (h : SameSlots s s') : SlotMove s s'
  | remove {s₁ s' : ConnectorManager} {i : UInt32} (h : SameSlots s s₁)
      (h' : SameSlots (s₁.removeStream i) s') : SlotMove s s'
  | bridge {s₁ : ConnectorManager} {target : String} (hr : s.tryReserveStreamSlot = some s₁) :
      SlotMove s (s₁.spawnTunnel target)
  | fetchId {t : Nat} (ht : t < s.started) (hp : (s.tunnels t).phase = .fetchId) :
      SlotMove s (s.fetchStreamId t)
  | idInUse {t : Nat} (hp : (s.tunnels t).phase = .checkId) (hi : (s.tunnels t).id ∈ s.streams) :
      SlotMove s (s.setPhase t .fetchId)
  | insertStream {t : Nat} (hp : (s.tunnels t).phase = .insertStream) :
      SlotMove s ((s.insertStream (s.tunnels t).id t).setPhase t .sendConnect)
  | release {i : UInt32} {t : Nat} (hm : (i, t) ∈ s.releasing) : SlotMove s (s.freeRemoved i t)

theorem sameSlots_refl : SameSlots s s := sameSlots_of_eq rfl rfl rfl rfl rfl rfl rfl

theorem Handled.slotMove (h : Handled s m s') : SlotMove s s' := by
  have hadd : ∀ t n, SameSlots s (s.setTunnel t ((s.tunnels t).addOutstanding n)) := by
    intro t n
    exact sameSlots_phase rfl rfl
  cases h with
  | ignored => exact .same sameSlots_refl
  | answered _ => exact .same sameSlots_answerPending
  | removed _ => exact .remove sameSlots_refl sameSlots_refl
  | granted _ => exact .same (sameSlots_phase rfl rfl)
  | exceeded _ _ => exact .remove (hadd _ _) (sameSlots_of_eq rfl rfl rfl rfl rfl rfl rfl)
  | within _ _ => exact .same ((hadd _ _).trans (sameSlots_of_eq rfl rfl rfl rfl rfl rfl rfl))

theorem slotMove_deliver : SlotMove s (s.deliver i t p) := by
  by_cases hp : (s.tunnels t).phase = .ended
  · rw [deliver_ended hp]
    have h1 : SameSlots s { s with reading := none } := sameSlots_of_eq rfl rfl rfl rfl rfl rfl rfl
    exact .remove h1 sameSlots_refl
  · rw [deliver_live hp]
    have h1 : SameSlots s (s.setTunnel t ((s.tunnels t).enqueue p)) := sameSlots_phase rfl rfl
    exact .same (h1.trans (sameSlots_of_eq rfl rfl rfl rfl rfl rfl rfl))

theorem slotMove_step (hs : Step chunk s e s') : SlotMove s s' := by
  cases hs with
  | bridge hr => exact .bridge hr
  | fetchId ht hp => exact .fetchId ht hp
  | idInUse hp hi => exact .idInUse hp hi
  | idFree hp hi => exact .same (sameSlots_setPhase (by simp [hp]) (by simp [hp, Phase.early]))
  | insertPending hp => exact .same (sameSlots_insertPending hp)
  | insertStream hp => exact .insertStream hp
  | tunnel ht => exact .same (sameSlots_tunnelStep ht)
  | tunnelSend ht hl => exact .same (sameSlots_tunnelStep ht)
  | tunnelSendFailed ht hl => exact .same (sameSlots_tunnelStep ht)
  | tunnelRemove ht => exact .remove (sameSlots_tunnelStep ht) sameSlots_refl
  | tunnelStarved ht _ _ => exact .same (sameSlots_tunnelStep ht)
  | release hm => exact .release hm
  | @failPending id hm =>
    have h1 : SameSlots s { s with failing := s.failing.erase id } :=
      sameSlots_of_eq rfl rfl rfl rfl rfl rfl rfl
    exact .same (h1.trans sameSlots_answerPending)
  | spawnedSend hm hl => exact .same (sameSlots_of_eq rfl rfl rfl rfl rfl rfl rfl)
  | spawnedFailed hm hl => exact .same (sameSlots_of_eq rfl rfl rfl rfl rfl rfl rfl)
  | recv hr => exact (handled ..).slotMove
  | deliver hr => exact slotMove_deliver
  | hangup => exact .same (sameSlots_of_eq rfl rfl rfl rfl rfl rfl rfl)

end SameSlots

section Ledger

/-- A slot that is in the table or past it belongs to a tunnel that drew its id. -/
theorem Sim.not_early (h : Sim s L) (hL : L.Counted maxActiveStreams)
    (hi : L.stage t ≠ .idle) (hr : L.stage t ≠ .reserved) : (s.tunnels t).phase.early = false := by
  have ht := h.started ▸ hL.lt hi
  have hn := (h.slot t).early.not.mp hr
  simp_all

theorem ne_fetchId (h : (s.tunnels t).phase.early = false) : (s.tunnels t).phase ≠ .fetchId := by
  intro hp
  simp [hp, Phase.early] at h

/-- A step that moves one slot is checked at that slot and framed everywhere else. -/
theorem Sim.move {L' : Ledger} {σ : Stage} (h : Sim s L) (hst : L'.started = s'.started)
    (hin : L'.inUse = s'.activeStreams) (hL : L'.stage = (L.move t σ).stage)
    (ht : SlotAt s t (L.stage t) → SlotAt s' t σ)
    (hf : ∀ u ρ, u ≠ t → SlotAt s u ρ → SlotAt s' u ρ) : Sim s' L' := by
  refine ⟨hst, hin, fun u => ?_⟩
  rw [hL, Ledger.move_stage]
  by_cases hu : u = t
  · subst hu
    simpa using ht (h.slot u)
  · simpa [hu] using hf u _ hu (h.slot u)

theorem Tracked.removeStream (h : Tracked s) : Tracked (s.removeStream i) := by
  cases hi : s.streamOf i with
  | none => rwa [removeStream_none hi]
  | some t =>
    obtain ⟨L, hL, hsim⟩ := h.ledger
    obtain ⟨hid, hst⟩ := ((hsim.slot t).listed i).mp hi
    have hids : SameIds s (s.removeStream i) := by constructor <;> simp
    have hrel : (s.removeStream i).releasing = (i, t) :: s.releasing := by
      rw [removeStream_some hi]
    refine ⟨hids.ids h.ids, _, hL.step (.take hst), hsim.move (by simpa using hsim.started)
      (by simpa using hsim.inUse) rfl ?_ ?_⟩
    · rintro ⟨h1, h2, h3, h4⟩
      rw [hst] at h1 h2 h3 h4
      refine ⟨by simpa using h1, fun j => ?_, fun j => ?_, by simpa using h4⟩
      · by_cases hj : j = i
        · simp [removeStream_streamOf, hj]
        · simp [removeStream_streamOf, hj, h2, hid, Ne.symm hj]
      · simp [hrel, List.count_cons, h3, hid]
    · rintro u ρ hu ⟨h1, h2, h3, h4⟩
      refine ⟨by simpa using h1, fun j => ?_, fun j => ?_, by simpa using h4⟩
      · by_cases hj : j = i
        · subst j
          have : s.streamOf i ≠ some u := by simp [hi, Ne.symm hu]
          simp [removeStream_streamOf, ← h2, this]
        · simp [removeStream_streamOf, hj, h2]
      · simp [hrel, h3, Ne.symm hu]

/-- A tunnel enters the table under an id that no other tunnel has. -/
theorem Tracked.insertStream (h : Tracked s) (hp : (s.tunnels t).phase = .insertStream) :
    Tracked ((s.insertStream (s.tunnels t).id t).setPhase t .sendConnect) := by
  obtain ⟨L, hL, hsim⟩ := h.ledger
  have hlt : t < s.started := by
    by_contra hn
    simp [h.ids.idle t (by omega)] at hp
  have hst : L.stage t = .reserved := (hsim.slot t).early.mpr ⟨hlt, by simp [hp, Phase.early]⟩
  have hids : SameIds s ((s.insertStream (s.tunnels t).id t).setPhase t .sendConnect) := by
    refine ⟨rfl, rfl, fun u => ?_, fun u => ?_⟩ <;> by_cases hu : u = t <;>
      simp [setPhase, hu, hp]
  refine ⟨hids.ids h.ids, _, hL.step (.enter hst), hsim.move hsim.started hsim.inUse rfl ?_ ?_⟩
  · rintro ⟨h1, h2, h3, h4⟩
    rw [hst] at h1 h2 h3 h4
    refine ⟨by simp [setPhase, Phase.early], fun j => ?_, fun j => ?_, by simpa [setPhase] using h4⟩
    · by_cases hj : j = (s.tunnels t).id
      · simp [hj, setPhase]
      · simp [hj, h2, setPhase, Ne.symm hj]
    · simpa [setPhase] using h3 j
  · rintro u ρ hu ⟨h1, h2, h3, h4⟩
    refine ⟨by simpa [setPhase, hu] using h1, fun j => ?_, fun j => ?_,
      by simpa [setPhase] using h4⟩
    · by_cases hj : j = (s.tunnels t).id
      · have : s.streamOf j ≠ some u := by
          intro hn
          obtain ⟨hid, hl⟩ := ((hsim.slot u).listed j).mp hn
          have hne := ne_fetchId (hsim.not_early (Ledger.counted_of_reachable hL)
            (by simp [hl] : L.stage u ≠ _) (by simp [hl]))
          exact hu (h.ids.unique u t hne (by simp [hp]) (hid.trans hj))
        rw [ne_eq, h2] at this
        simpa [hj, hu, setPhase, Ne.symm hu] using this
      · simp [hj, hu, h2, setPhase]
    · simpa [setPhase, hu] using h3 j

theorem Sim.of_releasing (h : Sim s L) (hm : (i, t) ∈ s.releasing) :
    (s.tunnels t).id = i ∧ L.stage t = .leaving := by
  have hc : 0 < s.releasing.count (i, t) := List.count_pos_iff.mpr hm
  by_contra hn
  simp [(h.slot t).leaving i, hn] at hc

theorem Tracked.freeRemoved (h : Tracked s) (hm : (i, t) ∈ s.releasing) :
    Tracked (s.freeRemoved i t) := by
  obtain ⟨L, hL, hsim⟩ := h.ledger
  obtain ⟨hid, hst⟩ := hsim.of_releasing hm
  have hids : SameIds s (s.freeRemoved i t) := by constructor <;> simp
  refine ⟨hids.ids h.ids, _, hL.step (.free hst), hsim.move hsim.started ?_ rfl ?_ ?_⟩
  · simp [hsim.inUse]
  · rintro ⟨h1, h2, h3, h4⟩
    rw [hst] at h1 h2 h3 h4
    refine ⟨by simpa using h1, fun j => by simpa using h2 j, fun j => ?_, by simpa using h4⟩
    by_cases hj : i = j <;> simp [List.count_erase, h3 j, hid, hj]
  · rintro u ρ hu ⟨h1, h2, h3, h4⟩
    refine ⟨h1, h2, fun j => ?_, by simpa [hu] using h4⟩
    simp [List.count_erase, h3 j, Ne.symm hu]

/-- Drawing an id is no move of a slot: the tunnel still only holds it. -/
theorem Sim.fetchId (h : Sim s L) (ht : t < s.started)
    (hp : (s.tunnels t).phase = .fetchId) :
    Sim (s.fetchStreamId t) L := by
  have hst : L.stage t = .reserved := (h.slot t).early.mpr ⟨ht, by simp [hp, Phase.early]⟩
  refine ⟨h.started, h.inUse, fun u => ?_⟩
  obtain ⟨h1, h2, h3, h4⟩ := h.slot u
  by_cases hu : u = t
  · subst hu
    rw [hst] at h1 h2 h3 h4 ⊢
    refine ⟨by simp [Phase.early, ht], fun i => ?_, fun i => ?_, h4⟩
    · simpa using h2 i
    · simpa using h3 i
  · exact ⟨by simpa [hu] using h1, fun i => by simpa [hu] using h2 i,
      fun i => by simpa [hu] using h3 i, h4⟩

theorem allocated_spawnTunnel {target : String} (hr : s.tryReserveStreamSlot = some s') :
    (s'.spawnTunnel target).allocated = s.allocated := by
  obtain ⟨-, rfl⟩ := tryReserveStreamSlot_eq hr
  ext u
  by_cases hu : u = s.started
  · simp [hu]
  · have : u < s.started + 1 ↔ u < s.started := by omega
    simp [hu, this]

theorem allocated_fetchStreamId (ht : t < s.started) :
    (s.fetchStreamId t).allocated = insert t s.allocated := by
  ext u
  by_cases hu : u = t <;> simp [hu, ht]

theorem Tracked.spawnTunnel {target : String} (h : Tracked s)
    (hr : s.tryReserveStreamSlot = some s') : Tracked (s'.spawnTunnel target) := by
  have hal : (s'.spawnTunnel target).allocated = s.allocated := allocated_spawnTunnel hr
  obtain ⟨hc, rfl⟩ := tryReserveStreamSlot_eq hr
  obtain ⟨L, hL, hsim⟩ := h.ledger
  have hidle : L.stage s.started = .idle :=
    ((Ledger.counted_of_reachable hL).idle _).mpr hsim.started.le
  refine ⟨⟨fun u hu => ?_, ?_, fun u hu => ?_, fun u v hu hv he => ?_⟩, _,
    hL.step (.reserve (hsim.inUse ▸ hc)), ?_⟩
  · have hu' : s.started + 1 ≤ u := hu
    simpa [show u ≠ s.started by omega] using h.ids.idle u (by omega)
  · rw [hal]
    exact h.ids.next
  · rw [hal]
    have hu' : u ≠ s.started := by rintro rfl; simp at hu
    simpa [hu'] using h.ids.drawn u (by simpa [hu'] using hu)
  · have hu' : u ≠ s.started := by rintro rfl; simp at hu
    have hv' : v ≠ s.started := by rintro rfl; simp at hv
    exact h.ids.unique u v (by simpa [hu'] using hu) (by simpa [hv'] using hv)
      (by simpa [hu', hv'] using he)
  · refine hsim.move (t := s.started) (σ := .reserved) (by simp [hsim.started])
      (by simp [hsim.inUse]) (by rw [hsim.started]) ?_ ?_
    · rintro ⟨h1, h2, h3, h4⟩
      rw [hidle] at h1 h2 h3 h4
      exact ⟨by simp [Phase.early], fun j => by simpa [streamOf] using h2 j,
        fun j => by simpa using h3 j, by simpa using h4⟩
    · rintro u ρ hu ⟨h1, h2, h3, h4⟩
      have hlt : u < s.started + 1 ↔ u < s.started := by omega
      exact ⟨by simpa [hu, hlt] using h1, fun j => by simpa [hu, streamOf] using h2 j,
        fun j => by simpa [hu] using h3 j, by simpa using h4⟩

end Ledger

section Ids

theorem ofNat_injective {a b : Nat} (ha : a < 2 ^ 32) (hb : b < 2 ^ 32)
    (h : UInt32.ofNat (1 + a) = UInt32.ofNat (1 + b)) : a = b := by
  have := congrArg UInt32.toNat h
  simp only [UInt32.toNat_ofNat'] at this
  omega

/-- The counter never repeats an id before 2^32 draws. -/
theorem Ids.fetchId (h : Ids s) (hw : s.started < 2 ^ 32) (ht : t < s.started)
    (hp : (s.tunnels t).phase = .fetchId) :
    Ids (s.fetchStreamId t) := by
  have hnew : t ∉ s.allocated := by simp [hp]
  have hal : (s.fetchStreamId t).allocated = insert t s.allocated := allocated_fetchStreamId ht
  have hcard := Finset.card_insert_of_notMem hnew
  have hle : s.allocated.card < s.started := by
    have hsub : insert t s.allocated ⊆ Finset.range s.started := by
      intro u hu
      rcases Finset.mem_insert.mp hu with rfl | hu
      · exact Finset.mem_range.mpr ht
      · exact Finset.mem_range.mpr (mem_allocated.mp hu).1
    have := Finset.card_le_card hsub
    rw [hcard, Finset.card_range] at this
    omega
  have hne : ∀ u, (s.tunnels u).phase ≠ .fetchId → (s.tunnels u).id ≠ s.nextStreamId := by
    intro u hu he
    obtain ⟨k, hk, hid⟩ := h.drawn u hu
    rw [h.next, hid] at he
    have := ofNat_injective (by omega) (by omega) he
    omega
  refine ⟨fun u hu => ?_, ?_, fun u hu => ?_, fun u v hu hv he => ?_⟩
  · have hu' : s.started ≤ u := hu
    simpa [show u ≠ t by omega] using h.idle u hu'
  · rw [hal, hcard, ← UInt32.toNat_inj]
    simp [h.next]
    omega
  · rw [hal, hcard]
    by_cases hut : u = t
    · subst hut
      exact ⟨s.allocated.card, by omega, by simpa using h.next⟩
    · obtain ⟨k, hk, hid⟩ := h.drawn u (by simpa [hut] using hu)
      exact ⟨k, by omega, by simpa [hut] using hid⟩
  · by_cases hut : u = t <;> by_cases hvt : v = t
    · rw [hut, hvt]
    · exact absurd (by simpa [hut, hvt] using he.symm) (hne v (by simpa [hvt] using hv))
    · exact absurd (by simpa [hut, hvt] using he) (hne u (by simpa [hut] using hu))
    · exact h.unique u v (by simpa [hut] using hu) (by simpa [hvt] using hv)
        (by simpa [hut, hvt] using he)

end Ids

/-- An id just drawn is not in the table: the retry loop never turns. -/
theorem Tracked.id_free (h : Tracked s) (hp : (s.tunnels t).phase = .checkId) :
    s.streamOf (s.tunnels t).id = none := by
  obtain ⟨L, hL, hsim⟩ := h.ledger
  cases hi : s.streamOf (s.tunnels t).id with
  | none => rfl
  | some u =>
    obtain ⟨hid, hst⟩ := ((hsim.slot u).listed _).mp hi
    have hu := hsim.not_early (Ledger.counted_of_reachable hL) (by simp [hst] : L.stage u ≠ _)
      (by simp [hst])
    have := h.ids.unique u t (ne_fetchId hu) (by simp [hp]) hid
    subst this
    simp [hp, Phase.early] at hu

theorem Tracked.step (h : Tracked s) (hw : s.started < 2 ^ 32) (hs : Step chunk s e s') :
    Tracked s' := by
  cases slotMove_step hs with
  | same hsame => exact hsame.tracked h
  | remove hbefore hafter => exact hafter.tracked (hbefore.tracked h).removeStream
  | bridge hr => exact h.spawnTunnel hr
  | fetchId ht hp =>
    obtain ⟨L, hL, hsim⟩ := h.ledger
    exact ⟨h.ids.fetchId hw ht hp, L, hL, hsim.fetchId ht hp⟩
  | idInUse hp hi => exact absurd hi (Finmap.lookup_eq_none.mp (h.id_free hp))
  | insertStream hp => exact h.insertStream hp
  | release hm => exact h.freeRemoved hm

theorem tracked_init : Tracked {} where
  ids := by
    constructor <;> simp [allocated]
  ledger := ⟨{}, .init rfl, rfl, rfl, fun t =>
    ⟨by simp, by simp [streamOf], by simp, by simp⟩⟩

theorem Handled.started (h : Handled s m s') : s'.started = s.started := by
  cases h <;> simp

theorem deliver_started : (s.deliver i t p).started = s.started := by
  unfold deliver
  dsimp only
  split <;> simp

theorem step_started (h : Step chunk s e s') : s.started ≤ s'.started := by
  cases h with
  | bridge hr =>
    obtain ⟨-, rfl⟩ := tryReserveStreamSlot_eq hr
    simp
  | recv hr => exact (handled ..).started.ge
  | deliver hr => exact deliver_started.ge
  | _ => simp

/-- Up to 2^32 tunnels, every reachable state is one the permit pool can be in. -/
theorem tracked_of_reachable (h : (lts chunk).Reachable s) (hw : s.started < 2 ^ 32) :
    Tracked s := by
  refine h.invariant (P := fun s => s.started < 2 ^ 32 → Tracked s) ?_ ?_ hw
  · rintro s rfl -
    exact tracked_init
  · intro s e s' ih hs hw
    have := step_started hs
    exact (ih (by omega)).step (by omega) hs

section Counting

theorem Sim.atStage_reserved (h : Sim s L) : L.atStage .reserved = s.reserved := by
  ext t
  rw [Ledger.mem_atStage, mem_reserved, (h.slot t).early, h.started]
  tauto

/-- The keys of `streams` are the ids of the tunnels whose slot is listed. -/
theorem Sim.keys_streams (h : Sim s L) (hL : L.Counted maxActiveStreams) :
    s.streams.keys = (L.atStage .listed).image fun t => (s.tunnels t).id := by
  ext i
  rw [Finmap.mem_keys, Finmap.mem_iff, Finset.mem_image]
  constructor
  · rintro ⟨t, ht⟩
    obtain ⟨hid, hst⟩ := ((h.slot t).listed i).mp ht
    exact ⟨t, by simp [hst, hL.lt (by simp [hst] : L.stage t ≠ _)], hid⟩
  · rintro ⟨t, ht, hid⟩
    exact ⟨t, ((h.slot t).listed i).mpr ⟨hid, (Ledger.mem_atStage.mp ht).2⟩⟩

theorem Sim.card_keys (h : Sim s L) (hL : L.Counted maxActiveStreams) :
    s.streams.keys.card = (L.atStage .listed).card := by
  rw [h.keys_streams hL]
  refine Finset.card_image_of_injOn fun t ht u hu he => ?_
  have h1 := ((h.slot t).listed _).mpr ⟨rfl, (Ledger.mem_atStage.mp ht).2⟩
  have h2 := ((h.slot u).listed _).mpr ⟨he.symm, (Ledger.mem_atStage.mp hu).2⟩
  simpa [h1] using h2

theorem Sim.length_releasing (h : Sim s L) (hL : L.Counted maxActiveStreams) :
    s.releasing.length = (L.atStage .leaving).card := by
  have hnd : s.releasing.Nodup := by
    refine List.nodup_iff_count_le_one.mpr fun ⟨i, t⟩ => ?_
    rw [(h.slot t).leaving i]
    split <;> simp
  have himg : s.releasing.toFinset =
      (L.atStage .leaving).image fun t => ((s.tunnels t).id, t) := by
    ext ⟨i, t⟩
    rw [List.mem_toFinset, ← List.count_pos_iff, (h.slot t).leaving i]
    by_cases hst : (s.tunnels t).id = i ∧ L.stage t = .leaving
    · simp [hst, hL.lt (by simp [hst] : L.stage t ≠ _)]
    · simpa [hst] using fun _ h1 h2 => hst ⟨h2, h1⟩
  rw [← List.toFinset_card_of_nodup hnd, himg]
  exact Finset.card_image_of_injective _ fun t u he => (Prod.mk.inj he).2

theorem Tracked.activeStreams_eq (h : Tracked s) :
    s.activeStreams = s.streams.keys.card + s.reserved.card + s.releasing.length := by
  obtain ⟨L, hL, hsim⟩ := h.ledger
  have hc := Ledger.counted_of_reachable hL
  rw [← hsim.inUse, hc.inUse, Ledger.card_holders, hsim.atStage_reserved, hsim.card_keys hc,
    hsim.length_releasing hc]
  omega

theorem Tracked.activeStreams_le (h : Tracked s) : s.activeStreams ≤ maxActiveStreams := by
  obtain ⟨L, hL, hsim⟩ := h.ledger
  rw [← hsim.inUse]
  exact (Ledger.counted_of_reachable hL).capped

/-- A tunnel's slot is in exactly one place: reserved, in the table, on its way back, or
given back. -/
theorem Tracked.slot_once (h : Tracked s) (ht : t < s.started) :
    s.released t + (if (s.tunnels t).phase.early then 1 else 0) +
      (if s.streamOf (s.tunnels t).id = some t then 1 else 0) +
      s.releasing.count ((s.tunnels t).id, t) = 1 := by
  obtain ⟨L, hL, hsim⟩ := h.ledger
  obtain ⟨h1, h2, h3, h4⟩ := hsim.slot t
  have hidle : L.stage t ≠ .idle := by
    rw [ne_eq, (Ledger.counted_of_reachable hL).idle, hsim.started]
    omega
  have he : (s.tunnels t).phase.early = true ↔ L.stage t = .reserved := by simp [h1, ht]
  rw [h3, h4]
  simp only [h2, he, true_and]
  cases hst : L.stage t <;> simp_all

end Counting

/-- Nothing enters a map, and what leaves `streams` is queued for release. -/
structure Shrinks (s s' : ConnectorManager) : Prop where
  id : ∀ t, (s'.tunnels t).id = (s.tunnels t).id
  phase : ∀ t, (s'.tunnels t).phase = (s.tunnels t).phase
  stream : ∀ i t, s'.streamOf i = some t → s.streamOf i = some t
  waiter : ∀ i t, s'.waiterOf i = some t → s.waiterOf i = some t
  gone : ∀ i t, s.streamOf i = some t → s'.streamOf i = some t ∨ (i, t) ∈ s'.releasing
  releasing : s.releasing ⊆ s'.releasing
  failing : s.failing ⊆ s'.failing

section Shrinks

theorem Shrinks.trans {s₁ s₂ s₃ : ConnectorManager} (h : Shrinks s₁ s₂) (h' : Shrinks s₂ s₃) :
    Shrinks s₁ s₃ where
  id t := (h'.id t).trans (h.id t)
  phase t := (h'.phase t).trans (h.phase t)
  stream i t ht := h.stream i t (h'.stream i t ht)
  waiter i t ht := h.waiter i t (h'.waiter i t ht)
  gone i t ht := by
    rcases h.gone i t ht with h1 | h1
    · exact h'.gone i t h1
    · exact .inr (h'.releasing h1)
  releasing := List.Subset.trans h.releasing h'.releasing
  failing := List.Subset.trans h.failing h'.failing

theorem shrinks_of_eq (ht : s'.tunnels = s.tunnels) (hs : s'.streams = s.streams)
    (hp : s'.pending = s.pending) (hr : s'.releasing = s.releasing)
    (hf : s'.failing = s.failing) : Shrinks s s' := by
  constructor <;> simp_all [streamOf, waiterOf]

theorem shrinks_setTunnel (hid : T.id = (s.tunnels t).id) (hp : T.phase = (s.tunnels t).phase) :
    Shrinks s (s.setTunnel t T) := by
  refine ⟨fun u => ?_, fun u => ?_, by simp, by simp, by simp +contextual, by simp, by simp⟩ <;>
    by_cases hu : u = t <;> simp_all

theorem shrinks_removeStream : Shrinks s (s.removeStream i) := by
  refine ⟨by simp, by simp, fun j t => ?_, by simp, fun j t hj => ?_, ?_, by simp⟩
  · rw [removeStream_streamOf]
    split <;> simp
  · rw [removeStream_streamOf]
    split
    · rename_i he
      subst he
      simp [removeStream_some hj]
    · exact .inl hj
  · cases hi : s.streamOf i with
    | none => simp [removeStream_none hi]
    | some t => simp [removeStream_some hi]

theorem shrinks_answerPending : Shrinks s (s.answerPending i answer) := by
  refine ⟨by simp, by simp, by simp, fun j t => ?_, by simp +contextual, by simp, by simp⟩
  rw [answerPending_waiterOf]
  split <;> simp

/-- No message from the connector adds an entry to either map. -/
theorem Handled.shrinks (h : Handled s m s') : Shrinks s s' := by
  have hadd : ∀ t n, Shrinks s (s.setTunnel t ((s.tunnels t).addOutstanding n)) := by
    intro t n
    exact shrinks_setTunnel rfl rfl
  cases h with
  | ignored => exact shrinks_of_eq rfl rfl rfl rfl rfl
  | answered _ => exact shrinks_answerPending
  | removed _ => exact shrinks_removeStream
  | granted _ => exact shrinks_setTunnel rfl rfl
  | exceeded _ _ =>
    exact ((hadd _ _).trans shrinks_removeStream).trans (shrinks_of_eq rfl rfl rfl rfl rfl)
  | within _ _ => exact (hadd _ _).trans (shrinks_of_eq rfl rfl rfl rfl rfl)

theorem shrinks_deliver : Shrinks s (s.deliver i t p) := by
  by_cases hp : (s.tunnels t).phase = .ended
  · rw [deliver_ended hp]
    have h1 : Shrinks s { s with reading := none } := shrinks_of_eq rfl rfl rfl rfl rfl
    exact h1.trans shrinks_removeStream
  · rw [deliver_live hp]
    have h1 : Shrinks s (s.setTunnel t ((s.tunnels t).enqueue p)) := shrinks_setTunnel rfl rfl
    exact h1.trans (shrinks_of_eq rfl rfl rfl rfl rfl)

end Shrinks

section Removed

/-- A task past its own removal is out of the table. -/
def Removed (s : ConnectorManager) : Prop :=
  ∀ i t, s.streamOf i = some t → (s.tunnels t).phase ≠ .sendReset ∧ (s.tunnels t).phase ≠ .ended

theorem Shrinks.removed (h : Shrinks s s') (hr : Removed s) : Removed s' := by
  intro i t ht
  rw [h.phase t]
  exact hr i t (h.stream i t ht)

theorem Tracked.id_of_streamOf (h : Tracked s) (hi : s.streamOf i = some t) :
    (s.tunnels t).id = i := by
  obtain ⟨L, -, hsim⟩ := h.ledger
  exact (((hsim.slot t).listed i).mp hi).1

/-- The manager's own moves of one task never take it past its removal. -/
theorem Removed.move (h : Removed s) (ht : (s'.tunnels t).phase ≠ .sendReset ∧
    (s'.tunnels t).phase ≠ .ended) (hf : ∀ u, u ≠ t → s'.tunnels u = s.tunnels u ∧
      ∀ i, s'.streamOf i = some u → s.streamOf i = some u) : Removed s' := by
  intro i u hi
  by_cases hu : u = t
  · rwa [hu]
  · rw [(hf u hu).1]
    exact h i u ((hf u hu).2 i hi)

theorem Removed.tunnelStep {a : Act} (h : Removed s) (ht : Tunnel.Step chunk (s.tunnels t) a T)
    (ha : a ≠ .remove) : Removed (s.setTunnel t T) := by
  intro i u hi
  by_cases hu : u = t
  · subst hu
    have h1 := h i u hi
    have h2 := Tunnel.step_removed ht ha
    simp_all
  · simpa [hu] using h i u hi

theorem Removed.tunnelRemove (h : Removed s)
    (hid : ∀ i t, s.streamOf i = some t → (s.tunnels t).id = i)
    (ht : Tunnel.Step chunk (s.tunnels t) .remove T) :
    Removed ((s.setTunnel t T).removeStream T.id) := by
  intro i u hi
  rw [removeStream_streamOf] at hi
  split at hi
  · simp at hi
  · rename_i hne
    have hi' : s.streamOf i = some u := hi
    have hu : u ≠ t := by
      rintro rfl
      exact hne ((hid i u hi').symm.trans (Tunnel.step_id ht).symm)
    simpa [hu] using h i u hi'

theorem Removed.step (h : Removed s) (hid : ∀ i t, s.streamOf i = some t → (s.tunnels t).id = i)
    (hs : Step chunk s e s') : Removed s' := by
  cases hs with
  | bridge hr =>
    obtain ⟨-, rfl⟩ := tryReserveStreamSlot_eq hr
    exact h.move (t := s.started) (by simp) fun u hu => by simp [hu, streamOf]
  | @fetchId t ht hp => exact h.move (t := t) (by simp) fun u hu => by simp [hu]
  | @idInUse t hp hi => exact h.move (t := t) (by simp) fun u hu => by simp [hu]
  | @idFree t hp hi => exact h.move (t := t) (by simp) fun u hu => by simp [hu]
  | @insertPending t hp =>
    have h1 : Removed (s.insertPending (s.tunnels t).id t) := fun i u hi => by
      simpa using h i u (by simpa using hi)
    exact h1.move (t := t) (by simp) fun u hu => by simp [hu]
  | @insertStream t hp =>
    refine h.move (t := t) (by simp) fun u hu => ⟨by simp [hu], fun i hi => ?_⟩
    by_cases hj : i = (s.tunnels t).id
    · simp [hj, Ne.symm hu] at hi
    · simpa [hj] using hi
  | tunnel ht => exact h.tunnelStep ht (by simp)
  | tunnelSend ht hl => exact h.tunnelStep ht (by simp)
  | tunnelSendFailed ht hl => exact h.tunnelStep ht (by simp)
  | tunnelStarved ht _ _ => exact h.tunnelStep ht (by simp)
  | tunnelRemove ht => exact h.tunnelRemove hid ht
  | release hm => exact h
  | failPending hm => exact fun i u hi => by simpa using h i u (by simpa using hi)
  | spawnedSend hm hl => exact h
  | spawnedFailed hm hl => exact h
  | recv hr => exact (handled ..).shrinks.removed h
  | deliver hr => exact shrinks_deliver.removed h
  | hangup => exact h

end Removed

section PendingKept

/-- A pending connect belongs to a tunnel between its two inserts, to a registered one, or
to one whose removal is still at work. -/
def PendingKept (s : ConnectorManager) : Prop :=
  ∀ i t, s.waiterOf i = some t → (s.tunnels t).id = i ∧
    ((s.tunnels t).phase = .insertStream ∨ (s.tunnels t).phase.early = false ∧
      (s.streamOf i = some t ∨ (i, t) ∈ s.releasing ∨ i ∈ s.failing))

theorem Shrinks.pendingKept (h : Shrinks s s') (hp : PendingKept s) : PendingKept s' := by
  intro i t ht
  obtain ⟨hid, hor⟩ := hp i t (h.waiter i t ht)
  rw [h.id t, h.phase t]
  refine ⟨hid, hor.imp_right fun ⟨he, hk⟩ => ⟨he, ?_⟩⟩
  rcases hk with hk | hk | hk
  · exact (h.gone i t hk).imp_right .inl
  · exact .inr (.inl (h.releasing hk))
  · exact .inr (.inr (h.failing hk))

/-- The waiting tunnel is left alone by a step of another one. -/
theorem PendingKept.move (h : PendingKept s)
    (ht : ∀ i, s.waiterOf i = some t → s'.waiterOf i = some t → (s'.tunnels t).id = i ∧
      ((s'.tunnels t).phase = .insertStream ∨ (s'.tunnels t).phase.early = false ∧
        (s'.streamOf i = some t ∨ (i, t) ∈ s'.releasing ∨ i ∈ s'.failing)))
    (hf : ∀ u, u ≠ t → s'.tunnels u = s.tunnels u) (hs : s'.streams = s.streams)
    (hp : s'.pending = s.pending) (hr : s'.releasing = s.releasing)
    (hfl : s'.failing = s.failing) : PendingKept s' := by
  intro i u hi
  have hi' : s.waiterOf i = some u := by simpa [waiterOf, hp] using hi
  by_cases hu : u = t
  · subst hu
    exact ht i hi' hi
  · have := h i u hi'
    rw [hf u hu, hr, hfl]
    simpa [streamOf, hs] using this

theorem PendingKept.tunnelStep {a : Act} (h : PendingKept s)
    (ht : Tunnel.Step chunk (s.tunnels t) a T) : PendingKept (s.setTunnel t T) := by
  obtain ⟨h1, h2⟩ := Tunnel.step_not_early ht
  refine h.move (t := t) (fun i hi _ => ?_) (fun u hu => by simp [hu]) rfl rfl rfl rfl
  obtain ⟨hid, hp | ⟨-, hk⟩⟩ := h i t hi
  · simp [hp, Phase.early] at h1
  · exact ⟨by simpa [Tunnel.step_id ht] using hid, .inr ⟨by simpa using h2, hk⟩⟩

theorem PendingKept.step (h : PendingKept s) (hT : Tracked s) (hs : Step chunk s e s') :
    PendingKept s' := by
  cases hs with
  | bridge hr =>
    obtain ⟨-, rfl⟩ := tryReserveStreamSlot_eq hr
    refine h.move (t := s.started) (fun i hi _ => ?_) (fun u hu => by simp [hu]) rfl rfl rfl rfl
    have hfetch := hT.ids.idle s.started le_rfl
    have := (h i _ hi).2
    simp [hfetch, Phase.early] at this
  | @fetchId t ht hp =>
    refine h.move (t := t) (fun i hi _ => ?_) (fun u hu => by simp [hu]) rfl rfl rfl rfl
    have := (h i t hi).2
    simp [hp, Phase.early] at this
  | @idInUse t hp hi =>
    refine h.move (t := t) (fun i hi _ => ?_) (fun u hu => by simp [hu]) rfl rfl rfl rfl
    have := (h i t hi).2
    simp [hp, Phase.early] at this
  | @idFree t hp hi =>
    refine h.move (t := t) (fun i hi _ => ?_) (fun u hu => by simp [hu]) rfl rfl rfl rfl
    have := (h i t hi).2
    simp [hp, Phase.early] at this
  | @insertPending t hp =>
    intro i u hi
    simp only [setPhase_waiterOf, insertPending_waiterOf] at hi
    by_cases hu : u = t
    · subst hu
      split at hi
      · simp_all
      · have := (h i u hi).2
        simp [hp, Phase.early] at this
    · split at hi
      · simp_all
      · simpa [hu] using h i u hi
  | @insertStream t hp =>
    intro i u hi
    have hw : s.waiterOf i = some u := hi
    have hk := h i u hw
    by_cases hu : u = t
    · subst hu
      simp [hk.1, Phase.early]
    · have hne : i ≠ (s.tunnels t).id := by
        intro he
        have hu' : (s.tunnels u).phase ≠ .fetchId := by
          rcases hk.2 with hp' | hp'
          · simp [hp']
          · exact ne_fetchId hp'.1
        exact hu (hT.ids.unique u t hu' (by simp [hp]) (hk.1.trans he))
      simpa [hu, hne] using hk
  | tunnel ht => exact h.tunnelStep ht
  | tunnelSend ht hl => exact h.tunnelStep ht
  | tunnelSendFailed ht hl => exact h.tunnelStep ht
  | tunnelStarved ht _ _ => exact h.tunnelStep ht
  | tunnelRemove ht => exact shrinks_removeStream.pendingKept (h.tunnelStep ht)
  | @release i t hm =>
    intro j u hi
    obtain ⟨hid, hor⟩ := h j u hi
    refine ⟨hid, hor.imp_right ?_⟩
    rintro ⟨he, hk⟩
    refine ⟨he, ?_⟩
    rcases hk with hk | hk | hk
    · exact .inl hk
    · by_cases hj : (j, u) = (i, t)
      · simp_all
      · exact .inr (.inl (by simpa using (List.mem_erase_of_ne hj).mpr hk))
    · exact .inr (.inr (by simp [hk]))
  | @failPending id hm =>
    intro j u hi
    rw [failPending_waiterOf] at hi
    split at hi
    · simp at hi
    · rename_i hne
      simpa [List.mem_erase_of_ne hne] using h j u hi
  | spawnedSend hm hl => exact h
  | spawnedFailed hm hl => exact h
  | recv hr => exact (handled ..).shrinks.pendingKept h
  | deliver hr => exact shrinks_deliver.pendingKept h
  | hangup => exact h

end PendingKept

theorem kept_of_reachable (h : (lts chunk).Reachable s) (hw : s.started < 2 ^ 32) :
    Removed s ∧ PendingKept s := by
  refine h.invariant_of (P := fun s => s.started < 2 ^ 32 → Removed s ∧ PendingKept s)
    (Q := fun s => s.started < 2 ^ 32 → Tracked s) (fun _ => tracked_of_reachable) ?_ ?_ hw
  · rintro s rfl -
    simp [Removed, PendingKept, streamOf, waiterOf]
  · intro s e s' hQ _ ih hs hw
    have hw' : s.started < 2 ^ 32 := (step_started hs).trans_lt hw
    exact ⟨(ih hw').1.step (fun _ _ => (hQ hw').id_of_streamOf) hs, (ih hw').2.step (hQ hw') hs⟩

/-- One more tunnel has registered, under the next id. -/
structure Opened (target : String) (s s' : ConnectorManager) : Prop where
  started : s'.started = s.started + 1
  next : s'.nextStreamId = s.nextStreamId + 1
  active : s'.activeStreams = s.activeStreams + 1
  tunnels : ∀ u, s'.tunnels u = if u = s.started then
    { target := target, id := s.nextStreamId, phase := .sendConnect } else s.tunnels u
  streamOf : ∀ i, s'.streamOf i = if i = s.nextStreamId then some s.started else s.streamOf i
  waiterOf : ∀ i, s'.waiterOf i = if i = s.nextStreamId then some s.started else s.waiterOf i
  linkOpen : s'.linkOpen = s.linkOpen
  released : s'.released = s.released
  idle : s'.reading = s.reading ∧ s'.releasing = s.releasing ∧ s'.failing = s.failing ∧
    s'.spawned = s.spawned

/-- A tunnel that gets a slot and a free id registers. -/
theorem open_run (chunk : Nat) (target : String) (ha : s.activeStreams < maxActiveStreams)
    (hs : s.streamOf s.nextStreamId = none) (hw : s.waiterOf s.nextStreamId = none) :
    ∃ s', (lts chunk).MTr s (List.replicate 5 .internal) s' ∧ Opened target s s' := by
  have h1 : Step chunk s .internal
      (({ s with activeStreams := s.activeStreams + 1 } : ConnectorManager).spawnTunnel target) :=
    .bridge (by simp [tryReserveStreamSlot, ha])
  have hfree : s.nextStreamId ∉ s.streams := Finmap.lookup_eq_none.mp hs
  have hstream : ∀ i, ({ s with activeStreams := s.activeStreams + 1 } : ConnectorManager).streamOf i =
      s.streamOf i := fun _ => rfl
  have hwait : ∀ i, ({ s with activeStreams := s.activeStreams + 1 } : ConnectorManager).waiterOf i =
      s.waiterOf i := fun _ => rfl
  refine ⟨_, .stepL h1 (.stepL (.fetchId (t := s.started) (by simp) (by simp))
    (.stepL (.idFree (t := s.started) (by simp) (by simpa using hfree))
      (.stepL (.insertPending (t := s.started) (by simp))
        (.stepL (.insertStream (t := s.started) (by simp)) .refl)))), ?_⟩
  refine ⟨by simp, by simp, by simp, fun u => ?_, fun i => by simp [hstream],
    fun i => by simp [insertPending_waiterOf, hwait], by simp, by simp, by simp⟩
  by_cases hu : u = s.started <;> simp [insertPending_tunnels, hwait, hw, hu]

/-- As many tunnels have opened a stream, one after the other, and none has given its slot back. -/
structure Serial (n : Nat) (s : ConnectorManager) : Prop where
  started : s.started = n
  next : s.nextStreamId = UInt32.ofNat (1 + n)
  active : s.activeStreams = n
  linkOpen : s.linkOpen = true
  drawn : ∀ i, s.streamOf i ≠ none ∨ s.waiterOf i ≠ none → ∃ t < n, i = UInt32.ofNat (1 + t)

theorem serial_init : Serial 0 {} where
  started := rfl
  next := rfl
  active := rfl
  linkOpen := rfl
  drawn i hi := by
    rcases hi with hi | hi
    · exact absurd (Finmap.lookup_empty i) hi
    · exact absurd (Finmap.lookup_empty i) hi

theorem Serial.next_ne {n : Nat} (h : Serial n s) (hn : n < 2 ^ 32) {t : Nat} (ht : t < n) :
    s.nextStreamId ≠ UInt32.ofNat (1 + t) := by
  intro he
  rw [h.next] at he
  have := ofNat_injective hn (by omega) he
  omega

/-- The next id is free. -/
theorem Serial.fresh {n : Nat} (h : Serial n s) (hn : n < 2 ^ 32) :
    s.streamOf s.nextStreamId = none ∧ s.waiterOf s.nextStreamId = none := by
  have hd := h.drawn s.nextStreamId
  constructor
  · by_contra hc
    obtain ⟨t, ht, he⟩ := hd (.inl hc)
    exact h.next_ne hn ht he
  · by_contra hc
    obtain ⟨t, ht, he⟩ := hd (.inr hc)
    exact h.next_ne hn ht he

theorem Serial.opened {n : Nat} {target : String} (h : Serial n s) (ho : Opened target s s') :
    Serial (n + 1) s' where
  started := by rw [ho.started, h.started]
  next := by
    rw [ho.next, h.next, ← UInt32.toNat_inj]
    simp
    omega
  active := by rw [ho.active, h.active]
  linkOpen := by rw [ho.linkOpen, h.linkOpen]
  drawn i hi := by
    by_cases hin : i = s.nextStreamId
    · exact ⟨n, by omega, hin.trans h.next⟩
    · obtain ⟨t, ht, he⟩ := h.drawn i (by simpa [ho.streamOf, ho.waiterOf, hin] using hi)
      exact ⟨t, by omega, he⟩

theorem Serial.setTunnel {n : Nat} (h : Serial n s) (t : Nat) (T : Tunnel) :
    Serial n (s.setTunnel t T) :=
  ⟨h.started, h.next, h.active, h.linkOpen, h.drawn⟩

/-- A registered tunnel sends its `Connect`. -/
theorem Opened.connect {target : String} (ho : Opened target s s') (hl : s.linkOpen = true)
    (chunk : Nat) : Step chunk s' (.output (.connect s.nextStreamId target))
      (s'.setTunnel s.started { target := target, id := s.nextStreamId, phase := .awaitConnect }) := by
  have hT : s'.tunnels s.started = _ := (ho.tunnels s.started).trans (if_pos rfl)
  have hc : Tunnel.Step chunk (s'.tunnels s.started) _ _ := .connectSent (by rw [hT])
  simpa [hT, Body.message] using Step.tunnelSend hc (ho.linkOpen.trans hl)

/-- The manager's only tunnel has just registered, under id 1. -/
structure Lone (target : String) (s : ConnectorManager) : Prop where
  started : s.started = 1
  next : s.nextStreamId = 2
  active : s.activeStreams = 1
  tunnel : s.tunnels 0 = { target := target, id := 1, phase := .sendConnect }
  streamOf : ∀ i, s.streamOf i = if i = 1 then some 0 else none
  waiterOf : ∀ i, s.waiterOf i = if i = 1 then some 0 else none
  linkOpen : s.linkOpen = true
  idle : s.reading = none ∧ s.releasing = [] ∧ s.failing = [] ∧ s.spawned = []

theorem lone_run (chunk : Nat) (target : String) :
    ∃ s, (lts chunk).MTr {} (List.replicate 5 .internal) s ∧ Lone target s := by
  obtain ⟨s, hr, ho⟩ := open_run (s := {}) chunk target (by decide) rfl rfl
  exact ⟨s, hr, ho.started, ho.next, ho.active, ho.tunnels 0, ho.streamOf, ho.waiterOf, ho.linkOpen,
    ho.idle⟩

theorem lone_reachable (chunk : Nat) (target : String) :
    ∃ s, (lts chunk).Reachable s ∧ Lone target s := by
  obtain ⟨s, hr, hl⟩ := lone_run chunk target
  exact ⟨s, LTS.Reachable.trans (.init rfl) hr, hl⟩

end X2rp.Wss.ConnectorManager
