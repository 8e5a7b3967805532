import X2rp.Wss.Removal
import X2rp.Wss.Window

/-! Stream ids across a wrap of the counter: who holds which id, and what follows when an id is
held twice. -/
namespace X2rp.Wss

open Proto

/-- The task has settled on its id and has not returned yet. -/
def Phase.holds : Phase → Bool
  | .fetchId | .checkId | .ended => false
  | _ => true

theorem Phase.holds_of (ph : Phase) (he : ph.early = false) (hn : ph ≠ .ended) : ph.holds = true := by
  cases ph <;> simp_all [Phase.early, Phase.holds]

namespace ConnectorManager

variable {s s' : ConnectorManager} {chunk : Nat} {e : Event} {t u : Nat} {i : UInt32}
  {T : Tunnel} {answer : Answer} {p : Bytes} {m : Message}

section Exclusive

/-- No two tasks hold one id. -/
def Exclusive (s : ConnectorManager) : Prop :=
  ∀ t u, (s.tunnels t).phase.holds = true → (s.tunnels u).phase.holds = true →
    (s.tunnels t).id = (s.tunnels u).id → t = u

theorem removed_of_reachable (h : (lts chunk).Reachable s) : Removed s := by
  refine h.invariant_of (fun s h => windowed_of_reachable h) ?_
    fun s e s' hw _ ih hs => ih.step (fun i t hi => ((hw t).listed i hi).1) hs
  rintro s rfl
  simp [Removed, streamOf]

/-- Every entry is that of a task that holds its id. -/
theorem holds_of_streamOf (h : (lts chunk).Reachable s) (hi : s.streamOf i = some t) :
    (s.tunnels t).id = i ∧ (s.tunnels t).phase.early = false ∧ (s.tunnels t).phase.holds = true := by
  obtain ⟨hid, hearly, -⟩ := (windowed_of_reachable h t).listed i hi
  exact ⟨hid, hearly, Phase.holds_of _ hearly (removed_of_reachable h i t hi).2⟩

end Exclusive

section Room

/-- The slots that are accounted for: entries, tasks on their way to one, removals under way. -/
def claimed (s : ConnectorManager) : Nat :=
  s.streams.keys.card + s.reserved.card + s.releasing.length

theorem reserved_congr (hst : s'.started = s.started)
    (he : ∀ t, (s'.tunnels t).phase.early = (s.tunnels t).phase.early) : s'.reserved = s.reserved := by
  ext t
  simp [hst, he t]

theorem SameSlots.claimed (h : SameSlots s s') : s'.claimed = s.claimed := by
  have hs : s'.streams = s.streams := Finmap.ext_lookup h.stream
  unfold ConnectorManager.claimed
  rw [hs, h.releasing, reserved_congr h.started h.early]

theorem claimed_removeStream : (s.removeStream i).claimed = s.claimed := by
  have hr : (s.removeStream i).reserved = s.reserved := reserved_congr (by simp) (by simp)
  cases hi : s.streamOf i with
  | none => rw [removeStream_none hi]
  | some t =>
    have hmem : i ∈ s.streams.keys := Finmap.mem_keys.mpr (Finmap.mem_iff.mpr ⟨t, hi⟩)
    have hpos := Finset.card_pos.mpr ⟨i, hmem⟩
    rw [claimed, claimed, hr, removeStream_some hi]
    simp only [Finmap.keys_erase, Finset.card_erase_of_mem hmem, List.length_cons]
    omega

theorem claimed_insertStream (ht : t < s.started) (hp : (s.tunnels t).phase = .insertStream) :
    ((s.insertStream (s.tunnels t).id t).setPhase t .sendConnect).claimed ≤ s.claimed := by
  have hmem : t ∈ s.reserved := mem_reserved.mpr ⟨ht, by simp [hp, Phase.early]⟩
  have hres : ((s.insertStream (s.tunnels t).id t).setPhase t .sendConnect).reserved =
      s.reserved.erase t := by
    ext u
    by_cases hu : u = t <;> simp [hu, Phase.early]
  have hkeys : (s.streams.insert (s.tunnels t).id t).keys.card ≤ s.streams.keys.card + 1 := by
    have hsub : (s.streams.insert (s.tunnels t).id t).keys ⊆ insert (s.tunnels t).id s.streams.keys := by
      intro i hi
      simpa [Finmap.mem_keys] using hi
    exact (Finset.card_le_card hsub).trans (Finset.card_insert_le _ _)
  have hpos := Finset.card_pos.mpr ⟨t, hmem⟩
  rw [claimed, claimed, hres, Finset.card_erase_of_mem hmem]
  simp only [setPhase_fields, insertStream_fields]
  change (s.streams.insert (s.tunnels t).id t).keys.card + _ + _ ≤ _
  omega

/-- Every entry has its slot, also when an id is held twice. -/
structure Roomy (s : ConnectorManager) : Prop where
  slots : s.claimed ≤ s.activeStreams
  capped : s.activeStreams ≤ maxActiveStreams

theorem Roomy.of_claimed (h : Roomy s) (hc : s'.claimed ≤ s.claimed)
    (ha : s'.activeStreams = s.activeStreams) : Roomy s' :=
  ⟨ha ▸ hc.trans h.slots, ha ▸ h.capped⟩

/-- The loop goes round within the early phases. -/
theorem Roomy.early (h : Roomy s) (t : Nat) (hst : s'.started = s.started) (hs : s'.streams = s.streams)
    (hr : s'.releasing = s.releasing) (ha : s'.activeStreams = s.activeStreams)
    (he : (s.tunnels t).phase.early = true) (he' : (s'.tunnels t).phase.early = true)
    (hf : ∀ u, u ≠ t → (s'.tunnels u).phase = (s.tunnels u).phase) : Roomy s' := by
  have hres : s'.reserved = s.reserved := by
    refine reserved_congr hst fun u => ?_
    by_cases hu : u = t
    · rw [hu, he, he']
    · rw [hf u hu]
  refine h.of_claimed ?_ ha
  rw [claimed, claimed, hs, hr, hres]

theorem Roomy.bridge {target : String} (h : Roomy s) (ha : s.activeStreams < maxActiveStreams) :
    Roomy (({ s with activeStreams := s.activeStreams + 1 } : ConnectorManager).spawnTunnel target) := by
  have hres : (({ s with activeStreams := s.activeStreams + 1 } : ConnectorManager).spawnTunnel
      target).reserved = insert s.started s.reserved := by
    ext u
    simp only [mem_reserved, Finset.mem_insert, spawnTunnel_tunnels, spawnTunnel_fields]
    by_cases hu : u = s.started
    · simp [hu, Phase.early]
    · simp only [hu, if_false, false_or]
      have : u < s.started + 1 ↔ u < s.started := by omega
      rw [this]
  have hcard := Finset.card_insert_le s.started s.reserved
  have hslots := h.slots
  unfold claimed at hslots
  refine ⟨?_, ha⟩
  rw [claimed, hres]
  simp only [spawnTunnel_fields]
  omega

theorem Roomy.release (h : Roomy s) (hm : (i, t) ∈ s.releasing) : Roomy (s.freeRemoved i t) := by
  have hlen := List.length_erase_of_mem hm
  have hpos := List.length_pos_of_mem hm
  have hres : (s.freeRemoved i t).reserved = s.reserved := reserved_congr (by simp) (by simp)
  have hslots := h.slots
  have hcap := h.capped
  unfold claimed at hslots
  refine ⟨?_, ?_⟩
  · simp only [claimed, hres, freeRemoved_fields, hlen]
    omega
  · simp only [freeRemoved_fields]
    omega

theorem Roomy.step (h : Roomy s) (hw : ∀ t, Windowed s t) (hs : Step chunk s e s') : Roomy s' := by
  cases slotMove_step hs with
  | same hsame => exact h.of_claimed hsame.claimed.le hsame.active
  | remove hbefore hafter =>
    refine h.of_claimed ?_ ?_
    · rw [hafter.claimed, claimed_removeStream, hbefore.claimed]
    · simp [hafter.active, hbefore.active]
  | bridge hr =>
    obtain ⟨ha, rfl⟩ := tryReserveStreamSlot_eq hr
    exact h.bridge ha
  | @fetchId t ht hp =>
    refine h.early t rfl rfl rfl rfl ?_ ?_ (by simp +contextual)
    · simp [hp, Phase.early]
    · simp [Phase.early]
  | @idInUse t hp hi =>
    refine h.early t rfl rfl rfl rfl ?_ ?_ (by simp +contextual)
    · simp [hp, Phase.early]
    · simp [Phase.early]
  | insertStream hp =>
    exact h.of_claimed (claimed_insertStream ((hw _).lt_started (by simp [hp])) hp) (by simp)
  | release hm => exact h.release hm

theorem roomy_of_reachable (h : (lts chunk).Reachable s) : Roomy s := by
  refine h.invariant_of (fun s h => windowed_of_reachable h) ?_ fun s e s' hw _ ih hs => ih.step hw hs
  rintro s rfl
  exact ⟨by simp [claimed, reserved], by decide⟩

end Room

section Allocation

/-- The loop at the head of `wss_tunnel`, with nobody in between. -/
def allocateStreamId (s : ConnectorManager) (t : Nat) : Nat → Option ConnectorManager
  | 0 => none
  | fuel + 1 =>
    let s := s.fetchStreamId t
    if (s.tunnels t).id ∈ s.streams then (s.setPhase t .fetchId).allocateStreamId t fuel
    else some (s.setPhase t .insertPending)

/-- Of more ids than there are entries, one is free. -/
theorem exists_free (keys : Finset UInt32) (i : UInt32) (h : keys.card < 2 ^ 32) :
    ∃ k ≤ keys.card, i + UInt32.ofNat k ∉ keys := by
  by_contra hn
  push Not at hn
  have hmaps : Set.MapsTo (fun k => i + UInt32.ofNat k) (Finset.range (keys.card + 1)) keys := by
    intro k hk
    exact hn k (by simpa [Nat.lt_succ_iff] using hk)
  have hinj : Set.InjOn (fun k => i + UInt32.ofNat k) (Finset.range (keys.card + 1)) := by
    intro a ha b hb he
    simp only [Finset.coe_range, Set.mem_Iio] at ha hb
    have he : UInt32.ofNat a = UInt32.ofNat b := by simpa using he
    have := congrArg UInt32.toNat he
    simp only [UInt32.toNat_ofNat'] at this
    omega
  have hle := Finset.card_le_card_of_injOn _ hmaps hinj
  rw [Finset.card_range] at hle
  omega

/-- The loop goes on for as long as the ids it draws are taken. -/
theorem allocateStreamId_of_free (k : Nat) (hk : s.nextStreamId + UInt32.ofNat k ∉ s.streams) :
    ∃ s', s.allocateStreamId t (k + 1) = some s' := by
  induction k generalizing s with
  | zero => exact ⟨_, if_neg (by simpa using hk)⟩
  | succ k ih =>
    unfold allocateStreamId
    simp only
    split
    · refine ih ?_
      have hnext : s.nextStreamId + 1 + UInt32.ofNat k = s.nextStreamId + UInt32.ofNat (k + 1) := by
        rw [Nat.add_comm k, UInt32.ofNat_add, ← UInt32.add_assoc]
        rfl
      simpa [hnext] using hk
    · exact ⟨_, rfl⟩

theorem allocateStreamId_run {fuel : Nat} (ht : t < s.started) (hp : (s.tunnels t).phase = .fetchId)
    (h : s.allocateStreamId t fuel = some s') :
    ∃ n, (lts chunk).MTr s (List.replicate n .internal) s' ∧
      (s'.tunnels t).phase = .insertPending ∧ (s'.tunnels t).id ∉ s'.streams := by
  induction fuel generalizing s with
  | zero => cases h
  | succ fuel ih =>
    have hfetch : Step chunk s .internal (s.fetchStreamId t) := .fetchId ht hp
    unfold allocateStreamId at h
    simp only at h
    split at h
    · rename_i hi
      obtain ⟨n, hrun, hend⟩ := ih (by simpa using ht) (by simp) h
      exact ⟨n + 2, .stepL hfetch (.stepL (.idInUse (by simp) hi) hrun), hend⟩
    · rename_i hi
      cases h
      exact ⟨2, .stepL hfetch (.stepL (.idFree (by simp) hi) .refl), by simp, by simpa using hi⟩

end Allocation

section Draws

/-- A manager with the number of ids that have been drawn, and for each task the number of its
latest draw. -/
structure Counted where
  manager : ConnectorManager := {}
  draws : Nat := 0
  drawn : Nat → Nat := fun _ => 0

/-- The steps of the manager, counted by those that move its counter. -/
inductive Counted.Step (chunk : Nat) : Counted → Event → Counted → Prop
  | draw {m : Counted} {e : Event} {t : Nat}
      (hs : ConnectorManager.Step chunk m.manager e (m.manager.fetchStreamId t))
      (hp : (m.manager.tunnels t).phase = .fetchId) :
      Step chunk m e ⟨m.manager.fetchStreamId t, m.draws + 1, Function.update m.drawn t m.draws⟩
  | other {m : Counted} {e : Event} {s' : ConnectorManager}
      (hs : ConnectorManager.Step chunk m.manager e s')
      (hn : s'.nextStreamId = m.manager.nextStreamId) : Step chunk m e { m with manager := s' }

def counted (chunk : Nat) : LTS Counted Event where
  Init m := m = {}
  Tr := Counted.Step chunk

/-- No task still holds its id when 2^32 more have been drawn. -/
def Brief (m : Counted) : Prop :=
  ∀ t, (m.manager.tunnels t).phase.holds = true → m.draws ≤ m.drawn t + 2 ^ 32

variable {m m' : Counted}

theorem fetchStreamId_next : (s.fetchStreamId t).nextStreamId ≠ s.nextStreamId := by
  intro h
  simp at h

/-- Counting leaves out no run. -/
theorem exists_counted (h : (lts chunk).Reachable s) :
    ∃ m, (counted chunk).Reachable m ∧ m.manager = s := by
  induction h with
  | init h => exact ⟨{}, .init rfl, h.symm⟩
  | @step s s' e _ hs ih =>
    obtain ⟨m, hm, rfl⟩ := ih
    have hother := fun hn => (⟨{ m with manager := s' }, hm.step (.other hs hn), rfl⟩ :
      ∃ m, (counted chunk).Reachable m ∧ m.manager = s')
    cases slotMove_step hs with
    | same h => exact hother h.next
    | remove h h' => exact hother (by simp [h'.next, h.next])
    | bridge hr =>
      obtain ⟨-, rfl⟩ := tryReserveStreamSlot_eq hr
      exact hother (by simp)
    | fetchId ht hp => exact ⟨_, hm.step (.draw hs hp), rfl⟩
    | idInUse hp hi => exact hother (by simp)
    | insertStream hp => exact hother (by simp)
    | release hm => exact hother (by simp)

theorem Counted.step_manager (h : Counted.Step chunk m e m') :
    ConnectorManager.Step chunk m.manager e m'.manager := by
  cases h with
  | draw hs hp => exact hs
  | other hs hn => exact hs

theorem manager_reachable (h : (counted chunk).Reachable m) : (lts chunk).Reachable m.manager := by
  induction h with
  | init h => exact .init (congrArg Counted.manager h)
  | step _ hs ih => exact ih.step (Counted.step_manager hs)

/-- A step that draws nothing gives no task an id. -/
theorem SlotMove.keeps_id (h : SlotMove s s') (hn : s'.nextStreamId = s.nextStreamId)
    (ht : (s'.tunnels t).phase ≠ .fetchId) :
    (s.tunnels t).phase ≠ .fetchId ∧ (s'.tunnels t).id = (s.tunnels t).id := by
  cases h with
  | same h => exact ⟨(h.fetch t).not.mp ht, h.id t⟩
  | @remove s₁ _ i h h' =>
    have ht : (s₁.tunnels t).phase ≠ .fetchId := by simpa using (h'.fetch t).not.mp ht
    exact ⟨(h.fetch t).not.mp ht, by simp [h'.id t, h.id t]⟩
  | bridge hr =>
    obtain ⟨-, rfl⟩ := tryReserveStreamSlot_eq hr
    by_cases hu : t = s.started
    · simp [hu] at ht
    · simpa [hu] using ht
  | fetchId => exact absurd hn fetchStreamId_next
  | @idInUse u hp hi =>
    by_cases hu : t = u
    · simp [hu] at ht
    · simpa [hu] using ht
  | @insertStream u hp =>
    by_cases hu : t = u
    · simp [hu, hp]
    · simpa [hu] using ht
  | release hm => exact ⟨ht, rfl⟩

/-- An id is the number of its draw, as far as 32 bits go, and no two tasks have one draw. -/
structure Numbered (m : Counted) : Prop where
  next : m.manager.nextStreamId = UInt32.ofNat (1 + m.draws)
  id : ∀ t, (m.manager.tunnels t).phase ≠ .fetchId →
    m.drawn t < m.draws ∧ (m.manager.tunnels t).id = UInt32.ofNat (1 + m.drawn t)
  unique : ∀ t u, (m.manager.tunnels t).phase ≠ .fetchId → (m.manager.tunnels u).phase ≠ .fetchId →
    m.drawn t = m.drawn u → t = u

theorem Numbered.draw (h : Numbered m) :
    Numbered ⟨m.manager.fetchStreamId t, m.draws + 1, Function.update m.drawn t m.draws⟩ := by
  have hother : ∀ u, u ≠ t → ((m.manager.fetchStreamId t).tunnels u).phase ≠ .fetchId →
      (m.manager.tunnels u).phase ≠ .fetchId := by
    intro u hu hp
    simpa [hu] using hp
  refine ⟨?_, fun u hp => ?_, fun u v hu hv he => ?_⟩
  · rw [← Nat.add_assoc, UInt32.ofNat_add, ← h.next]
    simp
  · by_cases hu : u = t
    · subst hu
      simp [h.next]
    · have hid := h.id u (hother u hu hp)
      simp only [fetchStreamId_tunnels, if_neg hu, Function.update_of_ne hu]
      exact ⟨by omega, hid.2⟩
  · dsimp only at hu hv he
    by_cases hut : u = t <;> by_cases hvt : v = t
    · rw [hut, hvt]
    · have := (h.id v (hother v hvt hv)).1
      rw [hut, Function.update_self, Function.update_of_ne hvt] at he
      omega
    · have := (h.id u (hother u hut hu)).1
      rw [hvt, Function.update_self, Function.update_of_ne hut] at he
      omega
    · rw [Function.update_of_ne hut, Function.update_of_ne hvt] at he
      exact h.unique u v (hother u hut hu) (hother v hvt hv) he

theorem Numbered.step (h : Numbered m) (hs : Counted.Step chunk m e m') : Numbered m' := by
  cases hs with
  | draw hs hp => exact h.draw
  | other hs hn =>
    have hkeep := fun t => (slotMove_step hs).keeps_id (t := t) hn
    refine ⟨hn.trans h.next, fun t ht => ?_, fun t u ht hu => ?_⟩
    · obtain ⟨ht, hid⟩ := hkeep t ht
      exact ⟨(h.id t ht).1, hid.trans (h.id t ht).2⟩
    · exact h.unique t u (hkeep t ht).1 (hkeep u hu).1

theorem numbered_of_reachable (h : (counted chunk).Reachable m) : Numbered m := by
  refine h.invariant ?_ fun m e m' ih hs => ih.step hs
  rintro m rfl
  exact ⟨rfl, by simp, by simp⟩

/-- Of two draws that are less than 2^32 apart, each has an id of its own. -/
theorem ofNat_injective_of_near {a b d : Nat} (ha : a < d) (hb : b < d) (ha' : d ≤ a + 2 ^ 32)
    (hb' : d ≤ b + 2 ^ 32) (h : UInt32.ofNat (1 + a) = UInt32.ofNat (1 + b)) : a = b := by
  have := congrArg UInt32.toNat h
  simp only [UInt32.toNat_ofNat'] at this
  omega

theorem Numbered.exclusive (h : Numbered m) (hb : Brief m) : Exclusive m.manager := by
  have hdrawn : ∀ t, (m.manager.tunnels t).phase.holds = true →
      (m.manager.tunnels t).phase ≠ .fetchId := by
    intro t ht hp
    simp [hp, Phase.holds] at ht
  intro t u ht hu he
  have htd := h.id t (hdrawn t ht)
  have hud := h.id u (hdrawn u hu)
  rw [htd.2, hud.2] at he
  exact h.unique t u (hdrawn t ht) (hdrawn u hu)
    (ofNat_injective_of_near htd.1 hud.1 (hb t ht) (hb u hu) he)

/-- In a short run every task draws once. -/
theorem draws_eq (h : (counted chunk).Reachable m) (hw : m.manager.started < 2 ^ 32) :
    m.draws = m.manager.allocated.card := by
  induction h with
  | init h => rw [h]; rfl
  | @step m m' e hm hs ih =>
    have hw' : m.manager.started < 2 ^ 32 :=
      (step_started (Counted.step_manager hs)).trans_lt hw
    have ih := ih hw'
    cases hs with
    | @draw t hs hp =>
      have ht : t < m.manager.started := by
        by_contra hn
        have := (tracked_of_reachable (manager_reachable (hm.step (.draw hs hp))) hw).ids.idle t
          (not_lt.mp hn)
        simp at this
      have hnew : t ∉ m.manager.allocated := by simp [hp]
      dsimp only
      rw [allocated_fetchStreamId ht, Finset.card_insert_of_notMem hnew, ih]
    | other hs hn =>
      refine ih.trans (congrArg Finset.card ?_)
      dsimp only at hn ⊢
      cases slotMove_step hs with
      | same h => exact h.allocated.symm
      | @remove s₁ _ i h h' =>
        have hids : SameIds s₁ (s₁.removeStream i) := by constructor <;> simp
        rw [h'.allocated, hids.allocated, h.allocated]
      | bridge hr => exact (allocated_spawnTunnel hr).symm
      | fetchId => exact absurd hn fetchStreamId_next
      | idInUse hp hi =>
        have hfree := (tracked_of_reachable (manager_reachable hm) hw').id_free hp
        exact absurd hi (Finmap.lookup_eq_none.mp hfree)
      | @insertStream t hp =>
        ext u
        by_cases hu : u = t <;> simp [hu, hp]
      | release => rfl

theorem brief_of_started (h : (counted chunk).Reachable m) (hw : m.manager.started < 2 ^ 32) :
    Brief m := by
  intro t _
  have hcard : m.manager.allocated.card ≤ m.manager.started :=
    (Finset.card_filter_le _ _).trans (Finset.card_range _).le
  rw [draws_eq h hw]
  omega

end Draws

/-- An id has one holder if fewer than 2^32 tunnels have been started, and also in a longer run if no
task still holds its id when 2^32 more have been drawn: then a task's own removal is of its own
entry, and no insert replaces an entry. Whoever draws ids finds a free one in any case. -/
theorem ids_exclusive (chunk : Nat) :
    (∀ m, (counted chunk).Reachable m → m.manager.started < 2 ^ 32 ∨ Brief m →
      Exclusive m.manager ∧
      (∀ t u, (m.manager.tunnels t).phase.holds = true →
        m.manager.streamOf (m.manager.tunnels t).id = some u → u = t) ∧
      ∀ t, (m.manager.tunnels t).phase = .insertStream →
        (m.manager.tunnels t).id ∉ m.manager.streams) ∧
    (∀ s, (lts chunk).Reachable s → ∃ m, (counted chunk).Reachable m ∧ m.manager = s) ∧
    ∀ s, (lts chunk).Reachable s → ∀ t < s.started, (s.tunnels t).phase = .fetchId →
      ∃ fuel ≤ maxActiveStreams + 1, ∃ s' n, s.allocateStreamId t fuel = some s' ∧
        (lts chunk).MTr s (List.replicate n .internal) s' := by
  refine ⟨fun m h hb => ?_, fun s => exists_counted, fun s h t ht hp => ?_⟩
  · have hex := (numbered_of_reachable h).exclusive (hb.elim (brief_of_started h) id)
    have hr := manager_reachable h
    have hown : ∀ t u, (m.manager.tunnels t).phase.holds = true →
        m.manager.streamOf (m.manager.tunnels t).id = some u → u = t := by
      intro t u ht hu
      obtain ⟨hid, -, hholds⟩ := holds_of_streamOf hr hu
      exact hex u t hholds ht hid
    refine ⟨hex, hown, fun t hp hmem => ?_⟩
    obtain ⟨u, hu⟩ := Finmap.mem_iff.mp hmem
    obtain rfl := hown t u (by simp [hp, Phase.holds]) hu
    have hearly := (holds_of_streamOf hr hu).2.1
    simp [hp, Phase.early] at hearly
  · have hroom := roomy_of_reachable h
    have hslots := hroom.slots
    have hcap := hroom.capped
    unfold claimed at hslots
    have hmax : maxActiveStreams < 2 ^ 32 := by decide
    obtain ⟨k, hk, hfree⟩ := exists_free s.streams.keys s.nextStreamId (by omega)
    obtain ⟨s', hs'⟩ := allocateStreamId_of_free (t := t) k (by simpa [Finmap.mem_keys] using hfree)
    obtain ⟨n, hrun, -⟩ := allocateStreamId_run ht hp hs'
    exact ⟨k + 1, by omega, s', n, hs', hrun⟩

theorem ids_exclusive_registered : ∃ m : Counted,
    (counted tunnelReadChunk).Reachable m ∧ m.manager.started < 2 ^ 32 ∧
    m.manager.streamOf 1 = some 0 ∧ Exclusive m.manager := by
  obtain ⟨s, hr, hl⟩ := lone_reachable tunnelReadChunk "http://localhost:80"
  obtain ⟨m, hm, rfl⟩ := exists_counted hr
  have hw : m.manager.started < 2 ^ 32 := by simp [hl.started]
  exact ⟨m, hm, hw, by simp [hl.streamOf], ((ids_exclusive tunnelReadChunk).1 m hm (.inl hw)).1⟩

section Wrap

/-- The first tunnel is out of the map and still writes to its client; `n` more have come and
gone. -/
structure Lingering (n : Nat) (s : ConnectorManager) : Prop where
  started : s.started = n + 1
  next : s.nextStreamId = UInt32.ofNat (n + 2)
  active : s.activeStreams = 0
  task : (s.tunnels 0).phase = .splice ∧ (s.tunnels 0).id = 1 ∧
    (s.tunnels 0).download = { pc := .write [7] 1 }
  streamOf : ∀ i, s.streamOf i = none
  waiterOf : ∀ i, s.waiterOf i = none
  reading : s.reading = none

/-- The connector answers the first Connect, sends a byte and closes. -/
theorem lingering_zero (chunk : Nat) : ∃ s, (lts chunk).Reachable s ∧ Lingering 0 s := by
  obtain ⟨s, hr, hq⟩ := queued_reachable chunk [7] (by decide)
  have hT := hq.tunnel
  have h1 := hr.step (Step.tunnel (t := 0) (.download (by simp [hT])
    (.recv (p := [7]) (q := []) (by simp [hT]) (by simp [hT])) (by simp)))
  have h2 := h1.step (Step.recv (m := .close 1) (by simpa using hq.reading))
  obtain ⟨s', hclear, hc⟩ := clear_run chunk (i := 1) (t := 0) (s := s.setTunnel 0 { s.tunnels 0 with
    download := { (s.tunnels 0).download with pc := .write [7] 1, queue := [] } }) (hq.streamOf 1)
  refine ⟨s', h2.trans hclear, ?_⟩
  constructor
  · simp [hc.started, hq.started]
  · simp [hc.next, hq.next]
  · simp [hc.active, hq.active]
  · obtain ⟨hph, hid, hd, -⟩ := hc.task 0
    rw [hph, hid, hd]
    simp [hT]
  · intro i
    rw [hc.streamOf, setTunnel_streamOf, hq.streamOf]
    split <;> rfl
  · intro i
    rw [hc.waiterOf, setTunnel_waiterOf, hq.waiterOf]
    split <;> rfl
  · simpa [hq.reading] using hc.idle.1

theorem lingering_reachable (chunk n : Nat) : ∃ s, (lts chunk).Reachable s ∧ Lingering n s := by
  induction n with
  | zero => exact lingering_zero chunk
  | succ n ih =>
    obtain ⟨s, hr, hl⟩ := ih
    obtain ⟨s', hrun, hp⟩ := pass_run (s := s) chunk (by rw [hl.active]; decide) (hl.streamOf _)
      (hl.waiterOf _)
    have htask := hp.task 0 (by rw [hl.started]; omega)
    refine ⟨s', hr.trans hrun, ?_⟩
    constructor
    · rw [hp.started, hl.started]
    · rw [hp.next, hl.next, UInt32.ofNat_add (n + 1 + 1) 1]
      rfl
    · rw [hp.active, hl.active]
    · obtain ⟨hph, hid, hd, -⟩ := htask
      rw [hph, hid, hd]
      exact hl.task
    · intro i
      rw [hp.streamOf, hl.streamOf]
    · intro i
      rw [hp.waiterOf, hl.waiterOf]
    · rw [hp.idle.1, hl.reading]

/-- A download that has one byte left to write, up to the end of the splice. -/
theorem tunnel_finish (chunk : Nat) (hp : T.phase = .splice)
    (hd : T.download = { pc := .write [7] 1 }) :
    ∃ T₁ T₂ T₃ T₄, Tunnel.Step chunk T .tau T₁ ∧ Tunnel.Step chunk T₁ .tau T₂ ∧
      Tunnel.Step chunk T₂ .starved T₃ ∧ Tunnel.Step chunk T₃ .tau T₄ ∧ T₄.phase = .finish := by
  obtain ⟨target, id, phase, answer, upload, download, outstanding⟩ := T
  dsimp only at hp hd
  subst hp hd
  have hbelow : 0 + 1 < windowUpdateThreshold := by decide
  exact ⟨_, _, _, _, .download rfl (.writeSome (k := 1) rfl (by decide) (by decide)) (by simp),
    .downloadDrained rfl (.writtenBelow rfl hbelow), .download rfl (.recvNone rfl rfl) (by simp),
    .shutdownClean rfl rfl rfl, rfl⟩

theorem setTunnel_setTunnel (T T' : Tunnel) :
    (s.setTunnel t T).setTunnel t T' = s.setTunnel t T' := by
  simp [setTunnel]

/-- The first tunnel writes its byte, finds no sender left and comes to its own removal. -/
theorem finish_run (chunk : Nat) (hp : (s.tunnels 0).phase = .splice)
    (hd : (s.tunnels 0).download = { pc := .write [7] 1 })
    (hs : s.streamOf (s.tunnels 0).id ≠ some 0) (hr : s.reading = none) :
    ∃ es T, (lts chunk).MTr s es (s.setTunnel 0 T) ∧ T.phase = .finish ∧ T.id = (s.tunnels 0).id := by
  obtain ⟨T₁, T₂, T₃, T₄, ht₁, ht₂, ht₃, ht₄, hphase⟩ := tunnel_finish chunk hp hd
  have hid₂ : T₂.id = (s.tunnels 0).id := (Tunnel.step_id ht₂).trans (Tunnel.step_id ht₁)
  have hid₄ : T₄.id = (s.tunnels 0).id := (Tunnel.step_id ht₄).trans ((Tunnel.step_id ht₃).trans hid₂)
  have htau : ∀ {T T'}, Tunnel.Step chunk T .tau T' →
      Step chunk (s.setTunnel 0 T) .internal (s.setTunnel 0 T') := by
    intro T T' h
    rw [← setTunnel_setTunnel T T']
    refine .tunnel ?_
    rwa [setTunnel_self]
  have hstarved : Step chunk (s.setTunnel 0 T₂) .internal (s.setTunnel 0 T₃) := by
    rw [← setTunnel_setTunnel T₂ T₃]
    refine .tunnelStarved ?_ ?_ ?_
    · rwa [setTunnel_self]
    · rwa [setTunnel_self, hid₂]
    · simp [hr]
  exact ⟨_, T₄, .stepL (.tunnel ht₁) (.stepL (htau ht₂) (.stepL hstarved (.stepL (htau ht₄) .refl))),
    hphase, hid₄⟩

/-- When 2^32 more tunnels have been opened, the last of them has the id of the first, which goes on
to its own removal and takes the entry of the other with it. -/
theorem id_shared_after_wrap : ∃ s s' : ConnectorManager,
    (lts tunnelReadChunk).Reachable s ∧ (s.tunnels 0).phase = .finish ∧
    (s.tunnels (2 ^ 32)).phase = .sendConnect ∧ (s.tunnels 0).id = (s.tunnels (2 ^ 32)).id ∧
    ¬ Exclusive s ∧ s.streamOf 1 = some (2 ^ 32) ∧
    Step tunnelReadChunk s .internal s' ∧ (s'.tunnels 0).phase = .ended ∧
    (s'.tunnels (2 ^ 32)).phase = .sendConnect ∧ s'.streamOf 1 = none := by
  obtain ⟨s, hr, hl⟩ := lingering_reachable tunnelReadChunk (2 ^ 32 - 1)
  have hnext : s.nextStreamId = 1 := hl.next.trans (by decide)
  have hstarted : s.started = 2 ^ 32 := hl.started
  obtain ⟨s₁, hopen, ho⟩ := open_run (s := s) tunnelReadChunk "" (by rw [hl.active]; decide)
    (hl.streamOf _) (hl.waiterOf _)
  have h0 : s₁.tunnels 0 = s.tunnels 0 := (ho.tunnels 0).trans (if_neg (by omega))
  have hN : s₁.tunnels (2 ^ 32) = { target := "", id := 1, phase := .sendConnect } := by
    rw [ho.tunnels, if_pos hstarted.symm, hnext]
  have hs : s₁.streamOf 1 = some (2 ^ 32) := by rw [ho.streamOf, if_pos hnext.symm, hstarted]
  obtain ⟨hph, hid, hd⟩ := hl.task
  obtain ⟨es, T, hrun, hT, hTid⟩ := finish_run (s := s₁) tunnelReadChunk (h0 ▸ hph) (h0 ▸ hd)
    (by rw [h0, hid, hs]; simp) (ho.idle.1.trans hl.reading)
  have hne : (2 ^ 32 : Nat) ≠ 0 := by decide
  have hTid : T.id = 1 := hTid.trans (h0 ▸ hid)
  have hremove : Step tunnelReadChunk (s₁.setTunnel 0 T) .internal _ :=
    .tunnelRemove (t := 0) (.removeFinished (by rw [setTunnel_self, hT]))
  refine ⟨_, _, (hr.trans hopen).trans hrun, ?_, ?_, ?_, ?_, hs, hremove, ?_, ?_, ?_⟩
  · rw [setTunnel_self, hT]
  · rw [setTunnel_tunnels, if_neg hne, hN]
  · rw [setTunnel_self, setTunnel_tunnels, if_neg hne, hN, hTid]
  · intro hex
    refine hne (hex (2 ^ 32) 0 ?_ ?_ ?_)
    · rw [setTunnel_tunnels, if_neg hne, hN]
      rfl
    · rw [setTunnel_self, hT]
      rfl
    · rw [setTunnel_self, setTunnel_tunnels, if_neg hne, hN, hTid]
  · rw [removeStream_phase, setTunnel_self]
  · rw [removeStream_phase, setTunnel_tunnels, if_neg hne, setTunnel_tunnels, if_neg hne, hN]
  · rw [removeStream_streamOf]
    exact if_pos (by rw [setTunnel_self]; exact hTid.symm)

end Wrap

end ConnectorManager

end X2rp.Wss
