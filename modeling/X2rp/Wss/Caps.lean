import X2rp.Roster
import X2rp.Wss.Agreement

/-! The two stream caps of a session: the server's counter and the connector's map. -/
namespace X2rp.Wss

open Proto

namespace SessionManager

variable {c c' : SessionManager} {chunk : Nat} {e : Event} {i j : UInt32} {H : Handler} {m : Message}

/-- The entries whose task has not returned. -/
def unfinished (c : SessionManager) : Finset UInt32 :=
  c.streams.filter fun i => ((c.tasks i).head?.map Handler.running).getD false

theorem mem_unfinished : i ∈ c.unfinished ↔
    i ∈ c.streams ∧ ∃ H, (c.tasks i).head? = some H ∧ H.running = true := by
  rw [unfinished, Finset.mem_filter]
  cases (c.tasks i).head? <;> simp

/-- Fewer entries, and no task of theirs that runs again. -/
theorem unfinished_subset (hs : c'.streams ⊆ c.streams)
    (ht : ∀ i ∈ c'.streams, ∀ H', (c'.tasks i).head? = some H' → H'.running = true →
      ∃ H, (c.tasks i).head? = some H ∧ H.running = true) : c'.unfinished ⊆ c.unfinished := by
  intro i hi
  obtain ⟨hi, H', hH, hr⟩ := mem_unfinished.mp hi
  exact mem_unfinished.mpr ⟨hs hi, ht i hi H' hH hr⟩

/-- A handler's step starts no task. -/
theorem unfinished_setTasks {newer older : List Handler} {H' : Handler}
    (ht : c.tasks i = newer ++ H :: older) (hr : H'.running = true → H.running = true) :
    (c.setTasks i (newer ++ H' :: older)).unfinished ⊆ c.unfinished := by
  refine unfinished_subset subset_rfl fun j _ K hK hrun => ?_
  by_cases hj : j = i
  · subst hj
    rw [ht]
    rw [setTasks_tasks, if_pos rfl] at hK
    cases newer with
    | nil =>
      cases hK
      exact ⟨H, rfl, hr hrun⟩
    | cons K' newer => exact ⟨K, hK, hrun⟩
  · rw [setTasks_tasks, if_neg hj] at hK
    exact ⟨K, hK, hrun⟩

theorem unfinished_modify {f : Handler → Handler} (hf : ∀ H, (f H).running = H.running) :
    (c.modify i f).unfinished ⊆ c.unfinished := by
  refine unfinished_subset subset_rfl fun j _ K hK hrun => ?_
  by_cases hj : j = i
  · subst hj
    rw [modify_tasks, if_pos rfl] at hK
    cases ht : c.tasks j with
    | nil => simp [ht] at hK
    | cons H rest =>
      simp only [ht, List.modifyHead_cons, List.head?_cons, Option.some.injEq] at hK
      subst hK
      exact ⟨H, rfl, hf H ▸ hrun⟩
  · rw [modify_tasks, if_neg hj] at hK
    exact ⟨K, hK, hrun⟩

theorem unfinished_remove : (c.remove i).unfinished ⊆ c.unfinished.erase i := by
  intro j hj
  obtain ⟨hs, H, hH, hr⟩ := mem_unfinished.mp hj
  rw [remove_streams, Finset.mem_erase] at hs
  rw [remove_tasks, if_neg (fun h => hs.1 h.1)] at hH
  exact Finset.mem_erase.mpr ⟨hs.1, mem_unfinished.mpr ⟨hs.2, H, hH, hr⟩⟩

/-- The connector's own steps open no stream. -/
theorem step_unfinished (h : Step chunk c e c') (he : ∀ m, e ≠ .input m) :
    c'.unfinished ⊆ c.unfinished ∧ (c.refusals = [] → c'.refusals = []) := by
  cases h with
  | handler ht h => exact ⟨unfinished_setTasks ht (Handler.step_running h), id⟩
  | handlerSend ht h => exact ⟨unfinished_setTasks ht (Handler.step_running h), id⟩
  | refuse h => exact ⟨subset_rfl, fun hn => by simp [hn]⟩
  | recv => exact absurd rfl (he _)

end SessionManager

/-- What a message to the connector says about the streams that are open there. -/
def notice : Message → Option (Notice UInt32)
  | .connect id _ => some (.join id)
  | .reset id => some (.leave id)
  | _ => none

@[simp] theorem notice_truncated {m : Message} : notice m.truncated = notice m := by
  cases m <;> rfl

theorem notice_join {m : Message} {i : UInt32} : notice m = some (.join i) ↔
    ∃ target, m = .connect i target := by
  cases m <;> simp [notice]

namespace SessionManager

variable {c c' : SessionManager} {i : UInt32} {m : Message}

/-- No entry has a task that has sent its last message and is not recorded as finished. -/
def Recorded (c : SessionManager) : Prop :=
  ∀ i ∈ c.streams, ∀ H, (c.tasks i).head? = some H → H.pc ≠ .returned

theorem retainUnfinished_streams (h : c.Recorded) : c.retainUnfinished.streams = c.unfinished := by
  refine Finset.filter_congr fun i hi => ?_
  unfold taskFinished
  cases hH : (c.tasks i).head? with
  | none => simp
  | some H => simp [Handler.running, h i hi H hH]

/-- A `Connect` that finds room is accepted. -/
theorem handleConnect_spec {target : String} (h : c.Recorded)
    (hroom : (c.unfinished.erase i).card < maxActiveStreams) :
    (c.handleConnect i target).unfinished ⊆ insert i c.unfinished ∧
      (c.handleConnect i target).refusals = c.refusals := by
  have hs : (c.retainUnfinished.remove i).streams = c.unfinished.erase i := by
    rw [remove_streams, retainUnfinished_streams h]
  have hc : c.handleConnect i target =
      { (c.retainUnfinished.remove i).setTasks i
          ({ target := target } :: (c.retainUnfinished.remove i).tasks i) with
        streams := insert i (c.unfinished.erase i) } := by
    simp [handleConnect, hs, Nat.not_le.mpr hroom]
  refine ⟨fun j hj => ?_, by simp [hc, retainUnfinished]⟩
  by_cases hji : j = i
  · exact hji ▸ Finset.mem_insert_self ..
  · rw [hc] at hj
    have hj := (mem_unfinished.mp hj).1
    exact Finset.insert_subset_insert i (Finset.erase_subset ..) hj

/-- What a message from the server comes to. -/
inductive Handled (c : SessionManager) : Message → SessionManager → Prop
  | connect {id : UInt32} {target : String} :
      Handled c (.connect id target) (c.handleConnect id target)
  | reset {id : UInt32} : Handled c (.reset id) (c.remove id)
  | gone {id : UInt32} {payload : Bytes} : Handled c (.data id payload) (c.remove id)
  | modified {m : Message} {id : UInt32} {f : Handler → Handler} (hm : notice m = none)
      (hf : ∀ H, (f H).running = H.running) : Handled c m (c.modify id f)
  | ignored {m : Message} (hm : notice m = none) : Handled c m c

theorem handled (c : SessionManager) (m : Message) : Handled c m (c.handleMessage m) := by
  cases m with
  | connect id target => exact .connect
  | data id payload =>
    change Handled c _ (c.handleData id payload)
    unfold handleData
    split
    · split
      · exact .ignored rfl
      · split
        · split
          · exact .modified rfl fun H => by simp [Handler.running]
          · exact .gone
        · exact .ignored rfl
    · exact .ignored rfl
  | close id =>
    simp only [handleMessage]
    split
    · exact .modified rfl fun H => by simp [Handler.running]
    · exact .ignored rfl
  | reset id => exact .reset
  | windowUpdate id bytes =>
    simp only [handleMessage]
    split
    · exact .modified rfl fun H => by simp [Handler.running]
    · exact .ignored rfl
  | _ => exact .ignored rfl

/-- A message leaves open what its notice says. -/
theorem Handled.unfinished (h : Handled c m c')
    (hr : ∀ id target, m = .connect id target → c.Recorded)
    (hroom : Roster.Fits maxActiveStreams c.unfinished (notice m).toList) :
    c'.unfinished ⊆ Roster.after c.unfinished (notice m).toList ∧ c'.refusals = c.refusals := by
  cases h with
  | connect => exact handleConnect_spec (hr _ _ rfl) hroom.1
  | reset => exact ⟨unfinished_remove, remove_refusals⟩
  | gone => exact ⟨unfinished_remove.trans (Finset.erase_subset ..), remove_refusals⟩
  | modified hm hf => exact ⟨hm ▸ unfinished_modify hf, rfl⟩
  | ignored hm => exact ⟨hm ▸ subset_rfl, rfl⟩

theorem handleConnect_card {target : String} (hc : c.streams.card ≤ maxActiveStreams) :
    (c.handleConnect i target).streams.card ≤ maxActiveStreams := by
  have hsub : (c.retainUnfinished.remove i).streams ⊆ c.streams := by
    rw [remove_streams]
    exact (Finset.erase_subset ..).trans (Finset.filter_subset ..)
  unfold handleConnect
  dsimp only
  split
  · exact (Finset.card_le_card hsub).trans hc
  · exact (Finset.card_insert_le ..).trans (by omega)

/-- Whatever arrives, the map stays within the cap. -/
theorem step_card {chunk : Nat} {e : Event} (h : Step chunk c e c')
    (hc : c.streams.card ≤ maxActiveStreams) : c'.streams.card ≤ maxActiveStreams := by
  have hremove : ∀ {i}, (c.remove i).streams.card ≤ maxActiveStreams := by
    intro i
    rw [remove_streams]
    exact (Finset.card_le_card (Finset.erase_subset ..)).trans hc
  cases h with
  | @recv m =>
    have hm := handled c m
    generalize c.handleMessage m = c' at hm ⊢
    cases hm with
    | connect => exact handleConnect_card hc
    | reset => exact hremove
    | gone => exact hremove
    | modified => exact hc
    | ignored => exact hc
  | _ => exact hc

end SessionManager

namespace Stream

variable {s : Stream} {chunk : Nat}

/-- A connector that has read nothing has not been heard of. -/
theorem Runs.unheard {P : ServerEnd → Prop} {Q : ConnectorEnd → Prop}
    {sIns sOuts cIns cOuts : List Body} (h : Runs chunk P Q s sIns sOuts cIns cOuts)
    (hc : cIns = []) : sIns = [] := by
  have hquiet : cOuts = [] := by
    have hcourse := h.course
    generalize s.connector = C at hcourse
    cases hcourse with
    | idle => rfl
    | refused hi => simp [hc] at hi
    | entry => simp at hc
  have hdown := h.down
  rw [hquiet] at hdown
  exact (List.append_eq_nil_iff.mp hdown).1

/-- A stream that the connector has open, or will have when it has read what is on its way, is
registered at the server, unless its tunnel still has to tell that it has given up. -/
theorem registered_of_open (h : (lts chunk).Reachable s) (hp : s.server.tunnel.phase ≠ .sendReset)
    (ho : (s.connector.entry = true ∧ (∃ H ∈ s.connector.handlers, H.running = true) ∧
        .reset ∉ s.up) ∨
      ∃ u₁ target u₂, s.up = u₁ ++ .connect target :: u₂ ∧ .reset ∉ u₂) :
    s.server.registered = true := by
  obtain ⟨sIns, sOuts, cIns, cOuts, hruns⟩ := calm_runs h
  have hleave := ServerEnd.leaving_of_run hruns.server
  have hup := hruns.up
  have hin : ∀ {b : Body}, b.isErr = false → b ∈ sIns → b ∈ cOuts := by
    intro b hb hm
    exact (mem_map_truncated hb).mp (hruns.down ▸ List.mem_append_left _ hm)
  by_contra hreg
  have hgone := hleave.gone (by simpa using hreg)
  rcases ho with ⟨hentry, ⟨H, hH, hrun⟩, hreset⟩ | ⟨u₁, target, u₂, hu, hreset⟩
  · obtain ⟨before, ins, E, rfl, hb, hr, hC, rfl⟩ := hruns.course.of_task hH
    have ht := Entry.telling_of_run hr
    rw [List.append_assoc, List.cons_append] at hup
    obtain rfl : before = [] := (hup ▸ hleave.opening).first hb
    rcases hgone with hg | hg | hg | hg | ⟨hg, -⟩
    · have hm : .reset ∈ ins := by simpa [← hup, hreset] using hg
      simp [hC, Entry.toEnd, ht.dropped hm] at hentry
    · exact hp hg
    · exact (ht.running hrun).1 (hin rfl hg)
    · exact ht.reset (hin rfl hg)
    · simp [hg] at hup
  · have honce := ServerEnd.connect_once hruns.server
    rw [← hup, hu, ← List.append_assoc] at honce
    rw [List.countP_append, List.countP_cons_of_pos rfl] at honce
    have hnone : (cIns ++ u₁).countP Body.isConnect = 0 := by omega
    have hopening : ServerEnd.Opening (cIns ++ u₁ ++ .connect target :: u₂) s.server.tunnel := by
      rw [List.append_assoc, ← hu, hup]
      exact hleave.opening
    obtain ⟨hc, rfl⟩ := List.append_eq_nil_iff.mp
      (hopening.first fun b hb => by simpa using List.countP_eq_zero.mp hnone b hb)
    obtain rfl := hruns.unheard hc
    rcases hgone with hg | hg | hg | hg | ⟨hg, -⟩
    · simp [← hup, hc, hu, hreset] at hg
    · exact hp hg
    · simp at hg
    · simp at hg
    · simp [← hup, hu] at hg

/-- A tunnel that has yet to send its `Connect` is registered. -/
theorem registered_of_sendConnect (h : (lts chunk).Reachable s)
    (hp : s.server.tunnel.phase = .sendConnect) : s.server.registered = true := by
  obtain ⟨sIns, sOuts, cIns, cOuts, hruns⟩ := calm_runs h
  have hleave := ServerEnd.leaving_of_run hruns.server
  have hnone : sOuts = [] := by
    rcases hleave.opening with ⟨ho, -⟩ | ⟨-, hn, -⟩
    · exact ho
    · exact absurd hp hn
  obtain ⟨hc, -⟩ := List.append_eq_nil_iff.mp (hruns.up.trans hnone)
  by_contra hreg
  have hgone := hleave.gone (by simpa using hreg)
  simp [hnone, hruns.unheard hc, hp] at hgone

end Stream

namespace Mux

variable {s s' : Mux} {chunk t : Nat} {i : UInt32}

/-- What the connector will find, when it comes to a `Connect`, once the messages before it have
been handled. -/
def notices (s : Mux) : List (Notice UInt32) := s.up.filterMap notice

/-- A backend task that has sent its last message is finished when the next `Connect` is
handled. -/
def Prompt (s : Mux) (_ : Unit) (s' : Mux) : Prop :=
  ∀ id target, s.up = .connect id target :: s'.up → s.connector.Recorded

/-- The tunnels whose connect failed, and that have removed their stream and not sent `Reset`. -/
def unreset (s : Mux) : Finset Nat :=
  (Finset.range s.server.started).filter fun t => (s.server.tunnels t).phase = .sendReset

/-- A `Connect` is sent only while the cap leaves room for the streams that are still to be reset. -/
def LeavesRoom (s : Mux) (_ : Unit) (s' : Mux) : Prop :=
  ∀ id target, s'.up = s.up ++ [.connect id target] →
    s.server.streams.keys.card + s.unreset.card ≤ maxActiveStreams

/-- The connector has room for every `Connect` on its way, and has refused none. -/
structure Roomy (s : Mux) : Prop where
  fits : Roster.Fits maxActiveStreams s.connector.unfinished s.notices
  refusals : s.connector.refusals = []

theorem leave_mem {l : List Message} (h : .reset ∈ l.filterMap (bodyFor i)) :
    .leave i ∈ l.filterMap notice := by
  obtain ⟨m, hm, hb⟩ := List.mem_filterMap.mp h
  obtain rfl := eq_message_of_bodyFor hb
  exact List.mem_filterMap.mpr ⟨_, hm, rfl⟩

theorem mem_streams_of_registered (h : (s.stream t).server.registered = true) :
    (s.server.tunnels t).id ∈ s.server.streams :=
  Finmap.mem_iff.mpr ⟨t, of_decide_eq_true h⟩

/-- A stream that will be open at the connector is in the server's map, or its `Reset` is due. -/
theorem mem_streams_of_open (h : (lts chunk).Reachable s) (hw : s.server.started < 2 ^ 32)
    (hi : i ∈ Roster.after s.connector.unfinished s.notices) :
    i ∈ s.server.streams ∨ ∃ t ∈ s.unreset, (s.server.tunnels t).id = i := by
  obtain ⟨hc, hstream⟩ := stream_reachable h hw
  rcases hc.owned i with ⟨t, rfl, he⟩ | hsilent
  · by_cases hp : (s.server.tunnels t).phase = .sendReset
    · have hlt := late_lt_started hc he
      exact .inr ⟨t, Finset.mem_filter.mpr ⟨Finset.mem_range.mpr hlt, hp⟩, rfl⟩
    · refine .inl (mem_streams_of_registered (Stream.registered_of_open (hstream t he) hp ?_))
      rcases Roster.mem_after hi with ⟨hu, hq⟩ | ⟨q₁, q₂, hq, hl⟩
      · obtain ⟨hs, H, hH, hrun⟩ := SessionManager.mem_unfinished.mp hu
        refine .inl ⟨?_, ⟨H, List.mem_of_mem_head? hH, hrun⟩, fun hm => hq (leave_mem hm)⟩
        simpa [Mux.stream, SessionManager.endOf] using hs
      · obtain ⟨l₁, l₂, hup, -, hl₂⟩ := List.filterMap_eq_append_iff.mp hq
        obtain ⟨l₃, m, l₄, rfl, -, hm, rfl⟩ := List.filterMap_eq_cons_iff.mp hl₂
        obtain ⟨target, rfl⟩ := notice_join.mp hm
        refine .inr ⟨(l₁ ++ l₃).filterMap (bodyFor (s.server.tunnels t).id), target,
          l₄.filterMap (bodyFor (s.server.tunnels t).id), ?_, fun hm => hl (leave_mem hm)⟩
        simp [Mux.stream, hup, bodyFor, bodyOf]
  · -- Nothing of such an id has ever been on its way.
    rcases Roster.mem_after hi with ⟨hu, -⟩ | ⟨q₁, q₂, hq, -⟩
    · have hentry := congrArg ConnectorEnd.entry hsilent.connector
      simp [SessionManager.endOf, (SessionManager.mem_unfinished.mp hu).1] at hentry
    · obtain ⟨l₁, l₂, hup, -, hl₂⟩ := List.filterMap_eq_append_iff.mp hq
      obtain ⟨l₃, m, l₄, rfl, -, hm, rfl⟩ := List.filterMap_eq_cons_iff.mp hl₂
      obtain ⟨target, rfl⟩ := notice_join.mp hm
      have := hsilent.up (.connect i target) (by simp [hup])
      simp [bodyFor, bodyOf] at this

/-- A `Connect` is sent by a tunnel in the server's map. -/
theorem mem_streams_of_connect {M : ConnectorManager} {target : String}
    (h : (lts chunk).Reachable s) (hw : s.server.started < 2 ^ 32)
    (hs : ConnectorManager.Step chunk s.server (.output (.connect i target)) M) :
    i ∈ s.server.streams := by
  obtain ⟨hc, hstream⟩ := stream_reachable h hw
  generalize hm : Message.connect i target = m at hs
  cases hs with
  | @tunnelSend t b T ht hl =>
    have hb := congrArg bodyOf hm
    rw [bodyOf_message] at hb
    obtain ⟨rfl, rfl⟩ := Prod.mk.inj (Option.some.inj hb)
    have hp : (s.server.tunnels t).phase = .sendConnect := (Tunnel.step_connect ht).2 _ rfl rfl
    exact mem_streams_of_registered
      (Stream.registered_of_sendConnect (hstream t (by simp [hp, Phase.early])) hp)
  | spawnedSend hmem hl =>
    obtain ⟨u, rfl, -⟩ := hc.keyed.spawned _ hmem
    cases hm

/-- The server's own cap bounds its map. -/
theorem card_streams_le (h : (lts chunk).Reachable s) (hw : s.server.started < 2 ^ 32) :
    s.server.streams.keys.card ≤ maxActiveStreams := by
  have hT := (stream_reachable h hw).1.keyed.tracked
  have heq := hT.activeStreams_eq
  have hle := hT.activeStreams_le
  omega

theorem Roomy.step (h : Roomy s) (hr : (lts chunk).Reachable s) (hw : s.server.started < 2 ^ 32)
    (hs : Step chunk s () s') (hp : Prompt s () s') (hf : LeavesRoom s () s') : Roomy s' := by
  obtain ⟨hfits, href⟩ := h
  cases hs with
  | serverTask => exact ⟨hfits, href⟩
  | serverDeliver => exact ⟨hfits, href⟩
  | serverRecv => exact ⟨hfits, href⟩
  | @serverSend M m hm =>
    refine ⟨?_, href⟩
    change Roster.Fits _ _ ((s.up ++ [m.truncated]).filterMap notice)
    rw [List.filterMap_append]
    cases hn : notice m with
    | none => simpa [hn, notices] using hfits
    | some x =>
      simp only [List.filterMap_cons, notice_truncated, hn, List.filterMap_nil]
      refine hfits.concat ?_
      cases x with
      | leave i => trivial
      | join i =>
        obtain ⟨target, rfl⟩ := notice_join.mp hn
        refine ⟨?_, trivial⟩
        let ids := s.unreset.image fun t => (s.server.tunnels t).id
        have hsub : Roster.after s.connector.unfinished s.notices ⊆ s.server.streams.keys ∪ ids := by
          intro j hj
          rcases mem_streams_of_open hr hw hj with hj | ⟨t, ht, rfl⟩
          · exact Finset.mem_union_left _ (Finmap.mem_keys.mpr hj)
          · exact Finset.mem_union_right _ (Finset.mem_image_of_mem _ ht)
        have hmem : i ∈ s.server.streams.keys ∪ ids :=
          Finset.mem_union_left _ (Finmap.mem_keys.mpr (mem_streams_of_connect hr hw hm))
        calc ((Roster.after s.connector.unfinished s.notices).erase i).card
          _ ≤ ((s.server.streams.keys ∪ ids).erase i).card :=
            Finset.card_le_card (Finset.erase_subset_erase i hsub)
          _ < (s.server.streams.keys ∪ ids).card := Finset.card_erase_lt_of_mem hmem
          _ ≤ s.server.streams.keys.card + ids.card := Finset.card_union_le _ _
          _ ≤ s.server.streams.keys.card + s.unreset.card := by
            exact Nat.add_le_add_left Finset.card_image_le _
          _ ≤ maxActiveStreams := hf i target rfl
  | connectorTask hc =>
    obtain ⟨hsub, hr'⟩ := SessionManager.step_unfinished hc nofun
    exact ⟨hfits.mono hsub, hr' href⟩
  | connectorSend hc =>
    obtain ⟨hsub, hr'⟩ := SessionManager.step_unfinished hc nofun
    exact ⟨hfits.mono hsub, hr' href⟩
  | @connectorRecv C m rest hu hc =>
    have hq : s.notices = (notice m).toList ++ rest.filterMap notice := by
      cases hn : notice m <;> simp [notices, hu, hn]
    rw [hq] at hfits
    cases hc with
    | recv =>
      have hrec : ∀ id target, m = .connect id target → s.connector.Recorded := by
        rintro id target rfl
        exact hp id target hu
      cases hn : notice m with
      | none =>
        have hspec := (SessionManager.handled s.connector m).unfinished hrec (by simp [hn, Roster.Fits])
        rw [hn] at hspec hfits
        exact ⟨hfits.mono hspec.1, hspec.2.trans href⟩
      | some x =>
        rw [hn] at hfits
        have hspec := (SessionManager.handled s.connector m).unfinished hrec (hn ▸ hfits.first)
        rw [hn] at hspec
        exact ⟨hfits.rest hspec.1, hspec.2.trans href⟩

theorem roomy_of_reachable
    (h : ((lts chunk).restrict fun s e s' => Prompt s e s' ∧ LeavesRoom s e s').Reachable s)
    (hw : s.server.started < 2 ^ 32) : Roomy s := by
  induction h with
  | init h =>
    cases h
    exact ⟨trivial, rfl⟩
  | @step s s' e h hs ih =>
    have hw' : s.server.started < 2 ^ 32 := (step_started hs.1).trans_lt hw
    exact (ih hw').step h.of_restrict hw' hs.1 hs.2.1 hs.2.2

theorem card_of_reachable (h : (lts chunk).Reachable s) :
    s.connector.streams.card ≤ maxActiveStreams := by
  refine h.invariant (P := fun s => s.connector.streams.card ≤ maxActiveStreams) (fun s h => ?_)
    fun s e s' ih hs => ?_
  · cases h
    exact Nat.zero_le _
  · cases hs with
    | connectorTask h => exact SessionManager.step_card h ih
    | connectorSend h => exact SessionManager.step_card h ih
    | connectorRecv _ h => exact SessionManager.step_card h ih
    | _ => exact ih

/-- The two caps. The connector never holds more streams than its cap, whatever happens. As long as
each `Connect` is sent with room for the tunnels that gave up a failed connect and have yet to tell
so, the connector refuses no tunnel that the server has admitted. -/
theorem caps_agree :
    (∀ s, (lts chunk).Reachable s → s.connector.streams.card ≤ maxActiveStreams) ∧
    ∀ s, ((lts chunk).restrict fun s e s' => Prompt s e s' ∧ LeavesRoom s e s').Reachable s →
      s.server.started < 2 ^ 32 → s.connector.refusals = [] :=
  ⟨fun _ h => card_of_reachable h, fun _ h hw => (roomy_of_reachable h hw).refusals⟩

section Runs

/-- Both conditions are about the channel to the connector. -/
theorem prompt_of_length (h : s.up.length ≤ s'.up.length) : Prompt s () s' := by
  intro id target he
  rw [he, List.length_cons] at h
  omega

theorem leavesRoom_of_length (h : s'.up.length ≤ s.up.length) : LeavesRoom s () s' := by
  intro id target he
  rw [he, List.length_append, List.length_singleton] at h
  omega

/-- A session of `n` tunnels that all wait for their backends. -/
structure Waiting (n : Nat) (s : Mux) : Prop where
  server : s.server.Serial n
  phases : ∀ t, (s.server.tunnels t).phase ≠ .sendReset
  drawn : ∀ i ∈ s.connector.streams, ∃ t < n, i = UInt32.ofNat (1 + t)
  first : 0 < n → s.server.streamOf 1 = some 0 ∧
    s.server.tunnels 0 = { target := "", id := 1, phase := .awaitConnect }
  card : s.connector.streams.card = n
  tasks : ∀ i ∈ s.connector.streams, ∃ H, (s.connector.tasks i).head? = some H ∧
    H.pc = .connecting
  refusals : s.connector.refusals = []
  up : s.up = []

theorem Waiting.fresh {n : Nat} (h : Waiting n s) (hn : n < 2 ^ 32) :
    s.server.nextStreamId ∉ s.connector.streams := by
  intro hm
  obtain ⟨t, ht, he⟩ := h.drawn _ hm
  exact h.server.next_ne hn ht he

theorem Waiting.recorded {n : Nat} (h : Waiting n s) : s.connector.Recorded := by
  intro i hi H hH
  obtain ⟨K, hK, hp⟩ := h.tasks i hi
  rw [hK] at hH
  cases hH
  simp [hp]

theorem Waiting.unfinished {n : Nat} (h : Waiting n s) :
    s.connector.unfinished = s.connector.streams := by
  refine Finset.filter_true_of_mem fun i hi => ?_
  obtain ⟨H, hH, hp⟩ := h.tasks i hi
  simp [hH, Handler.running, hp]

/-- What the connector makes of the next `Connect`. -/
theorem Waiting.connect {n : Nat} (h : Waiting n s) (hi : i ∉ s.connector.streams)
    {target : String} : s.connector.handleMessage (.connect i target) =
      if maxActiveStreams ≤ n then { s.connector with refusals := [i] }
      else { s.connector.setTasks i ({ target := target } :: s.connector.tasks i) with
        streams := insert i s.connector.streams } := by
  have hretain : s.connector.retainUnfinished = s.connector := by
    have hs := (SessionManager.retainUnfinished_streams h.recorded).trans h.unfinished
    exact congrArg (fun l => { s.connector with streams := l }) hs
  simp only [SessionManager.handleMessage, SessionManager.handleConnect, hretain,
    SessionManager.remove, if_neg hi, h.card, h.refusals, List.nil_append]

/-- The next tunnel opens its stream, and its `Connect` is on its way. -/
theorem stream_opens {C : Mux → Unit → Mux → Prop} {M : ConnectorManager} (target : String)
    (hr : ((lts chunk).restrict C).Reachable { s with server := M })
    (ha : M.activeStreams < maxActiveStreams) (hs : M.streamOf M.nextStreamId = none)
    (hw : M.waiterOf M.nextStreamId = none) (hl : M.linkOpen = true)
    (hC : ∀ s₁ s₂ : Mux, s₂.up = s₁.up → C s₁ () s₂)
    (hsend : ∀ s₁ s₂ : Mux, (lts chunk).Reachable s₁ → ConnectorManager.Opened target M s₁.server →
      s₁.up.length ≤ s₂.up.length → C s₁ () s₂) :
    ∃ M', ConnectorManager.Opened target M M' ∧ ((lts chunk).restrict C).Reachable
      { s with
        server := M'.setTunnel M.started
          { target := target, id := M.nextStreamId, phase := .awaitConnect }
        up := s.up ++ [.connect M.nextStreamId target] } := by
  obtain ⟨M', hM, ho⟩ := ConnectorManager.open_run chunk target ha hs hw
  have h1 := LTS.Reachable.trans hr (serverTasks hC hM rfl)
  have h2 := Step.serverSend (s := { s with server := M' }) (ho.connect hl chunk)
  exact ⟨M', ho, h1.step ⟨h2, hsend _ _ h1.of_restrict ho (by simp)⟩⟩

/-- Below the cap one more tunnel joins the others. -/
theorem Waiting.more {n : Nat} (h : Waiting n s) (hn : n < maxActiveStreams)
    (hr : ((lts chunk).restrict fun s e s' => Prompt s e s' ∧ LeavesRoom s e s').Reachable s) :
    ∃ s', ((lts chunk).restrict fun s e s' => Prompt s e s' ∧ LeavesRoom s e s').Reachable s' ∧
      Waiting (n + 1) s' := by
  have hmax : maxActiveStreams < 2 ^ 32 := by decide
  obtain ⟨hs, hw⟩ := h.server.fresh (by omega)
  have hc := h.fresh (by omega)
  have hroom : ∀ s₁ s₂ : Mux, (lts chunk).Reachable s₁ →
      ConnectorManager.Opened "" s.server s₁.server → s₁.up.length ≤ s₂.up.length →
      Prompt s₁ () s₂ ∧ LeavesRoom s₁ () s₂ := by
    intro s₁ s₂ hr₁ ho hu
    refine ⟨prompt_of_length hu, fun _ _ _ => ?_⟩
    have hst := (h.server.opened ho).started
    have hnone : s₁.unreset = ∅ := by
      refine Finset.filter_false_of_mem fun t _ => ?_
      by_cases ht : t = s.server.started <;> simp [ho.tunnels, ht, h.phases]
    rw [hnone, Finset.card_empty, Nat.add_zero]
    exact card_streams_le hr₁ (by omega)
  obtain ⟨M', ho, h1⟩ := stream_opens (s := s) (M := s.server) "" hr
    (by rw [h.server.active]; exact hn) hs hw h.server.linkOpen
    (fun s₁ s₂ hu => ⟨prompt_of_length (by rw [hu]), leavesRoom_of_length (by rw [hu])⟩) hroom
  have hrecv : Step chunk { s with
    server := M'.setTunnel s.server.started
      { target := "", id := s.server.nextStreamId, phase := .awaitConnect }
    up := s.up ++ [.connect s.server.nextStreamId ""] } () _ :=
    .connectorRecv (show _ = _ :: [] by rw [h.up]; rfl) .recv
  simp only [h.connect hc, if_neg (show ¬ maxActiveStreams ≤ n by omega)] at hrecv
  refine ⟨_, h1.step ⟨hrecv, fun _ _ _ => h.recorded, leavesRoom_of_length (by simp)⟩, ?_⟩
  have hst : s.server.started = n := h.server.started
  refine ⟨(h.server.opened ho).setTunnel _ _, fun t => ?_, fun i hi => ?_, fun _ => ?_, ?_,
    fun i hi => ?_, h.refusals, rfl⟩
  · by_cases ht : t = s.server.started <;> simp [ho.tunnels, ht, h.phases]
  · rcases Finset.mem_insert.mp hi with rfl | hi
    · exact ⟨n, by omega, h.server.next⟩
    · obtain ⟨t, ht, he⟩ := h.drawn i hi
      exact ⟨t, by omega, he⟩
  · rcases Nat.eq_zero_or_pos n with rfl | hpos
    · have hone : s.server.nextStreamId = 1 := h.server.next
      simp [ho.streamOf, hst, hone]
    · obtain ⟨hs1, hT1⟩ := h.first hpos
      have hne : (1 : UInt32) ≠ s.server.nextStreamId := by
        rintro he
        rw [← he, hs1] at hs
        cases hs
      have hne' : 0 ≠ s.server.started := by omega
      simp [ho.streamOf, ho.tunnels, hne, hne', hs1, hT1]
  · simp [Finset.card_insert_of_notMem hc, h.card]
  · by_cases hin : i = s.server.nextStreamId
    · exact ⟨{ target := "" }, by simp [hin], rfl⟩
    · obtain ⟨H, hH, hp⟩ := h.tasks i (by simpa [hin] using hi)
      exact ⟨H, by simpa [hin] using hH, hp⟩

theorem waiting_run (chunk : Nat) {n : Nat} (hn : n ≤ maxActiveStreams) : ∃ s,
    ((lts chunk).restrict fun s e s' => Prompt s e s' ∧ LeavesRoom s e s').Reachable s ∧
      Waiting n s := by
  induction n with
  | zero =>
    exact ⟨{}, .init rfl, ConnectorManager.serial_init, by simp, by simp, by simp, rfl, by simp, rfl, rfl⟩
  | succ n ih =>
    obtain ⟨s, hr, hs⟩ := ih (by omega)
    exact hs.more (by omega) hr

/-- The wait of the first tunnel times out: it removes its stream, which frees the slot. -/
theorem timeout_run (chunk : Nat) {M : ConnectorManager} (hs : M.streamOf 1 = some 0)
    (hT : M.tunnels 0 = { target := "", id := 1, phase := .awaitConnect }) :
    ∃ M', (ConnectorManager.lts chunk).MTr M (List.replicate 3 .internal) M' ∧
      M'.started = M.started ∧ M'.nextStreamId = M.nextStreamId ∧
      M'.activeStreams = M.activeStreams - 1 ∧ M'.linkOpen = M.linkOpen ∧
      (∀ i, M.streamOf i = none → M'.streamOf i = none) ∧ (∀ i, M'.waiterOf i = M.waiterOf i) := by
  let T : Tunnel := { target := "", id := 1, phase := .giveUp }
  have h1 : ConnectorManager.Step chunk M .internal (M.setTunnel 0 T) := by
    have ht : Tunnel.Step chunk (M.tunnels 0) .tau { M.tunnels 0 with phase := .giveUp } :=
      .timedOut (by rw [hT]) (by rw [hT])
    rw [hT] at ht
    exact .tunnel (hT ▸ ht)
  have h2 : ConnectorManager.Step chunk (M.setTunnel 0 T) .internal
      (((M.setTunnel 0 T).setTunnel 0 { T with phase := .sendReset }).removeStream 1) :=
    .tunnelRemove (t := 0) (by simpa using Tunnel.Step.removeRefused (T := T) rfl)
  have hrel : (1, 0) ∈ (((M.setTunnel 0 T).setTunnel 0
      { T with phase := .sendReset }).removeStream 1).releasing := by
    rw [ConnectorManager.removeStream_some (t := 0) (by simpa using hs)]
    exact List.mem_cons_self
  refine ⟨_, .stepL h1 (.stepL h2 (.stepL (.release hrel) .refl)), by simp, by simp, by simp,
    by simp, fun i hi => ?_, by simp⟩
  simp only [ConnectorManager.freeRemoved_streamOf, ConnectorManager.removeStream_streamOf,
    ConnectorManager.setTunnel_streamOf, hi, ite_self]

end Runs

/-- The caps at work: the server admits as many tunnels as the connector has room for. -/
theorem caps_agree_full : ∃ s : Mux,
    ((lts tunnelReadChunk).restrict fun s e s' => Prompt s e s' ∧ LeavesRoom s e s').Reachable s ∧
      s.server.started < 2 ^ 32 ∧ s.server.activeStreams = maxActiveStreams ∧
      s.connector.streams.card = maxActiveStreams ∧
      s.connector.streams.card ≤ maxActiveStreams ∧ s.connector.refusals = [] := by
  obtain ⟨s, hr, hs⟩ := waiting_run tunnelReadChunk le_rfl
  have hw : s.server.started < 2 ^ 32 := by
    rw [hs.server.started]
    decide
  exact ⟨s, hr, hw, hs.server.active, hs.card, caps_agree.1 s hr.of_restrict, caps_agree.2 s hr hw⟩

/-- At the cap a connect times out, and its tunnel frees its slot before it sends `Reset`. The next
tunnel's `Connect` comes first, and the connector refuses it. -/
theorem refused_after_timeout : ∃ s : Mux, ((lts tunnelReadChunk).restrict Prompt).Reachable s ∧
    s.server.started < 2 ^ 32 ∧ s.connector.refusals ≠ [] := by
  have hmax : maxActiveStreams < 2 ^ 32 := by decide
  have hpos : 0 < maxActiveStreams := by decide
  obtain ⟨s, hr, hs⟩ := waiting_run tunnelReadChunk le_rfl
  obtain ⟨hstream, hwait⟩ := hs.server.fresh hmax
  have hprompt : ∀ s₁ s₂ : Mux, s₂.up = s₁.up → Prompt s₁ () s₂ :=
    fun s₁ s₂ hu => prompt_of_length (by rw [hu])
  obtain ⟨M, hM, hst, hnext, hact, hl, hkeep, hkeep'⟩ :=
    timeout_run tunnelReadChunk (hs.first hpos).1 (hs.first hpos).2
  have h1 := LTS.Reachable.trans (hr.restrict_mono fun _ _ _ h => h.1) (serverTasks hprompt hM rfl)
  have hactive := hs.server.active
  obtain ⟨M', ho, h2⟩ := stream_opens (s := s) (M := M) "" h1 (by omega)
    (hkeep _ (hnext ▸ hstream)) ((hkeep' _).trans (hnext ▸ hwait)) (hl.trans hs.server.linkOpen) hprompt
    fun s₁ s₂ _ _ hu => prompt_of_length hu
  rw [hnext] at h2
  have hrecv : Step tunnelReadChunk { s with
    server := M'.setTunnel M.started
      { target := "", id := s.server.nextStreamId, phase := .awaitConnect }
    up := s.up ++ [.connect s.server.nextStreamId ""] } () _ :=
    .connectorRecv (show _ = _ :: [] by rw [hs.up]; rfl) .recv
  simp only [hs.connect (hs.fresh hmax), if_pos (le_refl maxActiveStreams)] at hrecv
  refine ⟨_, h2.step ⟨hrecv, fun _ _ _ => hs.recorded⟩, ?_, List.cons_ne_nil _ _⟩
  change (M'.setTunnel M.started _).started < 2 ^ 32
  rw [ConnectorManager.setTunnel_fields.2.2.1, ho.started, hst, hs.server.started]
  decide

end Mux

end X2rp.Wss
