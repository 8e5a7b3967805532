import X2rp.Wss.Mux
import X2rp.Wss.Projection

/-! A mux run, seen from one of its tunnels, is a run of that stream on its own. -/
namespace X2rp.Wss

open Proto

namespace ConnectorManager

variable {s s' : ConnectorManager} {chunk : Nat} {e : Event} {t u : Nat} {i j : UInt32}
  {m : Message} {p : Bytes}

theorem Handled.failing (h : Handled s m s') :
    s'.failing = s.failing ∧ s'.linkOpen = s.linkOpen := by
  cases h <;> simp

theorem Handled.spawned {m' : Message} (h : Handled s m s') (hm : m' ∈ s'.spawned) :
    m' ∈ s.spawned ∨ ∃ i t, m' = .reset i ∧ s.streamOf i = some t := by
  cases h with
  | @exceeded i t p hi _ =>
    rcases List.mem_append.mp hm with hm | hm
    · exact .inl hm
    · exact .inr ⟨i, t, by simpa using hm, hi⟩
  | _ => exact .inl (by simpa using hm)

theorem deliver_failing : (s.deliver i t p).failing = s.failing ∧
    (s.deliver i t p).linkOpen = s.linkOpen ∧ (s.deliver i t p).spawned = s.spawned := by
  unfold deliver
  dsimp only
  split <;> simp

theorem step_linkOpen (h : Step chunk s e s') (hh : e ≠ .hangup) : s'.linkOpen = s.linkOpen := by
  cases h with
  | bridge hr =>
    obtain ⟨-, rfl⟩ := tryReserveStreamSlot_eq hr
    rfl
  | recv hr => exact (handled ..).failing.2
  | deliver hr => exact deliver_failing.2.1
  | hangup => exact absurd rfl hh
  | _ => simp

theorem step_failing (h : Step chunk s e s') (hi : i ∈ s'.failing) :
    i ∈ s.failing ∨ ∃ t, (i, t) ∈ s.releasing := by
  cases h with
  | bridge hr =>
    obtain ⟨-, rfl⟩ := tryReserveStreamSlot_eq hr
    exact .inl hi
  | @release j t hm =>
    rcases List.mem_cons.mp hi with rfl | hi
    · exact .inr ⟨t, hm⟩
    · exact .inl hi
  | failPending hm => exact .inl (List.mem_of_mem_erase (by simpa using hi))
  | recv hr => exact .inl ((handled ..).failing.1 ▸ hi)
  | deliver hr => exact .inl (deliver_failing.1 ▸ hi)
  | _ => exact .inl (by simpa using hi)

theorem step_spawned (h : Step chunk s e s') (hm : m ∈ s'.spawned) :
    m ∈ s.spawned ∨ ∃ i t, m = .reset i ∧ s.streamOf i = some t := by
  cases h with
  | bridge hr =>
    obtain ⟨-, rfl⟩ := tryReserveStreamSlot_eq hr
    exact .inl hm
  | spawnedSend h hl => exact .inl (List.mem_of_mem_erase hm)
  | spawnedFailed h hl => exact .inl (List.mem_of_mem_erase hm)
  | recv hr => exact (handled ..).spawned hm
  | deliver hr => exact .inl (deliver_failing.2.2 ▸ hm)
  | _ => exact .inl (by simpa using hm)

end ConnectorManager

namespace Mux

variable {s s' : Mux} {chunk : Nat} {e : Event} {t u : Nat} {i j : UInt32} {m : Message}
  {M M' : ConnectorManager} {p : Bytes}

/-- The stream of tunnel `t`, cut out of the session. -/
def stream (s : Mux) (t : Nat) : Stream where
  server := s.server.endOf t
  connector := s.connector.endOf (s.server.tunnels t).id
  up := s.up.filterMap (bodyFor (s.server.tunnels t).id)
  down := s.down.filterMap (bodyFor (s.server.tunnels t).id)

/-- A late tunnel keeps its id and stays late. -/
theorem late_step (hK : M.Keyed)
    (he : (M.tunnels t).phase.early = false) (h : ConnectorManager.Step chunk M e M')
    (hh : e ≠ .hangup) : (M'.tunnels t).id = (M.tunnels t).id ∧
      (M'.tunnels t).phase.early = false := by
  rcases ConnectorManager.endOf_step hK he h hh with hs | ⟨-, hs⟩
  · exact ⟨(ServerEnd.step_id_early hs).1, (ServerEnd.step_id_early hs).2 he⟩
  · have hT : M'.tunnels t = M.tunnels t := congrArg ServerEnd.tunnel hs
    simp [hT, he]

/-- A stream id that some tunnel past its early phases has drawn. -/
def Owner (M : ConnectorManager) (i : UInt32) : Prop :=
  ∃ u, (M.tunnels u).id = i ∧ (M.tunnels u).phase.early = false

theorem Owner.step (h : Owner M i) (hK : M.Keyed) (hs : ConnectorManager.Step chunk M e M')
    (hh : e ≠ .hangup) : Owner M' i := by
  obtain ⟨u, rfl, he⟩ := h
  exact ⟨u, late_step hK he hs hh⟩

theorem keyed_step (hK : M.Keyed) (hs : ConnectorManager.Step chunk M e M') (hh : e ≠ .hangup)
    (hr : (ConnectorManager.lts chunk).Reachable M') (hw : M'.started < 2 ^ 32) : M'.Keyed where
  tracked := ConnectorManager.tracked_of_reachable hr hw
  pending := (ConnectorManager.kept_of_reachable hr hw).2
  windowed := ConnectorManager.windowed_of_reachable hr
  failing i hi := by
    rcases ConnectorManager.step_failing hs hi with hi | ⟨t, ht⟩
    · exact Owner.step (hK.failing i hi) hK hs hh
    · exact Owner.step ⟨t, hK.tracked.of_releasing ht⟩ hK hs hh
  spawned m hm := by
    have hown : ∃ i, m = .reset i ∧ Owner M i := by
      rcases ConnectorManager.step_spawned hs hm with hm | ⟨i, t, rfl, ht⟩
      · obtain ⟨u, rfl, hu⟩ := hK.spawned m hm
        exact ⟨_, rfl, u, rfl, hu⟩
      · have := (hK.windowed t).listed i ht
        exact ⟨i, rfl, t, this.1, this.2.1⟩
    obtain ⟨i, rfl, ho⟩ := hown
    obtain ⟨u, rfl, hu⟩ := ho.step hK hs hh
    exact ⟨u, rfl, hu⟩
  linked := (ConnectorManager.step_linkOpen hs hh).trans hK.linked

/-- Nothing in the session mentions stream `i`. -/
structure Silent (s : Mux) (i : UInt32) : Prop where
  up : ∀ m ∈ s.up, bodyFor i m = none
  down : ∀ m ∈ s.down, bodyFor i m = none
  connector : s.connector.endOf i = {}

/-- Every id is drawn by a late tunnel or not in use at all. -/
def Owned (s : Mux) : Prop := ∀ i, Owner s.server i ∨ Silent s i

theorem output_owner (hK : M.Keyed) (hs : ConnectorManager.Step chunk M (.output m) M')
    (hb : bodyFor i m ≠ none) : Owner M i := by
  cases hs with
  | @tunnelSend u b T h hl =>
    by_cases hi : (M.tunnels u).id = i
    · exact ⟨u, hi, (Tunnel.step_not_early h).1⟩
    · simp [hi] at hb
  | @spawnedSend m hm hl =>
    obtain ⟨u, rfl, hu⟩ := hK.spawned m hm
    by_cases hi : (M.tunnels u).id = i
    · exact ⟨u, hi, hu⟩
    · simp [bodyFor, bodyOf, hi] at hb

/-- An end that has seen nothing stays so until a message arrives. -/
theorem step_empty {C : ConnectorEnd} {q : Port} (h : ConnectorEnd.Step chunk {} q C)
    (hq : ∀ b, q ≠ .input b) : q = .internal ∧ C = {} := by
  cases h with
  | handler ht h => simp at ht
  | handlerSend ht h => simp at ht
  | refuse h => simp at h
  | recv hb => exact absurd rfl (hq _)
  | accept => exact absurd rfl (hq _)
  | overload => exact absurd rfl (hq _)
  | retire => exact ⟨rfl, rfl⟩

theorem Silent.connectorStep {C : SessionManager} (h : Silent s i)
    (hs : SessionManager.Step chunk s.connector e C) (he : ∀ b, e.at i ≠ .input b) :
    e.at i = .internal ∧ C.endOf i = {} := by
  rcases SessionManager.endOf_step (i := i) hs with hs | ⟨ha, hs⟩
  · rw [h.connector] at hs
    exact step_empty hs he
  · exact ⟨ha, hs.trans h.connector⟩

theorem Owned.step (h : Owned s) (hK : s.server.Keyed) (hs : Step chunk s () s') : Owned s' := by
  intro i
  rcases h i with ho | hq
  · cases hs with
    | serverTask h => exact .inl (ho.step hK h (by simp))
    | serverDeliver h => exact .inl (ho.step hK h (by simp))
    | serverSend h => exact .inl (ho.step hK h (by simp))
    | serverRecv hd h => exact .inl (ho.step hK h (by simp))
    | connectorTask h => exact .inl ho
    | connectorSend h => exact .inl ho
    | connectorRecv hu h => exact .inl ho
  · cases hs with
    | serverTask h => exact .inr ⟨hq.up, hq.down, hq.connector⟩
    | serverDeliver h => exact .inr ⟨hq.up, hq.down, hq.connector⟩
    | @serverSend M m h =>
      by_cases hb : bodyFor i m = none
      · refine .inr ⟨fun m' hm' => ?_, hq.down, hq.connector⟩
        rcases List.mem_append.mp hm' with hm' | hm'
        · exact hq.up m' hm'
        · rw [List.mem_singleton.mp hm', bodyFor_truncated, hb]
          rfl
      · exact .inl ((output_owner hK h hb).step hK h (by simp))
    | serverRecv hd h =>
      exact .inr ⟨hq.up, fun m hm => hq.down m (hd ▸ List.mem_cons_of_mem _ hm), hq.connector⟩
    | connectorTask h =>
      exact .inr ⟨hq.up, hq.down, (hq.connectorStep h (by simp [Event.at])).2⟩
    | @connectorSend C m h =>
      have hout : ∀ b, (Event.output m).at i ≠ .input b := by
        intro b
        cases hb : bodyFor i m <;> simp [Event.at, hb]
      obtain ⟨ha, hc⟩ := hq.connectorStep h hout
      have hb : bodyFor i m = none := by
        cases hb : bodyFor i m with
        | none => rfl
        | some b => simp [Event.at, hb] at ha
      refine .inr ⟨hq.up, fun m' hm' => ?_, hc⟩
      rcases List.mem_append.mp hm' with hm' | hm'
      · exact hq.down m' hm'
      · rw [List.mem_singleton.mp hm', bodyFor_truncated, hb]
        rfl
    | @connectorRecv C m rest hu h =>
      have hb : bodyFor i m = none := hq.up m (hu ▸ List.mem_cons_self)
      have hc := (hq.connectorStep h (by simp [Event.at, hb])).2
      exact .inr ⟨fun m hm => hq.up m (hu ▸ List.mem_cons_of_mem _ hm), hq.down, hc⟩

/-- A tunnel that is not registered yet is as it was spawned, and once its connect is pending
it is the one that waits. -/
structure Fresh (M : ConnectorManager) (t : Nat) : Prop where
  answer : (M.tunnels t).answer = none
  upload : (M.tunnels t).upload = {}
  waiting : (M.tunnels t).phase = .insertStream → M.waiterOf (M.tunnels t).id = some t

theorem Fresh.congr (h : Fresh M t) (hT : M'.tunnels t = M.tunnels t)
    (hw : M'.waiterOf (M.tunnels t).id = M.waiterOf (M.tunnels t).id) : Fresh M' t :=
  ⟨hT ▸ h.answer, hT ▸ h.upload, fun hp => by rw [hT, hw]; exact h.waiting (hT ▸ hp)⟩

theorem early_streamOf (hK : M.Keyed) (he : (M.tunnels t).phase.early = true) :
    M.streamOf i ≠ some t := by
  intro hi
  simp [((hK.windowed t).listed i hi).2.1] at he

theorem early_waiterOf (hK : M.Keyed) (he : (M.tunnels t).phase.early = true)
    (hi : M.waiterOf i = some t) : (M.tunnels t).phase = .insertStream ∧ (M.tunnels t).id = i := by
  obtain ⟨hid, hp | ⟨hn, -⟩⟩ := hK.pending i t hi
  · exact ⟨hp, hid⟩
  · simp [hn] at he

/-- An early tunnel's id is not among the owned ones. -/
theorem not_owner (hK : M.Keyed) (he : (M.tunnels t).phase.early = true)
    (hp : (M.tunnels t).phase ≠ .fetchId) : ¬ Owner M (M.tunnels t).id := by
  rintro ⟨u, hid, hu⟩
  have := hK.tracked.ids.unique u t (ConnectorManager.ne_fetchId hu) hp hid
  subst this
  simp [he] at hu

theorem fresh_removeStream (hK : M.Keyed) (he : (M.tunnels t).phase.early = true)
    (h : Fresh M t) : Fresh (M.removeStream i) t :=
  h.congr (by rw [ConnectorManager.removeStream_tunnels, if_neg (early_streamOf hK he)]) (by simp)

theorem fresh_answerPending {r : Answer} (hK : M.Keyed) (he : (M.tunnels t).phase.early = true)
    (h : Fresh M t) (hi : (M.tunnels t).phase ≠ .fetchId → i ≠ (M.tunnels t).id) :
    Fresh (M.answerPending i r) t := by
  have hw : M.waiterOf i ≠ some t := by
    intro hw
    obtain ⟨hp, hid⟩ := early_waiterOf hK he hw
    exact hi (by simp [hp]) hid.symm
  refine ⟨?_, ?_, fun hp => ?_⟩
  · rw [ConnectorManager.answerPending_tunnels, if_neg hw]
    exact h.answer
  · rw [ConnectorManager.answerPending_tunnels, if_neg hw]
    exact h.upload
  · rw [ConnectorManager.answerPending_phase] at hp
    rw [ConnectorManager.answerPending_waiterOf, ConnectorManager.answerPending_id,
      if_neg (hi (by simp [hp])).symm]
    exact h.waiting hp

theorem fresh_handled (hK : M.Keyed) (he : (M.tunnels t).phase.early = true) (h : Fresh M t)
    (hm : (M.tunnels t).phase ≠ .fetchId → bodyFor (M.tunnels t).id m = none)
    (hH : M.Handled m M') : Fresh M' t := by
  have hu : ∀ {i u}, M.streamOf i = some u → u ≠ t := by
    rintro i u hi rfl
    exact early_streamOf hK he hi
  cases hH with
  | ignored => exact h
  | @answered _ i b _ hb =>
    refine fresh_answerPending hK he h ?_
    rintro hp rfl
    simpa [bodyFor, hb] using hm hp
  | removed _ => exact fresh_removeStream hK he h
  | granted hi => exact h.congr (by simp [(hu hi).symm]) rfl
  | exceeded hi _ =>
    refine h.congr ?_ (by simp [ConnectorManager.waiterOf])
    simp [ConnectorManager.removeStream_tunnels, hi, hu hi, (hu hi).symm]
  | within hi _ => exact h.congr (by simp [(hu hi).symm]) rfl

theorem fresh_deliver (hK : M.Keyed) (he : (M.tunnels t).phase.early = true) (h : Fresh M t)
    (hr : M.reading = some (i, u, p)) : Fresh (M.deliver i u p) t := by
  have hu : u ≠ t := by
    rintro rfl
    simp [((hK.windowed u).read i p hr).2] at he
  by_cases hp : (M.tunnels u).phase = .ended
  · rw [ConnectorManager.deliver_ended hp]
    have h0 : Fresh { M with reading := none } t := h.congr rfl rfl
    refine h0.congr ?_ (by simp)
    rw [ConnectorManager.removeStream_tunnels, if_neg]
    exact early_streamOf (M := M) hK he
  · rw [ConnectorManager.deliver_live hp]
    exact h.congr (by simp [Ne.symm hu]) rfl

theorem fresh_tunnelStep {a : Act} {T : Tunnel}
    (hF : ∀ t, (M.tunnels t).phase.early = true → Fresh M t)
    (h : Tunnel.Step chunk (M.tunnels u) a T)
    (he' : ((M.setTunnel u T).tunnels t).phase.early = true) : Fresh (M.setTunnel u T) t := by
  have ht : t ≠ u := by
    rintro rfl
    simp [(Tunnel.step_not_early h).2] at he'
  exact (hF t (by simpa [ht] using he')).congr (by simp [ht]) rfl

/-- The search for an id changes nothing else. -/
theorem fresh_loop (u : Nat) (hF : ∀ t, (M.tunnels t).phase.early = true → Fresh M t)
    (he : (M.tunnels u).phase.early = true) (ha : (M'.tunnels u).answer = (M.tunnels u).answer)
    (hu : (M'.tunnels u).upload = (M.tunnels u).upload)
    (hp : (M'.tunnels u).phase ≠ .insertStream) (hf : ∀ t, t ≠ u → M'.tunnels t = M.tunnels t)
    (hw : ∀ i, M'.waiterOf i = M.waiterOf i) (he' : (M'.tunnels t).phase.early = true) :
    Fresh M' t := by
  by_cases ht : t = u
  · subst ht
    exact ⟨ha.trans (hF t he).answer, hu.trans (hF t he).upload, fun h => absurd h hp⟩
  · rw [hf t ht] at he'
    exact (hF t he').congr (hf t ht) (hw _)

/-- The manager's step leaves every early tunnel fresh, if no message is for it yet. -/
theorem fresh_step (hK : M.Keyed) (hs : ConnectorManager.Step chunk M e M')
    (hin : ∀ m, e = .input m → ∀ t, (M.tunnels t).phase.early = true →
      (M.tunnels t).phase ≠ .fetchId → bodyFor (M.tunnels t).id m = none)
    (hF : ∀ t, (M.tunnels t).phase.early = true → Fresh M t)
    (he' : (M'.tunnels t).phase.early = true) : Fresh M' t := by
  cases hs with
  | bridge hr =>
    obtain ⟨-, rfl⟩ := ConnectorManager.tryReserveStreamSlot_eq hr
    by_cases ht : t = M.started
    · subst ht
      exact ⟨by simp, by simp, by simp⟩
    · exact (hF t (by simpa [ht] using he')).congr (by simp [ht]) rfl
  | @fetchId u hlt hp =>
    exact fresh_loop u hF (by simp [hp, Phase.early]) (by simp) (by simp) (by simp)
      (by simp +contextual) (by simp) he'
  | @idInUse u hp hi =>
    exact fresh_loop u hF (by simp [hp, Phase.early]) (by simp) (by simp) (by simp)
      (by simp +contextual) (by simp) he'
  | @idFree u hp hi =>
    exact fresh_loop u hF (by simp [hp, Phase.early]) (by simp) (by simp) (by simp)
      (by simp +contextual) (by simp) he'
  | @insertPending u hp =>
    by_cases ht : t = u
    · subst ht
      have hf := hF t (by simp [hp, Phase.early])
      have hw : M.waiterOf (M.tunnels t).id ≠ some t := by
        intro hw
        have := (early_waiterOf hK (by simp [hp, Phase.early]) hw).1
        simp [hp] at this
      refine ⟨?_, ?_, fun _ => ?_⟩
      · simpa [ConnectorManager.insertPending_tunnels, hw] using hf.answer
      · simpa [ConnectorManager.insertPending_tunnels, hw] using hf.upload
      · simp [ConnectorManager.insertPending_waiterOf]
    · have he : (M.tunnels t).phase.early = true := by simpa [ht] using he'
      have hne : (M.tunnels t).phase ≠ .fetchId → (M.tunnels u).id ≠ (M.tunnels t).id :=
        fun hf => hK.id_ne hf (by simp [hp]) (Ne.symm ht)
      have h1 := fresh_answerPending (r := .cancelled) hK he (hF t he) hne
      refine ⟨?_, ?_, fun hp' => ?_⟩
      · simpa [ht, ConnectorManager.insertPending] using h1.answer
      · simpa [ht, ConnectorManager.insertPending] using h1.upload
      · have hph : (M.tunnels t).phase = .insertStream := by simpa [ht] using hp'
        simpa [ht, ConnectorManager.insertPending_waiterOf, (hne (by simp [hph])).symm] using
          (hF t he).waiting hph
  | @insertStream u hp =>
    by_cases ht : t = u
    · subst ht
      simp [Phase.early] at he'
    · exact (hF t (by simpa [ht] using he')).congr (by simp [ht]) rfl
  | tunnel h => exact fresh_tunnelStep hF h he'
  | tunnelSend h hl => exact fresh_tunnelStep hF h he'
  | tunnelSendFailed h hl => exact fresh_tunnelStep hF h he'
  | @tunnelRemove u T h =>
    rw [ConnectorManager.removeStream_phase] at he'
    have hf := fresh_tunnelStep hF h he'
    have ht : t ≠ u := by
      rintro rfl
      simp [(Tunnel.step_not_early h).2] at he'
    refine hf.congr ?_ (by simp)
    rw [ConnectorManager.removeStream_tunnels, if_neg]
    exact early_streamOf (M := M) hK (by simpa [ht] using he')
  | tunnelStarved h hs hr => exact fresh_tunnelStep hF h he'
  | release hm => exact (hF t he').congr rfl rfl
  | @failPending i hm =>
    have he : (M.tunnels t).phase.early = true := by simpa using he'
    have h1 : Fresh (M.answerPending i (.err "stream closed")) t :=
      fresh_answerPending hK he (hF t he)
        fun hp hi => not_owner hK he hp (hi ▸ hK.failing i hm)
    exact h1.congr (by rw [ConnectorManager.failPending_tunnels,
      ConnectorManager.answerPending_tunnels]) (by rw [ConnectorManager.failPending_waiterOf,
        ConnectorManager.answerPending_waiterOf])
  | spawnedSend hm hl => exact (hF t he').congr rfl rfl
  | spawnedFailed hm hl => exact (hF t he').congr rfl rfl
  | @recv m hr =>
    have he : (M.tunnels t).phase.early = true := by
      simpa [(ConnectorManager.handled ..).shrinks.phase] using he'
    exact fresh_handled hK he (hF t he) (hin m rfl t he) (M.handled m)
  | @deliver i u p hr =>
    have he : (M.tunnels t).phase.early = true := by
      simpa [ConnectorManager.shrinks_deliver.phase] using he'
    exact fresh_deliver hK he (hF t he) hr
  | hangup => exact (hF t he').congr rfl rfl

/-- The manager's own steps after which an early tunnel is late: there is one. -/
theorem late_cases (hs : ConnectorManager.Step chunk M e M')
    (he : (M.tunnels t).phase.early = true) (he' : (M'.tunnels t).phase.early = false) :
    e = .internal ∧ (M.tunnels t).phase = .insertStream ∧
      M' = (M.insertStream (M.tunnels t).id t).setPhase t .sendConnect := by
  have htunnel : ∀ {u a T}, Tunnel.Step chunk (M.tunnels u) a T →
      ((M.setTunnel u T).tunnels t).phase.early = true := by
    intro u a T h
    have ht : t ≠ u := by
      rintro rfl
      simp [(Tunnel.step_not_early h).1] at he
    simpa [ht] using he
  cases hs with
  | bridge hr =>
    obtain ⟨-, rfl⟩ := ConnectorManager.tryReserveStreamSlot_eq hr
    by_cases ht : t = M.started <;> simp_all [Phase.early]
  | @fetchId u hlt hp => by_cases ht : t = u <;> simp_all [Phase.early]
  | @idInUse u hp hi => by_cases ht : t = u <;> simp_all [Phase.early]
  | @idFree u hp hi => by_cases ht : t = u <;> simp_all [Phase.early]
  | @insertPending u hp => by_cases ht : t = u <;> simp_all [Phase.early]
  | @insertStream u hp =>
    by_cases ht : t = u
    · subst ht
      exact ⟨rfl, hp, rfl⟩
    · simp [ht, he] at he'
  | tunnel h => exact absurd ((htunnel h).symm.trans he') (by decide)
  | tunnelSend h hl => exact absurd ((htunnel h).symm.trans he') (by decide)
  | tunnelSendFailed h hl => exact absurd ((htunnel h).symm.trans he') (by decide)
  | tunnelRemove h =>
    rw [ConnectorManager.removeStream_phase] at he'
    exact absurd ((htunnel h).symm.trans he') (by decide)
  | tunnelStarved h hs hr => exact absurd ((htunnel h).symm.trans he') (by decide)
  | failPending hm => simp [he] at he'
  | recv hr => simp [(ConnectorManager.handled ..).shrinks.phase, he] at he'
  | deliver hr => simp [ConnectorManager.shrinks_deliver.phase, he] at he'
  | _ => simp [he] at he'

theorem endOf_insertStream (hK : M.Keyed) (hF : Fresh M t)
    (hp : (M.tunnels t).phase = .insertStream) :
    ((M.insertStream (M.tunnels t).id t).setPhase t .sendConnect).endOf t =
      { tunnel := { target := (M.tunnels t).target, id := (M.tunnels t).id,
                    phase := .sendConnect } } := by
  have he : (M.tunnels t).phase.early = true := by simp [hp, Phase.early]
  have hno := not_owner hK he (by simp [hp])
  obtain ⟨hd, ho⟩ := (hK.windowed t).early he
  have hrel : ((M.tunnels t).id, t) ∉ M.releasing := by
    intro hm
    simp [(hK.tracked.of_releasing hm).2] at he
  have hfail : (M.tunnels t).id ∉ M.failing := fun hm => hno (hK.failing _ hm)
  have hsp : Message.reset (M.tunnels t).id ∉ M.spawned := by
    intro hm
    obtain ⟨u, hu, hl⟩ := hK.spawned _ hm
    exact hno ⟨u, by simpa using hu.symm, hl⟩
  have hr : (M.reading.bind fun r => if r.2.1 = t then some r.2.2 else none) = none := by
    cases hrd : M.reading with
    | none => rfl
    | some r =>
      obtain ⟨i, u, p⟩ := r
      have hu : u ≠ t := by
        rintro rfl
        simp [((hK.windowed u).read i p hrd).2] at he
      simp [hu]
  have hw := hF.waiting hp
  simp [ConnectorManager.endOf, hr, hw, List.count_eq_zero_of_not_mem hrel,
    List.count_eq_zero_of_not_mem hfail, List.count_eq_zero_of_not_mem hsp, hF.answer, hF.upload,
    hd, ho]

/-- One step of the session is a step of the stream of any late tunnel, or leaves it alone. -/
theorem stream_step (hK : s.server.Keyed) (he : (s.server.tunnels t).phase.early = false)
    (h : Step chunk s () s') :
    Stream.Step chunk (s.stream t) () (s'.stream t) ∨ s'.stream t = s.stream t := by
  cases h with
  | serverTask h =>
    have hid := (late_step hK he h (by simp)).1
    rcases ConnectorManager.endOf_step hK he h (by simp) with hs | ⟨-, hs⟩
    · exact .inl (by simpa [stream, hid] using Stream.Step.server (s := s.stream t) hs)
    · exact .inr (by simp [stream, hid, hs])
  | serverDeliver h =>
    have hid := (late_step hK he h (by simp)).1
    rcases ConnectorManager.endOf_step hK he h (by simp) with hs | ⟨-, hs⟩
    · exact .inl (by simpa [stream, hid] using Stream.Step.server (s := s.stream t) hs)
    · exact .inr (by simp [stream, hid, hs])
  | @serverSend M m h =>
    have hid := (late_step hK he h (by simp)).1
    have hstep := ConnectorManager.endOf_step hK he h (by simp)
    cases hb : bodyFor (s.server.tunnels t).id m with
    | none =>
      simp only [Event.at, hb, Option.elim] at hstep
      rcases hstep with hs | ⟨-, hs⟩
      · exact .inl (by simpa [stream, hid, List.filterMap_cons, bodyFor_truncated, hb] using
          Stream.Step.server (s := s.stream t) hs)
      · exact .inr (by simp [stream, hid, hs, bodyFor_truncated, hb])
    | some b =>
      simp only [Event.at, hb, Option.elim, reduceCtorEq, false_and, or_false] at hstep
      exact .inl (by simpa [stream, hid, List.filterMap_cons, bodyFor_truncated, hb] using
        Stream.Step.serverSend (s := s.stream t) hstep)
  | @serverRecv M m rest hd h =>
    have hid := (late_step hK he h (by simp)).1
    have hstep := ConnectorManager.endOf_step hK he h (by simp)
    cases hb : bodyFor (s.server.tunnels t).id m with
    | none =>
      simp only [Event.at, hb, Option.elim] at hstep
      rcases hstep with hs | ⟨-, hs⟩
      · exact .inl (by simpa [stream, hid, hd, hb] using
          Stream.Step.server (s := s.stream t) hs)
      · exact .inr (by simp [stream, hid, hs, hd, hb])
    | some b =>
      simp only [Event.at, hb, Option.elim, reduceCtorEq, false_and, or_false] at hstep
      have hdown : (s.stream t).down = b :: rest.filterMap (bodyFor (s.server.tunnels t).id) := by
        simp [stream, hd, hb]
      exact .inl (by simpa [stream, hid] using
        Stream.Step.serverRecv (s := s.stream t) hdown hstep)
  | connectorTask h =>
    rcases SessionManager.endOf_step (i := (s.server.tunnels t).id) h with hs | ⟨-, hs⟩
    · exact .inl (.connector hs)
    · exact .inr (by simp [stream, hs])
  | @connectorSend C m h =>
    have hstep := SessionManager.endOf_step (i := (s.server.tunnels t).id) h
    cases hb : bodyFor (s.server.tunnels t).id m with
    | none =>
      simp only [Event.at, hb, Option.elim] at hstep
      rcases hstep with hs | ⟨-, hs⟩
      · exact .inl (by simpa [stream, List.filterMap_cons, bodyFor_truncated, hb] using
          Stream.Step.connector (s := s.stream t) hs)
      · exact .inr (by simp [stream, hs, bodyFor_truncated, hb])
    | some b =>
      simp only [Event.at, hb, Option.elim, reduceCtorEq, false_and, or_false] at hstep
      exact .inl (by simpa [stream, List.filterMap_cons, bodyFor_truncated, hb] using
        Stream.Step.connectorSend (s := s.stream t) hstep)
  | @connectorRecv C m rest hu h =>
    have hstep := SessionManager.endOf_step (i := (s.server.tunnels t).id) h
    cases hb : bodyFor (s.server.tunnels t).id m with
    | none =>
      simp only [Event.at, hb, Option.elim] at hstep
      rcases hstep with hs | ⟨-, hs⟩
      · exact .inl (by simpa [stream, hu, hb] using
          Stream.Step.connector (s := s.stream t) hs)
      · exact .inr (by simp [stream, hs, hu, hb])
    | some b =>
      simp only [Event.at, hb, Option.elim, reduceCtorEq, false_and, or_false] at hstep
      have hup : (s.stream t).up = b :: rest.filterMap (bodyFor (s.server.tunnels t).id) := by
        simp [stream, hu, hb]
      exact .inl (by simpa [stream] using
        Stream.Step.connectorRecv (s := s.stream t) hup hstep)

/-- What cuts a reachable session into streams. -/
structure Coherent (s : Mux) : Prop where
  keyed : s.server.Keyed
  owned : Owned s
  fresh : ∀ t, (s.server.tunnels t).phase.early = true → Fresh s.server t

theorem coherent_init : Coherent {} where
  keyed :=
    have h0 : (ConnectorManager.lts 0).Reachable {} := .init rfl
    { tracked := ConnectorManager.tracked_of_reachable h0 (by decide)
      pending := (ConnectorManager.kept_of_reachable h0 (by decide)).2
      windowed := ConnectorManager.windowed_of_reachable h0
      failing := by simp
      spawned := by simp
      linked := rfl }
  owned i := .inr ⟨by simp, by simp, by simp [SessionManager.endOf]⟩
  fresh t _ := ⟨rfl, rfl, by simp⟩

theorem Coherent.step (h : Coherent s) (hs : Step chunk s () s')
    (hr : (lts chunk).Reachable s') (hw : s'.server.started < 2 ^ 32) : Coherent s' := by
  have ho := h.owned.step h.keyed hs
  rcases server_step hs with he | ⟨e, hs, hh, hin⟩
  · exact ⟨he ▸ h.keyed, ho, he ▸ h.fresh⟩
  · refine ⟨keyed_step h.keyed hs hh (server_reachable hr) hw, ho, fun t => ?_⟩
    refine fresh_step h.keyed hs (fun m hm t he hp => ?_) h.fresh
    exact ((h.owned _).resolve_left (not_owner h.keyed he hp)).down m (hin m hm)

/-- A tunnel registers with both channels and the connector silent about its id. -/
theorem stream_enter (h : Coherent s) (hs : Step chunk s () s')
    (he : (s.server.tunnels t).phase.early = true)
    (he' : (s'.server.tunnels t).phase.early = false) :
    (Stream.lts chunk).Init (s'.stream t) := by
  have hsilent : Silent s (s.server.tunnels t).id → ∀ M,
      M = (s.server.insertStream (s.server.tunnels t).id t).setPhase t .sendConnect →
      (s.server.tunnels t).phase = .insertStream →
      (Stream.lts chunk).Init (({ s with server := M } : Mux).stream t) := by
    rintro hq M rfl hp
    refine ⟨(s.server.tunnels t).target, (s.server.tunnels t).id, ?_⟩
    have hup : s.up.filterMap (bodyFor (s.server.tunnels t).id) = [] :=
      List.filterMap_eq_nil_iff.mpr hq.up
    have hdown : s.down.filterMap (bodyFor (s.server.tunnels t).id) = [] :=
      List.filterMap_eq_nil_iff.mpr hq.down
    simp [stream, endOf_insertStream h.keyed (h.fresh t he) hp, hq.connector, hup, hdown]
  have hq : (s.server.tunnels t).phase = .insertStream → Silent s (s.server.tunnels t).id :=
    fun hp => (h.owned _).resolve_left (not_owner h.keyed he (by simp [hp]))
  cases hs with
  | serverTask hs =>
    obtain ⟨-, hp, hM⟩ := late_cases hs he he'
    exact hsilent (hq hp) _ hM hp
  | serverDeliver hs => exact absurd (late_cases hs he he').1 (by simp)
  | serverSend hs => exact absurd (late_cases hs he he').1 (by simp)
  | serverRecv hd hs => exact absurd (late_cases hs he he').1 (by simp)
  | connectorTask hs => simp [he] at he'
  | connectorSend hs => simp [he] at he'
  | connectorRecv hu hs => simp [he] at he'

/-- Seen from any of its registered tunnels, a session is a run of one stream. -/
theorem stream_reachable (h : (lts chunk).Reachable s) (hw : s.server.started < 2 ^ 32) :
    Coherent s ∧ ∀ t, (s.server.tunnels t).phase.early = false →
      (Stream.lts chunk).Reachable (s.stream t) := by
  induction h with
  | init h =>
    cases h
    exact ⟨coherent_init, by simp [Phase.early]⟩
  | @step s s' e h hs ih =>
    obtain ⟨hc, hr⟩ := ih ((step_started hs).trans_lt hw)
    refine ⟨hc.step hs (h.step hs) hw, fun t he' => ?_⟩
    cases he : (s.server.tunnels t).phase.early with
    | true => exact .init (stream_enter hc hs he he')
    | false =>
      rcases stream_step hc.keyed he hs with ht | ht
      · exact (hr t he).step ht
      · rw [ht]
        exact hr t he

end Mux

end X2rp.Wss
