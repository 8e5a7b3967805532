import X2rp.Proto.Codec
import X2rp.Wss.SessionManager
import X2rp.Wss.Stream
import X2rp.Wss.Window

/-! The two ends of a session, cut down to one stream: every step of an end is a step of its
part in the stream, or does not concern the stream. -/
namespace X2rp.Wss

open Proto

variable {chunk : Nat} {e : Event} {t u : Nat} {i j : UInt32} {m : Message} {b : Body} {p : Bytes}

/-- The body a message carries for stream `i`. -/
def bodyFor (i : UInt32) (m : Message) : Option Body :=
  match bodyOf m with
  | some (j, b) => if j = i then some b else none
  | none => none

/-- How an event of a session shows on stream `i`. -/
def Event.at (i : UInt32) : Event → Port
  | .output m => (bodyFor i m).elim .internal .output
  | .input m => (bodyFor i m).elim .internal .input
  | .internal | .deliver | .hangup => .internal

@[simp] theorem bodyFor_message : bodyFor i (b.message j) = if j = i then some b else none := by
  simp [bodyFor]

theorem eq_message_of_bodyFor (h : bodyFor i m = some b) : m = b.message i := by
  cases m <;> simp [bodyFor, bodyOf] at h <;> obtain ⟨rfl, rfl⟩ := h <;> rfl

theorem bodyFor_truncated : bodyFor i m.truncated = (bodyFor i m).map Body.truncated := by
  cases m <;> simp [bodyFor, bodyOf, Message.truncated, Body.truncated]

namespace ConnectorManager

variable {s s' : ConnectorManager} {T : Tunnel}

/-- The server's end of the stream of tunnel `t`. -/
def endOf (s : ConnectorManager) (t : Nat) : ServerEnd where
  tunnel := s.tunnels t
  registered := s.streamOf (s.tunnels t).id = some t
  waiting := s.waiterOf (s.tunnels t).id = some t
  hand := s.reading.bind fun r => if r.2.1 = t then some r.2.2 else none
  removing := s.releasing.count ((s.tunnels t).id, t) + s.failing.count (s.tunnels t).id
  resets := s.spawned.count (.reset (s.tunnels t).id)

/-- What the ends of the streams rest on: the ids are the tunnels' own. -/
structure Keyed (s : ConnectorManager) : Prop where
  tracked : Tracked s
  pending : PendingKept s
  windowed : ∀ t, Windowed s t
  failing : ∀ i ∈ s.failing, ∃ u, (s.tunnels u).id = i ∧ (s.tunnels u).phase.early = false
  spawned : ∀ m ∈ s.spawned, ∃ u, m = .reset (s.tunnels u).id ∧
    (s.tunnels u).phase.early = false
  linked : s.linkOpen = true

theorem Tracked.of_releasing (h : Tracked s) (hm : (i, t) ∈ s.releasing) :
    (s.tunnels t).id = i ∧ (s.tunnels t).phase.early = false := by
  obtain ⟨L, hL, hsim⟩ := h.ledger
  obtain ⟨hid, hst⟩ := hsim.of_releasing hm
  exact ⟨hid, hsim.not_early (Permits.Ledger.counted_of_reachable hL) (by simp [hst]) (by simp [hst])⟩

theorem endOf_congr (hT : s'.tunnels t = s.tunnels t)
    (hs : s'.streamOf (s.tunnels t).id = some t ↔ s.streamOf (s.tunnels t).id = some t)
    (hw : s'.waiterOf (s.tunnels t).id = some t ↔ s.waiterOf (s.tunnels t).id = some t)
    (hr : s'.reading = s.reading) (hrel : s'.releasing = s.releasing)
    (hf : s'.failing = s.failing) (hsp : s'.spawned = s.spawned) : s'.endOf t = s.endOf t := by
  simp [endOf, hT, hs, hw, hr, hrel, hf, hsp]

theorem Keyed.id_ne (h : Keyed s) (ht : (s.tunnels t).phase ≠ .fetchId)
    (hu : (s.tunnels u).phase ≠ .fetchId) (hne : u ≠ t) : (s.tunnels u).id ≠ (s.tunnels t).id :=
  fun he => hne (h.tracked.ids.unique u t hu ht he)

theorem Keyed.streamOf_ne (h : Keyed s) (hne : i ≠ (s.tunnels t).id) : s.streamOf i ≠ some t :=
  fun hi => hne (h.tracked.id_of_streamOf hi).symm

theorem Keyed.waiterOf_ne (h : Keyed s) (hne : i ≠ (s.tunnels t).id) : s.waiterOf i ≠ some t :=
  fun hi => hne (h.pending i t hi).1.symm

theorem Keyed.eq_of_streamOf (h : Keyed s) (ht : (s.tunnels t).phase ≠ .fetchId)
    (hi : s.streamOf (s.tunnels t).id = some u) : u = t := by
  obtain ⟨hid, he, -⟩ := (h.windowed u).listed _ hi
  exact h.tracked.ids.unique u t (ne_fetchId he) ht hid

theorem Keyed.eq_of_waiterOf (h : Keyed s) (ht : (s.tunnels t).phase ≠ .fetchId)
    (hi : s.waiterOf (s.tunnels t).id = some u) : u = t := by
  obtain ⟨hid, hp | ⟨he, -⟩⟩ := h.pending _ u hi
  · exact h.tracked.ids.unique u t (by simp [hp]) ht hid
  · exact h.tracked.ids.unique u t (ne_fetchId he) ht hid

section Ends

/-- Taking another stream's entry out leaves this end alone. -/
theorem endOf_removeStream_ne (h : s.streamOf i ≠ some t) (hne : i ≠ (s.tunnels t).id) :
    (s.removeStream i).endOf t = s.endOf t := by
  have hT : (s.removeStream i).tunnels t = s.tunnels t := by
    rw [removeStream_tunnels, if_neg h]
  have hrel : (s.removeStream i).releasing.count ((s.tunnels t).id, t) =
      s.releasing.count ((s.tunnels t).id, t) := by
    cases hi : s.streamOf i with
    | none => rw [removeStream_none hi]
    | some u => simp [removeStream_some hi, hne]
  simp [endOf, hT, hrel, removeStream_streamOf, Ne.symm hne]

theorem endOf_answerPending_ne {r : Answer} (h : s.waiterOf i ≠ some t)
    (hne : i ≠ (s.tunnels t).id) : (s.answerPending i r).endOf t = s.endOf t := by
  have hT : (s.answerPending i r).tunnels t = s.tunnels t := by
    rw [answerPending_tunnels, if_neg h]
  simp [endOf, hT, answerPending_waiterOf, Ne.symm hne]

theorem endOf_setTunnel_ne (h : u ≠ t) : (s.setTunnel u T).endOf t = s.endOf t :=
  endOf_congr (by simp [Ne.symm h]) .rfl .rfl rfl rfl rfl rfl

/-- The end's operations are the manager's, at the tunnel's own id. -/
theorem endOf_setTunnel (hid : T.id = (s.tunnels t).id) :
    (s.setTunnel t T).endOf t = { s.endOf t with tunnel := T } := by
  simp [endOf, hid]

theorem endOf_removeStream (h : ∀ u, s.streamOf (s.tunnels t).id = some u → u = t) :
    (s.removeStream (s.tunnels t).id).endOf t = (s.endOf t).remove := by
  cases hi : s.streamOf (s.tunnels t).id with
  | none =>
    rw [removeStream_none hi]
    simp [endOf, ServerEnd.remove, hi]
  | some u =>
    obtain rfl := h u hi
    have hT : (s.removeStream (s.tunnels u).id).tunnels u = (s.tunnels u).closeCredit := by
      rw [removeStream_tunnels, if_pos hi]
    have hrel : (s.removeStream (s.tunnels u).id).releasing =
        ((s.tunnels u).id, u) :: s.releasing := by rw [removeStream_some hi]
    simp [endOf, ServerEnd.remove, hT, hi, hrel, removeStream_streamOf]
    omega

theorem endOf_answerPending {r : Answer} (h : ∀ u, s.waiterOf (s.tunnels t).id = some u → u = t) :
    (s.answerPending (s.tunnels t).id r).endOf t = (s.endOf t).answer r := by
  cases hi : s.waiterOf (s.tunnels t).id with
  | none =>
    rw [answerPending_none hi]
    simp [endOf, ServerEnd.answer, hi]
  | some u =>
    obtain rfl := h u hi
    have hT : (s.answerPending (s.tunnels u).id r).tunnels u = (s.tunnels u).answered r := by
      rw [answerPending_tunnels, if_pos hi]
    simp [endOf, ServerEnd.answer, hT, hi, answerPending_waiterOf]

theorem endOf_spawned {l : List Message} : endOf { s with spawned := l } t =
    { s.endOf t with resets := l.count (.reset (s.tunnels t).id) } := rfl

theorem endOf_reading {r : Option (UInt32 × Nat × Bytes)} : endOf { s with reading := r } t =
    { s.endOf t with hand := r.bind fun r => if r.2.1 = t then some r.2.2 else none } := rfl

theorem endOf_failing {l : List UInt32} : endOf { s with failing := l } t =
    { s.endOf t with
      removing := s.releasing.count ((s.tunnels t).id, t) + l.count (s.tunnels t).id } := rfl

theorem endOf_failPending (h : ∀ u, s.waiterOf (s.tunnels t).id = some u → u = t) :
    (s.failPending (s.tunnels t).id).endOf t =
      ({ s.endOf t with
        removing := s.releasing.count ((s.tunnels t).id, t) +
          (s.failing.erase (s.tunnels t).id).count (s.tunnels t).id } : ServerEnd).answer
        (.err "stream closed") :=
  endOf_answerPending (s := { s with failing := s.failing.erase (s.tunnels t).id }) h

theorem endOf_handleData (h : ∀ u, s.streamOf (s.tunnels t).id = some u → u = t) :
    (s.handleData (s.tunnels t).id p).endOf t = (s.endOf t).handleData p := by
  cases hi : s.streamOf (s.tunnels t).id with
  | none =>
    rw [handleData_none hi]
    simp [endOf, ServerEnd.handleData, hi]
  | some u =>
    obtain rfl := h u hi
    have hreg : (s.endOf u).registered = true := by simp [endOf, hi]
    have htun : (s.endOf u).tunnel = s.tunnels u := rfl
    have hadd : (s.setTunnel u ((s.tunnels u).addOutstanding p.length)).endOf u =
        { s.endOf u with tunnel := (s.tunnels u).addOutstanding p.length } :=
      endOf_setTunnel (by simp)
    rcases lt_or_ge streamRecvWindow ((s.tunnels u).outstanding + p.length) with hw | hw
    · have hrem := endOf_removeStream (s := s.setTunnel u ((s.tunnels u).addOutstanding p.length))
        (t := u) (by simpa using h)
      simp only [setTunnel_tunnels, if_true, Tunnel.addOutstanding_fields] at hrem
      rw [handleData_exceeded hi hw, endOf_spawned, hrem, hadd]
      simp [ServerEnd.handleData, hw, endOf, hi]
    · rw [handleData_within hi hw, endOf_reading, hadd]
      simp [ServerEnd.handleData, hreg, htun, Nat.not_lt.mpr hw]

theorem endOf_grantCredit {n : Nat} (h : ∀ u, s.streamOf (s.tunnels t).id = some u → u = t) :
    (s.grantCredit (s.tunnels t).id n).endOf t =
      if (s.endOf t).registered then
        { s.endOf t with tunnel := (s.tunnels t).addCredit n } else s.endOf t := by
  cases hi : s.streamOf (s.tunnels t).id with
  | none =>
    rw [grantCredit_none hi]
    simp [endOf, hi]
  | some u =>
    obtain rfl := h u hi
    rw [grantCredit_some hi, endOf_setTunnel (by simp)]
    simp [endOf, hi]

theorem endOf_handleMessage (hK : Keyed s) (ht : (s.tunnels t).phase ≠ .fetchId) :
    (s.handleMessage (b.message (s.tunnels t).id)).endOf t = (s.endOf t).handle b := by
  have hs := fun u => hK.eq_of_streamOf (u := u) ht
  have hw := fun u => hK.eq_of_waiterOf (u := u) ht
  cases b with
  | connect target => rfl
  | connectOk => exact endOf_answerPending hw
  | connectErr error => exact endOf_answerPending hw
  | data payload => exact endOf_handleData hs
  | close => exact endOf_removeStream hs
  | reset => exact endOf_removeStream hs
  | windowUpdate bytes => exact endOf_grantCredit hs

/-- A message for another stream does not touch this end. -/
theorem endOf_handled_ne (hK : Keyed s) (hr : s.reading = none)
    (hm : bodyFor (s.tunnels t).id m = none) (h : Handled s m s') : s'.endOf t = s.endOf t := by
  have hne : ∀ {i b}, bodyOf m = some (i, b) → i ≠ (s.tunnels t).id := by
    rintro i b hb rfl
    simp [bodyFor, hb] at hm
  have hu : ∀ {i b u}, bodyOf m = some (i, b) → s.streamOf i = some u → u ≠ t := by
    rintro i b u hb hi rfl
    exact hK.streamOf_ne (hne hb) hi
  cases h with
  | ignored => rfl
  | answered hb => exact endOf_answerPending_ne (hK.waiterOf_ne (hne hb)) (hne hb)
  | removed hb => exact endOf_removeStream_ne (hK.streamOf_ne (hne hb)) (hne hb)
  | granted hi => exact endOf_setTunnel_ne (hu rfl hi)
  | @exceeded i u p hi _ =>
    have hid : i ≠ (s.tunnels t).id := hne rfl
    have hut : u ≠ t := hu rfl hi
    rw [endOf_spawned, endOf_removeStream_ne, endOf_setTunnel_ne hut]
    · simp [endOf, hid, Ne.symm hut]
    · simpa using hK.streamOf_ne hid
    · simpa [Ne.symm hut] using hid
  | @within i u p hi _ =>
    have hut : u ≠ t := hu rfl hi
    rw [endOf_reading, endOf_setTunnel_ne hut]
    simp [endOf, hr, hut]

theorem endOf_deliver (hK : Keyed s) (hr : s.reading = some (i, t, p)) :
    (s.deliver i t p).endOf t = (s.endOf t).deliver p := by
  obtain ⟨rfl, he⟩ := (hK.windowed t).read i p hr
  have hs := fun u => hK.eq_of_streamOf (u := u) (ne_fetchId he)
  by_cases hp : (s.tunnels t).phase = .ended
  · have hrem := endOf_removeStream (s := { s with reading := none }) (t := t) hs
    rw [deliver_ended hp]
    refine hrem.trans ?_
    rw [endOf_reading]
    simp [ServerEnd.deliver, show (s.endOf t).tunnel.phase = .ended from hp]
  · rw [deliver_live hp, endOf_reading, endOf_setTunnel (by simp)]
    simp [ServerEnd.deliver, show (s.endOf t).tunnel = s.tunnels t from rfl, hp]

theorem endOf_deliver_ne (hK : Keyed s) (ht : (s.tunnels t).phase ≠ .fetchId) (hu : u ≠ t)
    (hr : s.reading = some (i, u, p)) : (s.deliver i u p).endOf t = s.endOf t := by
  obtain ⟨rfl, he⟩ := (hK.windowed u).read i p hr
  have hid := hK.id_ne ht (ne_fetchId he) hu
  have hhand : (s.endOf t).hand = none := by simp [endOf, hr, hu]
  by_cases hp : (s.tunnels u).phase = .ended
  · have hs : streamOf { s with reading := none } (s.tunnels u).id ≠ some t := hK.streamOf_ne hid
    rw [deliver_ended hp, endOf_removeStream_ne hs hid, endOf_reading]
    simp [← hhand]
  · rw [deliver_live hp, endOf_reading, endOf_setTunnel_ne hu]
    simp [← hhand]

end Ends

theorem phase_ne_of_early {ph : Phase} (he : (s.tunnels t).phase.early = false)
    (hp : (s.tunnels u).phase = ph) (hph : ph.early = true) : u ≠ t := by
  rintro rfl
  simp [hp, hph] at he

/-- Every step of the manager is, for the stream of a registered tunnel, a step of its end or
nothing at all. -/
theorem endOf_step (hK : Keyed s) (he : (s.tunnels t).phase.early = false)
    (h : Step chunk s e s') (hh : e ≠ .hangup) :
    ServerEnd.Step chunk (s.endOf t) (e.at (s.tunnels t).id) (s'.endOf t) ∨
      e.at (s.tunnels t).id = .internal ∧ s'.endOf t = s.endOf t := by
  have hf := ne_fetchId he
  cases h with
  | bridge hr =>
    obtain ⟨-, rfl⟩ := tryReserveStreamSlot_eq hr
    have ht : t ≠ s.started := by
      rintro rfl
      exact hf (hK.tracked.ids.idle _ le_rfl)
    exact .inr ⟨rfl, endOf_congr (by simp [ht]) .rfl .rfl rfl rfl rfl rfl⟩
  | @fetchId u hlt hp =>
    have hu := phase_ne_of_early he hp rfl
    exact .inr ⟨rfl, endOf_congr (by simp [Ne.symm hu]) .rfl .rfl rfl rfl rfl rfl⟩
  | @idInUse u hp hi =>
    have hu := phase_ne_of_early he hp rfl
    exact .inr ⟨rfl, endOf_setTunnel_ne hu⟩
  | @idFree u hp hi =>
    have hu := phase_ne_of_early he hp rfl
    exact .inr ⟨rfl, endOf_setTunnel_ne hu⟩
  | @insertPending u hp =>
    have hu := phase_ne_of_early he hp rfl
    have hid := hK.id_ne hf (by simp [hp]) hu
    refine .inr ⟨rfl, (endOf_setTunnel_ne hu).trans ?_⟩
    refine endOf_congr ?_ (by simp) ?_ (by simp) (by simp) (by simp) (by simp)
    · rw [insertPending_tunnels, if_neg (hK.waiterOf_ne hid)]
    · simp [insertPending_waiterOf, Ne.symm hid]
  | @insertStream u hp =>
    have hu := phase_ne_of_early he hp rfl
    have hid := hK.id_ne hf (by simp [hp]) hu
    refine .inr ⟨rfl, (endOf_setTunnel_ne hu).trans ?_⟩
    exact endOf_congr (by simp) (by simp [Ne.symm hid]) .rfl rfl rfl rfl rfl
  | @tunnel u T h =>
    by_cases hu : u = t
    · subst hu
      rw [endOf_setTunnel (Tunnel.step_id h)]
      exact .inl (.tunnel h)
    · exact .inr ⟨rfl, endOf_setTunnel_ne hu⟩
  | @tunnelSend u b T h hl =>
    by_cases hu : u = t
    · subst hu
      rw [endOf_setTunnel (Tunnel.step_id h)]
      exact .inl (by simpa [Event.at] using ServerEnd.Step.tunnelSend h)
    · have hid := hK.id_ne hf (ne_fetchId (Tunnel.step_not_early h).1) hu
      exact .inr ⟨by simp [Event.at, hid], endOf_setTunnel_ne hu⟩
  | tunnelSendFailed h hl => simp [hK.linked] at hl
  | @tunnelRemove u T h =>
    by_cases hu : u = t
    · subst hu
      have hs := fun v => hK.eq_of_streamOf (u := v) hf
      have hrem := endOf_removeStream (s := s.setTunnel u T) (t := u)
        (by simpa [Tunnel.step_id h] using hs)
      simp only [setTunnel_tunnels, if_true] at hrem
      rw [hrem, endOf_setTunnel (Tunnel.step_id h)]
      exact .inl (.tunnelRemove h)
    · have hid := hK.id_ne hf (ne_fetchId (Tunnel.step_not_early h).1) hu
      rw [← Tunnel.step_id h] at hid
      refine .inr ⟨rfl, ?_⟩
      rw [endOf_removeStream_ne (by simpa using hK.streamOf_ne hid) (by simpa [Ne.symm hu] using hid),
        endOf_setTunnel_ne hu]
  | @tunnelStarved u T h hs hr =>
    by_cases hu : u = t
    · subst hu
      rw [endOf_setTunnel (Tunnel.step_id h)]
      refine .inl (.tunnelStarved h (by simp [endOf, hs]) ?_)
      cases hrd : s.reading with
      | none => simp [endOf, hrd]
      | some r =>
        have : r.2.1 ≠ u := by
          intro hne
          exact hr r.1 r.2.2 (by rw [hrd, ← hne])
        simp [endOf, hrd, this]
    · exact .inr ⟨rfl, endOf_setTunnel_ne hu⟩
  | @release i u hm =>
    obtain ⟨rfl, hu'⟩ := hK.tracked.of_releasing hm
    refine .inr ⟨rfl, ?_⟩
    by_cases hu : u = t
    · subst hu
      have hc : 0 < s.releasing.count ((s.tunnels u).id, u) := List.count_pos_iff.mpr hm
      simp [endOf]
      omega
    · have hid := hK.id_ne hf (ne_fetchId hu') hu
      simp [endOf, List.count_erase, hid]
  | @failPending i hm =>
    by_cases hi : i = (s.tunnels t).id
    · subst hi
      have hc : 0 < s.failing.count (s.tunnels t).id := List.count_pos_iff.mpr hm
      rw [endOf_failPending fun u => hK.eq_of_waiterOf hf]
      refine .inl (.failPending ?_)
      simp [endOf]
      omega
    · refine .inr ⟨rfl, ?_⟩
      have hw : waiterOf { s with failing := s.failing.erase i } i ≠ some t := hK.waiterOf_ne hi
      rw [failPending, endOf_answerPending_ne hw hi, endOf_failing]
      simp [List.count_erase, hi, endOf]
  | @spawnedSend m hm hl =>
    obtain ⟨u, rfl, hu'⟩ := hK.spawned m hm
    have hc : 0 < s.spawned.count (.reset (s.tunnels u).id) := List.count_pos_iff.mpr hm
    by_cases hu : u = t
    · subst hu
      refine .inl ?_
      have hstep : ServerEnd.Step chunk (s.endOf u) (.output .reset)
          { s.endOf u with resets := s.spawned.count (.reset (s.tunnels u).id) - 1 } :=
        .spawnedReset (by simp [endOf]; omega)
      simpa [Event.at, bodyFor, bodyOf, endOf_spawned] using hstep
    · have hid := hK.id_ne hf (ne_fetchId hu') hu
      refine .inr ⟨by simp [Event.at, bodyFor, bodyOf, hid], endOf_spawned.trans ?_⟩
      simp [List.count_erase, hid, endOf]
  | spawnedFailed hm hl => simp [hK.linked] at hl
  | @recv m hr =>
    cases hb : bodyFor (s.tunnels t).id m with
    | none => exact .inr ⟨by simp [Event.at, hb], endOf_handled_ne hK hr hb (handled ..)⟩
    | some b =>
      obtain rfl := eq_message_of_bodyFor hb
      refine .inl ?_
      rw [endOf_handleMessage hK hf]
      simpa [Event.at] using ServerEnd.Step.recv (by simp [endOf, hr])
  | @deliver i u p hr =>
    by_cases hu : u = t
    · subst hu
      rw [endOf_deliver hK hr]
      exact .inl (.deliver (by simp [endOf, hr]))
    · exact .inr ⟨rfl, endOf_deliver_ne hK hf hu hr⟩
  | hangup => exact absurd rfl hh

end ConnectorManager

namespace SessionManager

variable {c c' : SessionManager} {f : Handler → Handler}

/-- The connector's end of stream `i`. -/
def endOf (c : SessionManager) (i : UInt32) : ConnectorEnd where
  entry := i ∈ c.streams
  handlers := c.tasks i
  refusals := c.refusals.count i

section Ends

theorem endOf_setTasks {hs : List Handler} :
    (c.setTasks i hs).endOf i = { c.endOf i with handlers := hs } := by
  simp [endOf]

theorem endOf_setTasks_ne {hs : List Handler} (h : j ≠ i) :
    (c.setTasks j hs).endOf i = c.endOf i := by
  simp [endOf, Ne.symm h]

theorem endOf_modify : (c.modify i f).endOf i = (c.endOf i).modify f := endOf_setTasks

theorem endOf_modify_ne (h : j ≠ i) : (c.modify j f).endOf i = c.endOf i := endOf_setTasks_ne h

theorem endOf_remove : (c.remove i).endOf i = (c.endOf i).remove := by
  by_cases hi : i ∈ c.streams <;>
    simp [endOf, ConnectorEnd.remove, ConnectorEnd.modify, remove_streams, remove_tasks, hi]

theorem endOf_remove_ne (h : j ≠ i) : (c.remove j).endOf i = c.endOf i := by
  simp [endOf, remove_streams, remove_tasks, Ne.symm h]

theorem endOf_retainUnfinished : c.retainUnfinished.endOf i = (c.endOf i).retire := by
  simp [endOf, retainUnfinished, ConnectorEnd.retire, ConnectorEnd.taskFinished, taskFinished]

theorem endOf_handleData : (c.handleData i p).endOf i = (c.endOf i).handleData p := by
  have hm := endOf_modify (c := c) (i := i) (f := (·.enqueue p))
  have hr := endOf_remove (c := c) (i := i)
  have hh : (c.endOf i).handlers = c.tasks i := rfl
  by_cases hi : i ∈ c.streams
  · have he : (c.endOf i).entry = true := by simp [endOf, hi]
    simp only [handleData, ConnectorEnd.handleData, hi, he, hh, if_true]
    cases (c.tasks i).head? with
    | none => rfl
    | some H =>
      dsimp only
      split
      · split
        · exact hm
        · exact hr
      · rfl
  · simp [handleData, ConnectorEnd.handleData, hi, endOf]

/-- Whether there is room is decided by all the streams, so one stream may see either. -/
theorem endOf_handleConnect {target : String} :
    ConnectorEnd.Step chunk (c.endOf i) (.input (.connect target))
      ((c.handleConnect i target).endOf i) := by
  have hr : (c.retainUnfinished.remove i).endOf i = (c.endOf i).retire.remove := by
    rw [endOf_remove, endOf_retainUnfinished]
  unfold handleConnect
  dsimp only
  split
  · have hs : ConnectorEnd.Step chunk (c.endOf i) (.input (.connect target)) _ := .overload
    convert hs using 1
    rw [← hr]
    simp [endOf]
  · have hs : ConnectorEnd.Step chunk (c.endOf i) (.input (.connect target)) _ := .accept
    convert hs using 1
    rw [← hr]
    simp [endOf]

theorem endOf_handleConnect_ne {target : String} (h : j ≠ i) :
    (c.handleConnect j target).endOf i = (c.endOf i).retire := by
  have hr : (c.retainUnfinished.remove j).endOf i = (c.endOf i).retire := by
    rw [endOf_remove_ne h, endOf_retainUnfinished]
  unfold handleConnect
  dsimp only
  rw [← hr]
  split <;> simp [endOf, h, Ne.symm h]

theorem endOf_handleMessage (hb : ∀ target, b ≠ .connect target) :
    (c.handleMessage (b.message i)).endOf i = (c.endOf i).handle b := by
  cases b with
  | connect target => exact absurd rfl (hb target)
  | connectOk => rfl
  | connectErr error => rfl
  | data payload => exact endOf_handleData
  | close =>
    by_cases hi : i ∈ c.streams
    · have := endOf_modify (c := c) (i := i) (f := Handler.closeRequest)
      simpa [Body.message, handleMessage, ConnectorEnd.handle, hi, endOf] using this
    · simp [Body.message, handleMessage, ConnectorEnd.handle, hi, endOf]
  | reset => exact endOf_remove
  | windowUpdate bytes =>
    by_cases hi : i ∈ c.streams
    · have := endOf_modify (c := c) (i := i) (f := (·.addCredit bytes.toNat))
      simpa [Body.message, handleMessage, ConnectorEnd.handle, hi, endOf] using this
    · simp [Body.message, handleMessage, ConnectorEnd.handle, hi, endOf]

/-- A message for another stream sweeps this one's entry at most. -/
theorem endOf_handleMessage_ne (hm : bodyFor i m = none) :
    (c.handleMessage m).endOf i = c.endOf i ∨ (c.handleMessage m).endOf i = (c.endOf i).retire := by
  have hne : ∀ j b, bodyOf m = some (j, b) → j ≠ i := by
    rintro j b hb rfl
    simp [bodyFor, hb] at hm
  cases m with
  | connect id target => exact .inr (endOf_handleConnect_ne (hne _ _ rfl))
  | connectOk id => exact .inl rfl
  | connectErr id error => exact .inl rfl
  | auth token => exact .inl rfl
  | reset id => exact .inl (endOf_remove_ne (hne _ _ rfl))
  | data id payload =>
    refine .inl ?_
    change (c.handleData id payload).endOf i = _
    unfold handleData
    split
    · split
      · rfl
      · split
        · split
          · exact endOf_modify_ne (hne _ _ rfl)
          · exact endOf_remove_ne (hne _ _ rfl)
        · rfl
    · rfl
  | close id =>
    refine .inl ?_
    simp only [handleMessage]
    split
    · exact endOf_modify_ne (hne _ _ rfl)
    · rfl
  | windowUpdate id bytes =>
    refine .inl ?_
    simp only [handleMessage]
    split
    · exact endOf_modify_ne (hne _ _ rfl)
    · rfl

end Ends

/-- Every step of the connector is, for one stream, a step of its end or nothing at all. -/
theorem endOf_step (h : Step chunk c e c') :
    ConnectorEnd.Step chunk (c.endOf i) (e.at i) (c'.endOf i) ∨
      e.at i = .internal ∧ c'.endOf i = c.endOf i := by
  cases h with
  | @handler j newer older H H' ht h =>
    by_cases hj : j = i
    · subst hj
      rw [endOf_setTasks]
      exact .inl (.handler ht h)
    · exact .inr ⟨rfl, endOf_setTasks_ne hj⟩
  | @handlerSend j newer older H H' b ht h =>
    by_cases hj : j = i
    · subst hj
      rw [endOf_setTasks]
      exact .inl (by simpa [Event.at] using ConnectorEnd.Step.handlerSend ht h)
    · exact .inr ⟨by simp [Event.at, hj], endOf_setTasks_ne hj⟩
  | @refuse j hm =>
    by_cases hj : j = i
    · subst hj
      have hc : 0 < c.refusals.count j := List.count_pos_iff.mpr hm
      have hs : ConnectorEnd.Step chunk (c.endOf j) (.output (.connectErr "connector overloaded"))
          { c.endOf j with refusals := c.refusals.count j - 1 } :=
        .refuse (by simp [endOf]; omega)
      exact .inl (by simpa [Event.at, bodyFor, bodyOf, endOf] using hs)
    · exact .inr ⟨by simp [Event.at, bodyFor, bodyOf, hj], by simp [endOf, List.count_erase, hj]⟩
  | @recv m =>
    cases hb : bodyFor i m with
    | none =>
      rw [show (Event.input m).at i = .internal by simp [Event.at, hb]]
      rcases endOf_handleMessage_ne (c := c) hb with hr | hr
      · exact .inr ⟨rfl, hr⟩
      · rw [hr]
        exact .inl .retire
    | some b =>
      obtain rfl := eq_message_of_bodyFor hb
      rw [show (Event.input (b.message i)).at i = .input b by simp [Event.at]]
      refine .inl ?_
      by_cases hc : ∃ target, b = .connect target
      · obtain ⟨target, rfl⟩ := hc
        exact endOf_handleConnect
      · have hc' : ∀ target, b ≠ .connect target := fun target he => hc ⟨target, he⟩
        rw [endOf_handleMessage hc']
        exact .recv hc'

end SessionManager

end X2rp.Wss
