import X2rp.Wss.Bytes
import X2rp.Wss.Slots

/-! The server's memory for one stream stays within the receive window, against any
connector and with stream ids that may wrap. -/
namespace X2rp.Wss.ConnectorManager

open Proto

variable {s s' : ConnectorManager} {chunk : Nat} {e : Event} {t u : Nat} {i j : UInt32}
  {T : Tunnel} {answer : Answer} {p : Bytes} {m : Message}

/-- Bytes the read loop has counted for tunnel `t` and not yet queued. -/
def inHand (s : ConnectorManager) (t : Nat) : Nat :=
  match s.reading with
  | some (_, u, p) => if u = t then p.length else 0
  | none => 0

/-- What the window of tunnel `t` rests on. -/
structure Windowed (s : ConnectorManager) (t : Nat) : Prop where
  idle : s.started ≤ t → (s.tunnels t).phase = .fetchId
  early : (s.tunnels t).phase.early = true →
    (s.tunnels t).download = {} ∧ (s.tunnels t).outstanding = 0
  wf : (s.tunnels t).download.WF
  le : (s.tunnels t).download.held + s.inHand t ≤ (s.tunnels t).outstanding
  bounded : (s.tunnels t).download.held + s.inHand t ≤ streamRecvWindow
  listed : ∀ i, s.streamOf i = some t → (s.tunnels t).id = i ∧
    (s.tunnels t).phase.early = false ∧
    (s.tunnels t).download.held + s.inHand t = (s.tunnels t).outstanding
  read : ∀ i p, s.reading = some (i, t, p) → (s.tunnels t).id = i ∧
    (s.tunnels t).phase.early = false

/-- A state that leaves the tunnel, its counts and its entries alone, or drops entries. -/
theorem Windowed.frame (h : Windowed s t) (hst : s.started ≤ s'.started)
    (hid : (s'.tunnels t).id = (s.tunnels t).id)
    (hph : (s'.tunnels t).phase = (s.tunnels t).phase)
    (hd : (s'.tunnels t).download = (s.tunnels t).download)
    (ho : (s'.tunnels t).outstanding = (s.tunnels t).outstanding)
    (hs : ∀ i, s'.streamOf i = some t → s.streamOf i = some t)
    (hr : s'.inHand t = s.inHand t)
    (hr' : ∀ i p, s'.reading = some (i, t, p) → s.reading = some (i, t, p)) : Windowed s' t where
  idle ht := by
    rw [hph]
    exact h.idle (by omega)
  early he := by
    rw [hd, ho]
    exact h.early (hph ▸ he)
  wf := hd ▸ h.wf
  le := by rw [hd, hr, ho]; exact h.le
  bounded := by rw [hd, hr]; exact h.bounded
  listed i hi := by
    rw [hid, hph, hd, hr, ho]
    exact h.listed i (hs i hi)
  read i p hp := by
    rw [hid, hph]
    exact h.read i p (hr' i p hp)

theorem inHand_congr (h : s'.reading = s.reading) : s'.inHand t = s.inHand t := by
  simp [inHand, h]

/-- The common case of `frame`: the read loop holds what it held. -/
theorem Windowed.frame' (h : Windowed s t) (hst : s'.started = s.started)
    (hid : (s'.tunnels t).id = (s.tunnels t).id)
    (hph : (s'.tunnels t).phase = (s.tunnels t).phase)
    (hd : (s'.tunnels t).download = (s.tunnels t).download)
    (ho : (s'.tunnels t).outstanding = (s.tunnels t).outstanding)
    (hs : ∀ i, s'.streamOf i = some t → s.streamOf i = some t)
    (hr : s'.reading = s.reading) : Windowed s' t :=
  h.frame hst.ge hid hph hd ho hs (inHand_congr hr) fun _ _ => by rw [hr]; exact fun h => h

theorem windowed_other (h : Windowed s u) (hu : u ≠ t) : Windowed (s.setTunnel t T) u :=
  h.frame' rfl (by simp [hu]) (by simp [hu]) (by simp [hu]) (by simp [hu]) (fun _ h => h) rfl

theorem Windowed.removeStream (h : Windowed s t) : Windowed (s.removeStream i) t := by
  have hT : (s.removeStream i).tunnels t = _ := removeStream_tunnels
  refine h.frame' (by simp) (by simp) (by simp) ?_ ?_ (fun j hj => ?_) (by simp)
  · rw [hT]; split <;> rfl
  · rw [hT]; split <;> rfl
  · exact shrinks_removeStream.stream j t hj

theorem Windowed.answerPending (h : Windowed s t) : Windowed (s.answerPending i answer) t := by
  have hT : (s.answerPending i answer).tunnels t = _ := answerPending_tunnels
  refine h.frame' (by simp) (by simp) (by simp) ?_ ?_ (by simp) (by simp)
  · rw [hT]; split <;> rfl
  · rw [hT]; split <;> rfl

/-- A tunnel's own step writes bytes out and counts them down together. -/
theorem Windowed.tunnelStep {a : Act} (h : ∀ u, Windowed s u)
    (ht : Tunnel.Step chunk (s.tunnels t) a T) : Windowed (s.setTunnel t T) u := by
  by_cases hu : u = t
  · subst hu
    obtain ⟨hi, -, hw, hle, hb, hl, hr⟩ := h u
    obtain ⟨he, he'⟩ := Tunnel.step_not_early ht
    obtain ⟨hw', n, hn, ho⟩ := Tunnel.step_held hw ht
    have hin : (s.setTunnel u T).inHand u = s.inHand u := rfl
    refine ⟨fun hs => ?_, by simp [he'], by simpa using hw', ?_, ?_, fun i hs => ?_, fun i p hp => ?_⟩
    · simp [hi hs, Phase.early] at he
    · rw [hin]; simp; omega
    · rw [hin]; simp; omega
    · obtain ⟨h1, -, h3⟩ := hl i hs
      rw [hin]
      refine ⟨by simpa [Tunnel.step_id ht] using h1, by simpa using he', ?_⟩
      simp
      omega
    · exact ⟨by simpa [Tunnel.step_id ht] using (hr i p hp).1, by simpa using he'⟩
  · exact windowed_other (h u) hu

theorem Windowed.lt_started (h : Windowed s t) (hp : (s.tunnels t).phase ≠ .fetchId) :
    t < s.started := by
  by_contra hn
  exact hp (h.idle (by omega))

/-- The manager moves one tunnel within its early phases. -/
theorem Windowed.early_move (h : ∀ u, Windowed s u) (he : (s.tunnels t).phase.early = true)
    (he' : (s'.tunnels t).phase.early = true) (ht : t < s.started)
    (hst : s'.started = s.started)
    (hd : (s'.tunnels t).download = (s.tunnels t).download)
    (ho : (s'.tunnels t).outstanding = (s.tunnels t).outstanding)
    (hf : ∀ u, u ≠ t → s'.tunnels u = s.tunnels u)
    (hs : s'.streams = s.streams) (hr : s'.reading = s.reading) : Windowed s' u := by
  have hso : ∀ i, s'.streamOf i = s.streamOf i := by simp [streamOf, hs]
  by_cases hu : u = t
  · subst hu
    obtain ⟨-, h2, h3, h4, h5, h6, h7⟩ := h u
    refine ⟨fun hs => by omega, fun _ => ?_, hd ▸ h3, ?_, ?_, fun i hs => ?_,
      fun i p hp => ?_⟩
    · rw [hd, ho]
      exact h2 he
    · rw [hd, ho, inHand_congr hr]
      exact h4
    · rw [hd, inHand_congr hr]
      exact h5
    · rw [hso] at hs
      simp [he] at h6
      exact (h6 i hs).elim
    · rw [hr] at hp
      simp [he] at h7
      exact (h7 i p hp).elim
  · refine (h u).frame' hst ?_ ?_ ?_ ?_ (fun i => by simp [hso]) hr <;> rw [hf u hu]

/-- Past the window the counter keeps the refused payload, but the stream is out of the map. -/
theorem Windowed.exceeded (h : Windowed s t) (hr : s.reading = none)
    (hi : s.streamOf i = some t)
    (hT : s'.tunnels t = ((s.tunnels t).addOutstanding p.length).closeCredit)
    (hst : s'.started = s.started) (hr' : s'.reading = none)
    (hs : ∀ j, s'.streamOf j = some t → j ≠ i ∧ s.streamOf j = some t) : Windowed s' t := by
  have hin : s.inHand t = 0 ∧ s'.inHand t = 0 := by simp [inHand, hr, hr']
  obtain ⟨hid, he, -⟩ := h.listed i hi
  refine ⟨fun hs => ?_, ?_, ?_, ?_, ?_, fun j hj => ?_, by simp [hr']⟩
  · simpa [hT] using h.idle (hst ▸ hs)
  · simp [hT, he]
  · simpa [hT] using h.wf
  · have := h.le
    simp [hT, hin.2]
    omega
  · simpa [hT, hin] using h.bounded
  · obtain ⟨hne, hj⟩ := hs j hj
    exact absurd ((h.listed j hj).1.symm.trans hid) hne

/-- Within the window the payload is counted and in the read loop's hand. -/
theorem Windowed.within (h : Windowed s t) (hr : s.reading = none)
    (hi : s.streamOf i = some t)
    (hw : (s.tunnels t).outstanding + p.length ≤ streamRecvWindow)
    (hT : s'.tunnels t = (s.tunnels t).addOutstanding p.length)
    (hst : s'.started = s.started) (hr' : s'.reading = some (i, t, p))
    (hs : ∀ j, s'.streamOf j = s.streamOf j) : Windowed s' t := by
  have hin : s.inHand t = 0 ∧ s'.inHand t = p.length := by simp [inHand, hr, hr']
  obtain ⟨hid, he, heq⟩ := h.listed i hi
  refine ⟨fun hs => ?_, ?_, ?_, ?_, ?_, fun j hj => ?_, fun j q hq => ?_⟩
  · simpa [hT] using h.idle (hst ▸ hs)
  · simp [hT, he]
  · simpa [hT] using h.wf
  · simp [hT, hin]
    omega
  · simp [hT, hin]
    omega
  · have := h.listed j (hs j ▸ hj)
    simp [hT, hin, this.1, he]
    omega
  · obtain ⟨rfl, -⟩ : i = j ∧ p = q := by simpa [hr'] using hq
    simp [hT, hid, he]

/-- A payload whose receiver is gone is dropped, and the entry with it. -/
theorem Windowed.dropped (h : Windowed s t) (hr : s.reading = some (i, t, p))
    (hph : (s'.tunnels t).phase = (s.tunnels t).phase)
    (hd : (s'.tunnels t).download = (s.tunnels t).download)
    (ho : (s'.tunnels t).outstanding = (s.tunnels t).outstanding)
    (hst : s'.started = s.started) (hr' : s'.reading = none)
    (hs : ∀ j, s'.streamOf j = some t → j ≠ i ∧ s.streamOf j = some t) : Windowed s' t := by
  have hin : s.inHand t = p.length ∧ s'.inHand t = 0 := by simp [inHand, hr, hr']
  obtain ⟨hid', he⟩ := h.read i p hr
  refine ⟨fun hs => ?_, by simp [hph, he], hd ▸ h.wf, ?_, ?_, fun j hj => ?_, by simp [hr']⟩
  · simpa [hph] using h.idle (hst ▸ hs)
  · have := h.le
    rw [hd, ho, hin.2]
    omega
  · have := h.bounded
    rw [hd, hin.2]
    omega
  · obtain ⟨hne, hj⟩ := hs j hj
    exact absurd ((h.listed j hj).1.symm.trans hid') hne

/-- A payload moves from the read loop's hand to the queue. -/
theorem Windowed.queued (h : Windowed s t) (hr : s.reading = some (i, t, p))
    (hT : s'.tunnels t = (s.tunnels t).enqueue p) (hst : s'.started = s.started)
    (hr' : s'.reading = none) (hs : ∀ j, s'.streamOf j = s.streamOf j) : Windowed s' t := by
  have hin : s.inHand t = p.length ∧ s'.inHand t = 0 := by simp [inHand, hr, hr']
  obtain ⟨hid, he⟩ := h.read i p hr
  have hle := h.le
  have hb := h.bounded
  refine ⟨fun hs => ?_, by simp [hT, he], ?_, ?_, ?_, fun j hj => ?_, by simp [hr']⟩
  · simpa [hT] using h.idle (hst ▸ hs)
  · rw [hT]
    exact Tunnel.enqueue_wf h.wf
  · simp [hin, hT]
    omega
  · simp [hin, hT]
    omega
  · have := h.listed j (hs j ▸ hj)
    simp [hin, hT, this.1, he]
    omega

theorem Windowed.handled (h : ∀ u, Windowed s u) (hr : s.reading = none)
    (hm : Handled s m s') : Windowed s' u := by
  cases hm with
  | ignored => exact h u
  | answered _ => exact (h u).answerPending
  | removed _ => exact (h u).removeStream
  | @granted i n t _ =>
    refine (h u).frame' rfl ?_ ?_ ?_ ?_ (fun _ h => h) rfl <;>
      by_cases hu : u = t <;> simp [hu]
  | @exceeded i t p hi _ =>
    by_cases hu : u = t
    · subst hu
      refine (h u).exceeded (p := p) hr hi ?_ (by simp) (by simp [hr]) fun j hj => ?_
      · simp [removeStream_tunnels, hi]
      · have hj' : ((s.setTunnel u ((s.tunnels u).addOutstanding p.length)).removeStream i).streamOf
            j = some u := hj
        rw [removeStream_streamOf] at hj'
        split at hj'
        · simp at hj'
        · exact ⟨‹_›, hj'⟩
    · have h1 : Windowed (s.setTunnel t ((s.tunnels t).addOutstanding p.length)) u :=
        windowed_other (h u) hu
      exact h1.removeStream.frame' rfl rfl rfl rfl rfl (fun _ h => h) rfl
  | @within i t p hi hw =>
    by_cases hu : u = t
    · subst hu
      exact (h u).within hr hi hw (by simp) rfl rfl fun _ => rfl
    · have h1 : Windowed (s.setTunnel t ((s.tunnels t).addOutstanding p.length)) u :=
        windowed_other (h u) hu
      refine h1.frame le_rfl rfl rfl rfl rfl (fun _ h => h) ?_ fun j q hq => ?_
      · simp [inHand, hr, Ne.symm hu]
      · simp [Ne.symm hu] at hq

theorem Windowed.deliver (h : ∀ u, Windowed s u) (hr : s.reading = some (i, t, p)) :
    Windowed (s.deliver i t p) u := by
  have hin : u ≠ t → s.inHand u = 0 := by
    intro hu
    simp [inHand, hr, Ne.symm hu]
  by_cases hp : (s.tunnels t).phase = .ended
  · rw [deliver_ended hp]
    by_cases hu : u = t
    · subst hu
      have hT : (({ s with reading := none } : ConnectorManager).removeStream i).tunnels u = _ :=
        removeStream_tunnels
      refine (h u).dropped hr (by simp) ?_ ?_ (by simp) (by simp) fun j hj => ?_
      · rw [hT]; split <;> simp
      · rw [hT]; split <;> simp
      · rw [removeStream_streamOf] at hj
        split at hj
        · simp at hj
        · exact ⟨‹_›, hj⟩
    · have h1 : Windowed { s with reading := none } u :=
        (h u).frame le_rfl rfl rfl rfl rfl (fun _ h => h) (by rw [hin hu]; rfl) (by simp)
      exact h1.removeStream
  · rw [deliver_live hp]
    by_cases hu : u = t
    · subst hu
      exact (h u).queued hr (by simp) rfl rfl fun _ => rfl
    · have h1 : Windowed (s.setTunnel t ((s.tunnels t).enqueue p)) u := windowed_other (h u) hu
      exact h1.frame le_rfl rfl rfl rfl rfl (fun _ h => h)
        (by simpa [inHand] using (hin hu).symm) (by simp)

theorem Windowed.insertStream (h : ∀ u, Windowed s u)
    (hp : (s.tunnels t).phase = .insertStream) :
    Windowed ((s.insertStream (s.tunnels t).id t).setPhase t .sendConnect) u := by
  by_cases hu : u = t
  · subst hu
    obtain ⟨hd, ho⟩ := (h u).early (by simp [hp, Phase.early])
    have hle := (h u).le
    have hr : ((s.insertStream (s.tunnels u).id u).setPhase u .sendConnect).inHand u = 0 := by
      rw [inHand_congr (s := s) (by simp)]
      omega
    have hlt : u < s.started := by
      by_contra hn
      simp [(h u).idle (by omega)] at hp
    refine ⟨fun hs => ?_, by simp [Phase.early], ?_, ?_, ?_, fun i hi => ?_, fun i p hr => ?_⟩
    · exact absurd (by simpa using hs) (Nat.not_le.mpr hlt)
    · simpa [hd] using Drain.wf_init
    · simp [hr, hd, ho, Drain.held, Drain.queued, Drain.writing, Drain.lost]
    · simp [hr, hd, Drain.held, Drain.queued, Drain.writing, Drain.lost]
    · have hi' : i = (s.tunnels u).id := by
        by_contra hn
        have := (h u).listed i (by simpa [hn] using hi)
        simp [hp, Phase.early] at this
      simp [hi', hr, hd, ho, Phase.early, Drain.held, Drain.queued, Drain.writing, Drain.lost]
    · have := (h u).read i p (by simpa using hr)
      simp [hp, Phase.early] at this
  · refine (h u).frame' (by simp) ?_ ?_ ?_ ?_ (fun i hi => ?_) (by simp)
    any_goals simp [hu]
    by_cases hn : i = (s.tunnels t).id
    · simp [hn, Ne.symm hu] at hi
    · simpa [hn] using hi

theorem windowed_fresh (hT : (s.tunnels t).phase = .fetchId)
    (hd : (s.tunnels t).download = {}) (ho : (s.tunnels t).outstanding = 0)
    (hs : ∀ i, s.streamOf i ≠ some t) (hr : ∀ i p, s.reading ≠ some (i, t, p)) :
    Windowed s t := by
  have hin : s.inHand t = 0 := by
    unfold inHand
    split
    · rename_i i u p he
      have : u ≠ t := by rintro rfl; exact hr _ _ he
      simp [this]
    · rfl
  have hh : (s.tunnels t).download.held = 0 := by
    simp [hd, Drain.held, Drain.queued, Drain.writing, Drain.lost]
  exact ⟨fun _ => hT, fun _ => ⟨hd, ho⟩, hd ▸ Drain.wf_init, by omega, by omega,
    fun i hi => (hs i hi).elim, fun i p hp => (hr i p hp).elim⟩

theorem Windowed.spawnTunnel {target : String} (h : ∀ u, Windowed s u) :
    Windowed (s.spawnTunnel target) u := by
  by_cases hu : u = s.started
  · have hf := (h s.started).idle le_rfl
    subst hu
    refine windowed_fresh (by simp) (by simp) (by simp) (fun i hi => ?_) fun i p hp => ?_
    · have := (h s.started).listed i hi
      simp [hf, Phase.early] at this
    · have := (h s.started).read i p (by simpa using hp)
      simp [hf, Phase.early] at this
  · exact (h u).frame (by simp) (by simp [hu]) (by simp [hu]) (by simp [hu]) (by simp [hu])
      (by simp) (inHand_congr (by simp)) (by simp)

theorem Windowed.insertPending (h : ∀ u, Windowed s u)
    (hp : (s.tunnels t).phase = .insertPending) :
    Windowed ((s.insertPending i t).setPhase t .insertStream) u := by
  have h0 : ∀ u, Windowed (s.answerPending i .cancelled) u := fun u => (h u).answerPending
  have h1 : ∀ u, Windowed (s.insertPending i t) u := fun u =>
    (h0 u).frame' rfl rfl rfl rfl rfl (fun _ h => h) rfl
  have hlt := (h t).lt_started (by simp [hp])
  exact early_move h1 (t := t) (by simp [hp, Phase.early]) (by simp [Phase.early])
    (by simpa using hlt) (by simp) (by simp) (by simp) (by simp +contextual) (by simp) (by simp)

theorem Windowed.step (h : ∀ u, Windowed s u) (hs : Step chunk s e s') : Windowed s' u := by
  cases hs with
  | bridge hr =>
    obtain ⟨-, rfl⟩ := tryReserveStreamSlot_eq hr
    exact spawnTunnel fun u => (h u).frame' rfl rfl rfl rfl rfl (fun _ h => h) rfl
  | @fetchId t ht hp =>
    exact early_move h (t := t) (by simp [hp, Phase.early]) (by simp [Phase.early]) ht rfl
      (by simp) (by simp) (by simp +contextual) rfl rfl
  | @idInUse t hp hi =>
    exact early_move h (t := t) (by simp [hp, Phase.early]) (by simp [Phase.early])
      ((h t).lt_started (by simp [hp])) rfl (by simp) (by simp) (by simp +contextual) rfl rfl
  | @idFree t hp hi =>
    exact early_move h (t := t) (by simp [hp, Phase.early]) (by simp [Phase.early])
      ((h t).lt_started (by simp [hp])) rfl (by simp) (by simp) (by simp +contextual) rfl rfl
  | insertPending hp => exact insertPending h hp
  | insertStream hp => exact insertStream h hp
  | tunnel ht => exact tunnelStep h ht
  | tunnelSend ht hl => exact tunnelStep h ht
  | tunnelSendFailed ht hl => exact tunnelStep h ht
  | tunnelStarved ht _ _ => exact tunnelStep h ht
  | tunnelRemove ht => exact (tunnelStep h ht).removeStream
  | release hm => exact (h u).frame' rfl rfl rfl rfl rfl (fun _ h => h) rfl
  | @failPending id hm =>
    have h1 : Windowed { s with failing := s.failing.erase id } u :=
      (h u).frame' rfl rfl rfl rfl rfl (fun _ h => h) rfl
    exact h1.answerPending
  | spawnedSend hm hl => exact (h u).frame' rfl rfl rfl rfl rfl (fun _ h => h) rfl
  | spawnedFailed hm hl => exact (h u).frame' rfl rfl rfl rfl rfl (fun _ h => h) rfl
  | recv hr => exact .handled h hr (ConnectorManager.handled ..)
  | deliver hr => exact deliver h hr
  | hangup => exact (h u).frame' rfl rfl rfl rfl rfl (fun _ h => h) rfl

theorem windowed_of_reachable (h : (lts chunk).Reachable s) (t : Nat) : Windowed s t := by
  refine h.invariant (P := fun s => ∀ t, Windowed s t) ?_ (fun s e s' ih hs t => Windowed.step ih hs) t
  rintro s rfl t
  exact windowed_fresh rfl rfl rfl (by simp [streamOf]) (by simp)

/-- The server's memory for one stream is one window, whatever the connector sends. What is
queued and being written never exceeds the window; `recv_outstanding` covers it, so `fetch_sub`
cannot underflow; while the stream is registered it counts exactly what is queued, being
written, in the read loop's hand, or was lost to a failed client write; and neither half of
`handle_message` adds a key to a map. -/
theorem window_bounds (h : (lts chunk).Reachable s) (t : Nat) :
    (s.tunnels t).download.queued + (s.tunnels t).download.writing ≤ streamRecvWindow ∧
    (s.tunnels t).download.writing ≤ (s.tunnels t).outstanding ∧
    (∀ i, s.streamOf i = some t → (s.tunnels t).outstanding =
      (s.tunnels t).download.queued + (s.tunnels t).download.writing + s.inHand t +
        (s.tunnels t).download.lost) ∧
    (∀ m, (s.handleMessage m).streams.keys ⊆ s.streams.keys ∧
      (s.handleMessage m).pending.keys ⊆ s.pending.keys) ∧
    ∀ i u p, (s.deliver i u p).streams.keys ⊆ s.streams.keys ∧
      (s.deliver i u p).pending.keys ⊆ s.pending.keys := by
  have hw := windowed_of_reachable h t
  have hle := hw.le
  have hb := hw.bounded
  have hkeys : ∀ s', Shrinks s s' →
      s'.streams.keys ⊆ s.streams.keys ∧ s'.pending.keys ⊆ s.pending.keys := by
    intro s' hs
    refine ⟨fun i hi => ?_, fun i hi => ?_⟩ <;> rw [Finmap.mem_keys, Finmap.mem_iff] at hi ⊢
    · exact hi.imp (hs.stream i)
    · exact hi.imp (hs.waiter i)
  unfold Drain.held at hle hb
  refine ⟨by omega, by omega, fun i hi => ?_, fun m => hkeys _ (handled ..).shrinks,
    fun i u p => hkeys _ shrinks_deliver⟩
  have := (hw.listed i hi).2.2
  unfold Drain.held at this
  omega

/-- The manager's only tunnel has had its connect answered and has one payload queued. -/
structure Queued (p : Bytes) (s : ConnectorManager) : Prop where
  started : s.started = 1
  next : s.nextStreamId = 2
  active : s.activeStreams = 1
  tunnel : s.tunnels 0 =
    { target := "http://localhost:80", id := 1, phase := .splice, answer := some .ok,
      download := { queue := [p] }, outstanding := p.length }
  streamOf : ∀ i, s.streamOf i = if i = 1 then some 0 else none
  waiterOf : ∀ i, s.waiterOf i = none
  reading : s.reading = none

theorem queued_reachable (chunk : Nat) (p : Bytes) (hp : p.length ≤ streamRecvWindow) :
    ∃ s, (lts chunk).Reachable s ∧ Queued p s := by
  obtain ⟨s, hopen, ho⟩ := open_run (s := {}) chunk "http://localhost:80" (by decide) rfl rfl
  have hT : s.tunnels 0 = { target := "http://localhost:80", id := 1, phase := .sendConnect } :=
    ho.tunnels 0
  have hs : s.streamOf 1 = some 0 := ho.streamOf 1
  have hw : s.waiterOf 1 = some 0 := ho.waiterOf 1
  have hrd : s.reading = none := ho.idle.1
  have h1 : (lts chunk).Reachable _ := (LTS.Reachable.trans (.init rfl) hopen).step
    (Step.tunnelSend (t := 0) (.connectSent (by rw [hT])) ho.linkOpen)
  have h2 := h1.step (Step.recv (m := .connectOk 1) hrd)
  have h3 := h2.step (Step.tunnel (t := 0) (.connected
    (by simp [handleMessage, answerPending_tunnels, hw])
    (by simp [handleMessage, answerPending_tunnels, hw])))
  have h4 := h3.step (Step.recv (m := .data 1 p) (by simpa [handleMessage] using hrd))
  simp only [handleMessage] at h4
  rw [handleData_within (t := 0) (by simpa using hs)
    (by simpa [answerPending_tunnels, hT, hw] using hp)] at h4
  have h5 := h4.step (Step.deliver rfl)
  rw [deliver_live (by simp)] at h5
  refine ⟨_, h5, by simpa using ho.started, by simpa using ho.next, by simpa using ho.active, ?_,
    fun i => ?_, fun i => ?_, rfl⟩
  · simp [answerPending_tunnels, hw, hT, Tunnel.enqueue, Tunnel.addOutstanding, Tunnel.answered]
  · simpa [streamOf] using ho.streamOf i
  · have hwaiter : ((s.setTunnel 0 { s.tunnels 0 with phase := .awaitConnect }).answerPending 1
        .ok).waiterOf i = none := by
      rw [answerPending_waiterOf, setTunnel_waiterOf, ho.waiterOf]
      split <;> rfl
    simpa [waiterOf] using hwaiter

theorem window_bounds_queued : ∃ s : ConnectorManager,
    (lts tunnelReadChunk).Reachable s ∧ s.streamOf 1 = some 0 ∧
    (s.tunnels 0).outstanding = (s.tunnels 0).download.queued ∧
    (s.tunnels 0).download.queued = 3 := by
  obtain ⟨s, hr, hq⟩ := queued_reachable tunnelReadChunk [1, 2, 3] (by decide)
  have hs : s.streamOf 1 = some 0 := hq.streamOf 1
  have := (window_bounds hr 0).2.2.1 1 hs
  refine ⟨s, hr, hs, ?_, by simp [hq.tunnel, Drain.queued]⟩
  simpa [hq.tunnel, Drain.writing, Drain.lost, inHand, hq.reading] using this

/-- After a failed client write the stream stays registered until its Reset is sent, and
`recv_outstanding` still counts the payload that is no longer queued or being written. -/
theorem outstanding_after_failed_write : ∃ s : ConnectorManager,
    (lts tunnelReadChunk).Reachable s ∧ s.streamOf 1 = some 0 ∧ s.reading = none ∧
    (s.tunnels 0).outstanding = 3 ∧
    (s.tunnels 0).download.queued + (s.tunnels 0).download.writing = 0 := by
  obtain ⟨s, hr, hq⟩ := queued_reachable tunnelReadChunk [1, 2, 3] (by decide)
  have hT := hq.tunnel
  have h1 := hr.step (Step.tunnel (t := 0) (.download (by simp [hT])
    (.recv (p := [1, 2, 3]) (q := []) (by simp [hT]) (by simp [hT])) (by simp)))
  have h2 := h1.step (Step.tunnel (t := 0) (.download (by simp [hT])
    (.writeFailed (by simp; exact ⟨rfl, rfl⟩)) (by simp)))
  refine ⟨_, h2, hq.streamOf 1, by simpa using hq.reading, ?_⟩
  simp [hT, Drain.queued, Drain.writing]

end X2rp.Wss.ConnectorManager
