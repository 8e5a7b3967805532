import X2rp.Wss.Window

/-! How many payloads a connector can have queued for a stream that nobody reads. The window
bounds the bytes of a queue, and a payload may have none. -/
namespace X2rp.Wss

open Proto

theorem Tunnel.step_queue {chunk : Nat} {T T' : Tunnel} {a : Act} (h : Step chunk T a T') :
    T'.download.queue <:+ T.download.queue := by
  have hdrain : ∀ {D D' : Drain} {a : Act}, Drain.Step D a D' → D'.queue <:+ D.queue := by
    intro D D' a h
    cases h with
    | recv hp hq =>
      rw [hq]
      exact List.suffix_cons ..
    | _ => exact List.suffix_rfl
  cases h with
  | download hp h ha => exact hdrain h
  | downloadDrained hp h => exact hdrain h
  | _ => exact List.suffix_rfl

namespace ConnectorManager

variable {s s' : ConnectorManager} {chunk : Nat} {e : Event} {t u : Nat} {i : UInt32}
  {T : Tunnel} {answer : Answer} {p : Bytes} {m : Message}

/-- The payloads queued for a tunnel. -/
def backlog (s : ConnectorManager) (t : Nat) : List Bytes := (s.tunnels t).download.queue

theorem backlog_setTunnel (h : T.download.queue <:+ s.backlog t) :
    (s.setTunnel t T).backlog u <:+ s.backlog u := by
  by_cases hu : u = t
  · subst hu
    simpa [backlog] using h
  · simp [backlog, hu]

theorem backlog_removeStream : (s.removeStream i).backlog u = s.backlog u := by
  rw [backlog, removeStream_tunnels]
  split <;> rfl

theorem backlog_answerPending : (s.answerPending i answer).backlog u = s.backlog u := by
  rw [backlog, answerPending_tunnels]
  split <;> rfl

theorem backlog_handled (h : Handled s m s') : s'.backlog u <:+ s.backlog u := by
  cases h with
  | ignored => exact List.suffix_rfl
  | answered => rw [backlog_answerPending]
  | removed => rw [backlog_removeStream]
  | granted hi => exact backlog_setTunnel (by simp [backlog])
  | @exceeded i t p hi hw =>
    change ((s.setTunnel t _).removeStream i).backlog u <:+ _
    rw [backlog_removeStream]
    exact backlog_setTunnel (by simp [backlog])
  | @within i t p hi hw =>
    change (s.setTunnel t _).backlog u <:+ _
    exact backlog_setTunnel (by simp [backlog])

/-- A queue grows only by the payload that the read loop has in hand. -/
theorem backlog_step (h : Step chunk s e s') : s'.backlog u <:+ s.backlog u ∨
    ∃ i p, s.reading = some (i, u, p) ∧ s'.backlog u = s.backlog u ++ [p] := by
  cases h with
  | @bridge s₁ target hr =>
    obtain ⟨-, rfl⟩ := tryReserveStreamSlot_eq hr
    refine .inl ?_
    by_cases hu : u = s.started <;> simp [backlog, hu]
  | @deliver id t p hr =>
    by_cases hp : (s.tunnels t).phase = .ended
    · rw [deliver_ended hp, backlog_removeStream]
      exact .inl List.suffix_rfl
    · rw [deliver_live hp]
      by_cases hu : u = t
      · subst hu
        exact .inr ⟨id, p, hr, by simp [backlog, Tunnel.enqueue]⟩
      · exact .inl (by simp [backlog, hu])
  | recv hr => exact .inl (backlog_handled (handled ..))
  | tunnel ht => exact .inl (backlog_setTunnel (Tunnel.step_queue ht))
  | tunnelSend ht => exact .inl (backlog_setTunnel (Tunnel.step_queue ht))
  | tunnelSendFailed ht => exact .inl (backlog_setTunnel (Tunnel.step_queue ht))
  | tunnelStarved ht => exact .inl (backlog_setTunnel (Tunnel.step_queue ht))
  | tunnelRemove ht =>
    rw [backlog_removeStream]
    exact .inl (backlog_setTunnel (Tunnel.step_queue ht))
  | fetchId => exact .inl (backlog_setTunnel List.suffix_rfl)
  | idInUse => exact .inl (backlog_setTunnel List.suffix_rfl)
  | idFree => exact .inl (backlog_setTunnel List.suffix_rfl)
  | @insertPending t hp =>
    have h : (s.insertPending (s.tunnels t).id t).backlog u = s.backlog u := backlog_answerPending
    rw [← h]
    exact .inl (backlog_setTunnel List.suffix_rfl)
  | @insertStream t hp => exact .inl (backlog_setTunnel List.suffix_rfl)
  | failPending =>
    rw [ConnectorManager.failPending, backlog_answerPending]
    exact .inl List.suffix_rfl
  | release => exact .inl List.suffix_rfl
  | spawnedSend => exact .inl List.suffix_rfl
  | spawnedFailed => exact .inl List.suffix_rfl
  | hangup => exact .inl List.suffix_rfl

theorem reading_handled (h : Handled s m s') (hn : s.reading = none)
    (hr : s'.reading = some (i, t, p)) : m = .data i p := by
  cases h with
  | within hi hw =>
    cases hr
    rfl
  | _ => simp [hn] at hr

theorem reading_step (h : Step chunk s e s') (hr : s'.reading = some (i, t, p)) :
    s.reading = some (i, t, p) ∨ e = .input (.data i p) := by
  cases h with
  | bridge hb =>
    obtain ⟨-, rfl⟩ := tryReserveStreamSlot_eq hb
    exact .inl (by simpa using hr)
  | recv hn => exact .inr (congrArg _ (reading_handled (handled ..) hn hr))
  | @deliver id u q hd =>
    by_cases hp : (s.tunnels u).phase = .ended
    · simp [deliver_ended hp] at hr
    · simp [deliver_live hp] at hr
  | _ => exact .inl (by simpa using hr)

/-- There is a byte in every payload that has been queued or is about to be. -/
structure Filled (s : ConnectorManager) : Prop where
  queued : ∀ t, ∀ p ∈ s.backlog t, p ≠ []
  inHand : ∀ i t p, s.reading = some (i, t, p) → p ≠ []

theorem filled_step (h : Filled s) (hs : Step chunk s e s') (he : ∀ i, e ≠ .input (.data i [])) :
    Filled s' := by
  constructor
  · intro t p hp
    rcases backlog_step hs with hsuffix | ⟨i, q, hr, hq⟩
    · exact h.queued t p (hsuffix.subset hp)
    · rw [hq, List.mem_append, List.mem_singleton] at hp
      rcases hp with hp | rfl
      · exact h.queued t p hp
      · exact h.inHand i t p hr
  · rintro i t p hr rfl
    rcases reading_step hs hr with hr | hm
    · exact h.inHand i t [] hr rfl
    · exact he i hm

theorem length_le_queued {D : Drain} (h : ∀ p ∈ D.queue, p ≠ []) : D.queue.length ≤ D.queued := by
  have hone : ∀ n ∈ D.queue.map List.length, 1 ≤ n := by
    intro n hn
    obtain ⟨p, hp, rfl⟩ := List.mem_map.mp hn
    exact List.length_pos_iff.mpr (h p hp)
  simpa [Drain.queued] using List.length_le_sum_of_one_le _ hone

/-- The runs in which the connector sends no `Data` without a byte in it. -/
def withBytes (chunk : Nat) : LTS ConnectorManager Event :=
  (lts chunk).restrict fun _ e _ => ∀ i, e ≠ .input (.data i [])

theorem filled_of_reachable (h : (withBytes chunk).Reachable s) : Filled s := by
  refine h.invariant ?_ fun s e s' ih hs => filled_step ih hs.1 hs.2
  rintro s rfl
  exact ⟨by simp [backlog], by simp⟩

/-- As long as there is a byte in each payload, a stream has no more of them queued than fit into
its window. -/
theorem backlog_bounded (h : (withBytes chunk).Reachable s) (t : Nat) :
    (s.backlog t).length ≤ streamRecvWindow := by
  have hlen := length_le_queued ((filled_of_reachable h).queued t)
  have hbytes := (windowed_of_reachable h.of_restrict t).bounded
  unfold Drain.held at hbytes
  unfold backlog
  omega

/-- A payload that fits into the window comes to stand in the queue. -/
theorem push_run (chunk : Nat) (p : Bytes) (hs : s.streamOf i = some t) (hr : s.reading = none)
    (hp : (s.tunnels t).phase ≠ .ended)
    (hw : (s.tunnels t).outstanding + p.length ≤ streamRecvWindow) :
    ∃ s', (lts chunk).MTr s [.input (.data i p), .deliver] s' ∧ s'.streamOf i = some t ∧
      s'.reading = none ∧ s'.tunnels t = ((s.tunnels t).addOutstanding p.length).enqueue p := by
  have h1 : Step chunk s (.input (.data i p)) _ := .recv hr
  rw [handleMessage, handleData_within hs hw] at h1
  have h2 : Step chunk { s.setTunnel t ((s.tunnels t).addOutstanding p.length) with
      reading := some (i, t, p) } .deliver _ := .deliver rfl
  rw [deliver_live (by simpa using hp)] at h2
  exact ⟨_, .stepL h1 (.stepL h2 .refl), hs, rfl, by simp⟩

theorem backlog_bounded_queued : ∃ s : ConnectorManager,
    (withBytes tunnelReadChunk).Reachable s ∧ s.backlog 0 = [[7]] ∧
      (s.backlog 0).length ≤ streamRecvWindow := by
  obtain ⟨s, hrun, hl⟩ := lone_run tunnelReadChunk "http://localhost:80"
  obtain ⟨s', hrun', -, -, hT⟩ := push_run tunnelReadChunk [7] (s := s) (t := 0) (i := 1)
    (by simp [hl.streamOf]) hl.idle.1 (by simp [hl.tunnel]) (by simp [hl.tunnel]; decide)
  have hreach : (withBytes tunnelReadChunk).Reachable s' :=
    LTS.Reachable.trans (.init rfl) ((hrun.trans hrun').restrict (by simp))
  exact ⟨s', hreach, by simp [backlog, hT, hl.tunnel, Tunnel.enqueue], backlog_bounded hreach 0⟩

/-- The client of a stream has stopped reading, and `n` payloads wait. -/
structure Stalled (n : Nat) (s : ConnectorManager) : Prop where
  streamOf : s.streamOf 1 = some 0
  reading : s.reading = none
  phase : (s.tunnels 0).phase = .splice
  writing : (s.tunnels 0).download.pc = .write [7] 1
  outstanding : (s.tunnels 0).outstanding = 1
  backlog : s.backlog 0 = List.replicate n []

theorem stalled_reachable (chunk n : Nat) : ∃ s, (lts chunk).Reachable s ∧ Stalled n s := by
  induction n with
  | zero =>
    obtain ⟨s, hr, hq⟩ := queued_reachable chunk [7] (by decide)
    have hT := hq.tunnel
    have h1 := hr.step (Step.tunnel (t := 0) (.download (by simp [hT])
      (.recv (p := [7]) (q := []) (by simp [hT]) (by simp [hT])) (by simp)))
    exact ⟨_, h1, hq.streamOf 1, by simpa using hq.reading, by simp [hT], by simp, by simp [hT],
      by simp [ConnectorManager.backlog]⟩
  | succ n ih =>
    obtain ⟨s, hr, h⟩ := ih
    obtain ⟨s', hrun, hs, hrd, hT⟩ := push_run chunk [] h.streamOf h.reading (by simp [h.phase])
      (by simp [h.outstanding]; decide)
    have hb := h.backlog
    refine ⟨s', hr.trans hrun, hs, hrd, ?_, ?_, ?_, ?_⟩
    · simp [hT, h.phase]
    · simp [hT, Tunnel.enqueue, h.writing]
    · simp [hT, h.outstanding]
    · unfold ConnectorManager.backlog at hb ⊢
      simp [hT, Tunnel.enqueue, hb, List.replicate_succ']

/-- Against a client that does not read, any number of empty payloads can be queued. -/
theorem backlog_unbounded :
    Message.decode [16, 0, 0, 0, 1, 0, 0, 0, 0] = .ok (.data 1 []) ∧
      ∀ n, ∃ s, (lts tunnelReadChunk).Reachable s ∧
        (s.tunnels 0).download.pc = .write [7] 1 ∧ (s.backlog 0).length = n := by
  refine ⟨by decide, fun n => ?_⟩
  obtain ⟨s, hr, h⟩ := stalled_reachable tunnelReadChunk n
  exact ⟨s, hr, h.writing, by rw [h.backlog, List.length_replicate]⟩

end ConnectorManager

end X2rp.Wss
