import X2rp.Wss.Lifecycle
import X2rp.Wss.Removal
import X2rp.Wss.Streams

/-! The two ends of a session agree on which streams are open, whenever it is at rest. -/
namespace X2rp.Wss.Mux

open Proto

variable {s s' : Mux} {chunk : Nat} {t : Nat} {i : UInt32}

/-- No message is queued or in flight, and no task of either end has a send or a removal to
make. -/
structure Quiescent (s : Mux) : Prop where
  up : s.up = []
  down : s.down = []
  reading : s.server.reading = none
  releasing : s.server.releasing = []
  failing : s.server.failing = []
  spawned : s.server.spawned = []
  refusals : s.connector.refusals = []
  tunnels : ∀ t < s.server.started, ¬ (s.server.tunnels t).due
  tasks : ∀ i, ∀ H ∈ s.connector.tasks i, ¬ H.due

theorem Quiescent.stream (h : Quiescent s) (ht : t < s.server.started) : (s.stream t).Quiescent where
  up := by simp [Mux.stream, h.up]
  down := by simp [Mux.stream, h.down]
  refusals := by simp [Mux.stream, SessionManager.endOf, h.refusals]
  tunnel := h.tunnels t ht
  tasks := h.tasks _

theorem late_lt_started (h : Coherent s) (he : (s.server.tunnels t).phase.early = false) :
    t < s.server.started :=
  (h.keyed.windowed t).lt_started (ConnectorManager.ne_fetchId he)

/-- Lifecycle agreement. In a quiescent state the server's map holds exactly the streams whose
backend task still runs, and each of them holds one slot. -/
theorem lifecycle_agreement (h : (lts chunk).Reachable s) (hw : s.server.started < 2 ^ 32)
    (hq : Quiescent s) :
    (∀ i, i ∈ s.server.streams ↔ ∃ H ∈ s.connector.tasks i, H.running = true) ∧
      s.server.activeStreams = s.server.streams.keys.card := by
  obtain ⟨hc, hstream⟩ := stream_reachable h hw
  have hiff : ∀ t, (s.server.tunnels t).phase.early = false →
      (s.server.streamOf (s.server.tunnels t).id = some t ↔
        ∃ H ∈ s.connector.tasks (s.server.tunnels t).id, H.running = true) := by
    intro t he
    simpa [Mux.stream, ConnectorManager.endOf, SessionManager.endOf] using
      Stream.registered_iff_running (hstream t he) (hq.stream (late_lt_started hc he))
  refine ⟨fun i => ⟨?_, ?_⟩, ?_⟩
  · intro hi
    obtain ⟨t, ht⟩ := Finmap.mem_iff.mp hi
    obtain ⟨rfl, he, -⟩ := (hc.keyed.windowed t).listed i ht
    exact (hiff t he).mp ht
  · rintro ⟨H, hH, hrun⟩
    rcases hc.owned i with ⟨u, rfl, he⟩ | hsilent
    · exact Finmap.mem_iff.mpr ⟨u, (hiff u he).mpr ⟨H, hH, hrun⟩⟩
    · have : s.connector.tasks i = [] := congrArg ConnectorEnd.handlers hsilent.connector
      simp [this] at hH
  · have hr : s.server.reserved = ∅ := by
      refine Finset.filter_eq_empty_iff.mpr fun t ht he => hq.tunnels t (Finset.mem_range.mp ht) ?_
      cases hp : (s.server.tunnels t).phase <;> simp_all [Tunnel.due, Phase.early]
    rw [hc.keyed.tracked.activeStreams_eq, hr, hq.releasing]
    simp

/-- The manager's own steps are steps of the session, under any condition on what is sent. -/
theorem serverTasks {C : Mux → Unit → Mux → Prop} {M M' : ConnectorManager} {n : Nat}
    (hC : ∀ s₁ s₂ : Mux, s₂.up = s₁.up → C s₁ () s₂)
    (h : (ConnectorManager.lts chunk).MTr M (List.replicate n .internal) M') (hs : s.server = M) :
    ((lts chunk).restrict C).MTr s (List.replicate n ()) { s with server := M' } := by
  induction n generalizing s M with
  | zero =>
    cases h
    subst hs
    exact .refl
  | succ n ih =>
    rw [List.replicate_succ] at h ⊢
    cases h with
    | stepL hstep hrest =>
      subst hs
      exact .stepL ⟨.serverTask hstep, hC _ _ rfl⟩ (ih (s := { s with server := _ }) hrest rfl)

/-- One tunnel, its connect answered, and the session at rest. -/
structure Spliced (target : String) (s : Mux) : Prop where
  started : s.server.started = 1
  tunnel : s.server.tunnels 0 =
    { target := target, id := 1, phase := .splice, answer := some .ok }
  next : s.server.nextStreamId = 2 ∧ s.server.activeStreams = 1
  streamOf : ∀ i, s.server.streamOf i = if i = 1 then some 0 else none
  waiterOf : ∀ i, s.server.waiterOf i = none
  linkOpen : s.server.linkOpen = true
  idle : s.server.reading = none ∧ s.server.releasing = [] ∧ s.server.failing = [] ∧
    s.server.spawned = []
  streams : s.connector.streams = {1}
  tasks : ∀ i, s.connector.tasks i = if i = 1 then [{ target := target, pc := .splice }] else []
  refusals : s.connector.refusals = []
  channels : s.up = [] ∧ s.down = []

/-- What the connector does with a first `Connect` whose backend comes up at once. -/
theorem connector_splice (chunk : Nat) (target : String) : ∃ C₁ C₂ C₃ : SessionManager,
    SessionManager.Step chunk {} (.input (.connect 1 target)) C₁ ∧
    SessionManager.Step chunk C₁ .internal C₂ ∧
    SessionManager.Step chunk C₂ (.output (.connectOk 1)) C₃ ∧
    C₃.streams = {1} ∧ C₃.refusals = [] ∧
    ∀ i, C₃.tasks i = if i = 1 then [{ target := target, pc := .splice }] else [] := by
  have h1 : SessionManager.Step chunk {} (.input (.connect 1 target))
      { SessionManager.setTasks {} 1 [{ target := target }] with streams := {1} } := by
    have : ({} : SessionManager).handleMessage (.connect 1 target) =
        { SessionManager.setTasks {} 1 [{ target := target }] with streams := {1} } := by
      simp [SessionManager.handleMessage, SessionManager.handleConnect,
        SessionManager.retainUnfinished, SessionManager.remove, maxActiveStreams]
    exact this ▸ .recv
  refine ⟨_, _, _, h1, .handler (show _ = [] ++ { target := target } :: [] by simp; rfl)
    (.backendUp rfl rfl rfl), .handlerSend (b := .connectOk)
    (show _ = [] ++ { target := target, pc := .sendOk } :: [] by simp) (.okSent rfl), rfl, rfl, ?_⟩
  intro i
  by_cases hi : i = 1 <;> simp [hi, SessionManager.setTasks]

/-- What the server does with a lone tunnel whose connect succeeds. -/
theorem server_splice {M : ConnectorManager} {target : String} (chunk : Nat)
    (hl : ConnectorManager.Lone target M) : ∃ M₁ M₂ M₃ : ConnectorManager,
    ConnectorManager.Step chunk M (.output (.connect 1 target)) M₁ ∧
    ConnectorManager.Step chunk M₁ (.input (.connectOk 1)) M₂ ∧
    ConnectorManager.Step chunk M₂ .internal M₃ ∧
    M₃.started = 1 ∧
    M₃.tunnels 0 = { target := target, id := 1, phase := .splice, answer := some .ok } ∧
    (M₃.nextStreamId = 2 ∧ M₃.activeStreams = 1) ∧
    (∀ i, M₃.streamOf i = if i = 1 then some 0 else none) ∧ (∀ i, M₃.waiterOf i = none) ∧
    M₃.linkOpen = true ∧ M₃.reading = none ∧ M₃.releasing = [] ∧ M₃.failing = [] ∧ M₃.spawned = [] := by
  obtain ⟨hst, hnext, hact, hT, hs, hw, hlink, hrd, hrel, hfail, hsp⟩ := hl
  have h1 : ConnectorManager.Step chunk M (.output (.connect 1 target))
      (M.setTunnel 0 { target := target, id := 1, phase := .awaitConnect }) := by
    have hs : Tunnel.Step chunk (M.tunnels 0) _ _ := .connectSent (by rw [hT])
    simpa [hT, Body.message] using ConnectorManager.Step.tunnelSend hs hlink
  refine ⟨_, _, _, h1, .recv (by simpa using hrd), .tunnel (t := 0) (.connected
    (by simp [ConnectorManager.handleMessage, ConnectorManager.answerPending_tunnels, hw])
    (by simp [ConnectorManager.handleMessage, ConnectorManager.answerPending_tunnels, hw])), ?_⟩
  simp [ConnectorManager.handleMessage, ConnectorManager.answerPending_tunnels,
    ConnectorManager.answerPending_waiterOf, hw, hst, hnext, hact, hs, hlink, hrd, hrel, hfail, hsp,
    Tunnel.answered]

theorem spliced_reachable (chunk : Nat) (target : String) :
    ∃ s, (lts chunk).Reachable s ∧ Spliced target s := by
  obtain ⟨M, hM, hl⟩ := ConnectorManager.lone_run chunk target
  obtain ⟨M₁, M₂, M₃, hs1, hs2, hs3, hst, hT, hnext, hs, hw, hlink, hidle⟩ := server_splice chunk hl
  obtain ⟨C₁, C₂, C₃, hc1, hc2, hc3, hstreams, href, htasks⟩ := connector_splice chunk target
  have h0 : (lts chunk).Reachable { server := M } :=
    LTS.Reachable.trans (.init rfl)
      (serverTasks (s := {}) (C := fun _ _ _ => True) (fun _ _ _ => trivial) hM rfl).of_restrict
  have h1 := h0.step (.serverSend hs1)
  have h2 := h1.step (.connectorRecv rfl hc1)
  have h3 := h2.step (.connectorTask hc2)
  have h4 := h3.step (.connectorSend hc3)
  have h5 := h4.step (.serverRecv rfl hs2)
  have h6 := h5.step (.serverTask hs3)
  exact ⟨_, h6, hst, hT, hnext, hs, hw, hlink, hidle, hstreams, htasks, href, rfl, rfl⟩

/-- A tunnel that has just been spliced, and one that has come and gone beside it. -/
theorem quiescent_of_passed {target : String} {M : ConnectorManager} (h : Spliced target s)
    (hp : ConnectorManager.Passed s.server M) : Quiescent { s with server := M } where
  up := h.channels.1
  down := h.channels.2
  reading := hp.idle.1.trans h.idle.1
  releasing := hp.idle.2.1.trans h.idle.2.1
  failing := hp.idle.2.2.1.trans h.idle.2.2.1
  spawned := hp.idle.2.2.2.trans h.idle.2.2.2
  refusals := h.refusals
  tunnels t ht := by
    have hlt : t < 2 := by
      rw [← show M.started = 2 by rw [hp.started, h.started]]
      exact ht
    have hone := h.started
    rcases (by omega : t = 0 ∨ t = 1) with rfl | rfl
    · obtain ⟨hphase, -, hdown, hup⟩ := hp.task 0 (by omega)
      rw [h.tunnel] at hphase hdown hup
      simp [Tunnel.due, hphase, hdown, hup]
    · have hended := hp.ended
      rw [hone] at hended
      simp [Tunnel.due, hended]
  tasks i H hH := by
    rw [h.tasks i] at hH
    split at hH
    · obtain rfl := List.mem_singleton.mp hH
      simp [Handler.due]
    · simp at hH

/-- One tunnel stands, and another one has ended and given its slot back. -/
theorem lifecycle_agreement_passed : ∃ s : Mux, (lts tunnelReadChunk).Reachable s ∧
    s.server.started < 2 ^ 32 ∧ Quiescent s ∧ s.server.streamOf 1 = some 0 ∧
    (s.server.tunnels 1).phase = .ended ∧ s.server.released 1 = 1 ∧
    (∀ i, i ∈ s.server.streams ↔ ∃ H ∈ s.connector.tasks i, H.running = true) ∧
    s.server.activeStreams = 1 ∧ s.server.activeStreams = s.server.streams.keys.card := by
  obtain ⟨s, hr, hs⟩ := spliced_reachable tunnelReadChunk "http://localhost:80"
  obtain ⟨M, hM, hp⟩ := ConnectorManager.pass_run (s := s.server) tunnelReadChunk
    (by rw [hs.next.2]; decide) (by rw [hs.streamOf, hs.next.1]; rfl) (hs.waiterOf _)
  have hr' : (lts tunnelReadChunk).Reachable { s with server := M } :=
    LTS.Reachable.trans hr
      (serverTasks (C := fun _ _ _ => True) (fun _ _ _ => trivial) hM rfl).of_restrict
  have hst : M.started = 2 := by rw [hp.started, hs.started]
  have hw : M.started < 2 ^ 32 := by
    rw [hst]
    decide
  have hended := hp.ended
  rw [hs.started] at hended
  have hreleased : M.released 1 = 1 := by
    have hq := quiescent_of_passed hs hp
    have hone := ConnectorManager.released_of_ended (server_reachable hr') hw
      (show 1 < M.started by omega) hended
    rwa [show M.releasing = [] from hq.releasing, List.count_nil, Nat.add_zero] at hone
  obtain ⟨hagree, hcount⟩ := lifecycle_agreement hr' hw (quiescent_of_passed hs hp)
  exact ⟨_, hr', hw, quiescent_of_passed hs hp, (hp.streamOf 1).trans (by simp [hs.streamOf]), hended,
    hreleased, hagree, hp.active.trans hs.next.2, hcount⟩

end X2rp.Wss.Mux
