import X2rp.Wss.Integrity
import X2rp.Wss.Shutdown

/-! How a response ends at the client, in sessions that may be shut down or lost at any time. -/
namespace X2rp.Wss

open Proto

namespace Handler

variable {H H' : Handler} {a : Act} {chunk : Nat}

/-- A response that is being told to be over has ended. -/
def Ended (H : Handler) : Prop :=
  H.download.pc = .sendClose ∨ H.download.closeSent = true → H.download.ending ≠ none

theorem Ended.step (h : Ended H) (hs : Step chunk H a H') : Ended H' := by
  cases hs with
  | download hp hs =>
    intro hc
    cases hs with
    | sendClose hp => exact h (.inl hp)
    | _ => exact h (.inr (by simpa using hc))
  | readEnd hp hd => exact fun _ => nofun
  | _ => exact h

end Handler

namespace Entry

variable {E : Entry} {chunk : Nat} {ins outs : List Body} {Q : ConnectorEnd → Prop}

theorem Taken.ended {E' : Entry} {b : Body} (h : Taken E b E') (he : E.task.Ended) :
    E'.task.Ended := by
  cases h <;> exact he

theorem ended_of_run (h : Run chunk Q ins outs E) : E.task.Ended := by
  induction h with
  | init h =>
    obtain ⟨target, rfl⟩ := h
    exact fun hc => by simp at hc
  | internal _ ht ih =>
    cases ht.1 with
    | task hs => exact ih.step hs
    | retire => exact ih
  | output _ ht ih =>
    cases ht.1 with
    | taskSend hs => exact ih.step hs
  | input _ ht ih =>
    cases ht.1 with
    | recv => exact (taken ..).ended ih

end Entry

namespace Stream

variable {s : Stream} {chunk : Nat} {H : Handler}

/-- The splice has a backend task at its other end. -/
theorem task_of_splice (h : (lts chunk).Reachable s) (hp : s.server.tunnel.phase = .splice) :
    ∃ H, H ∈ s.connector.handlers := by
  obtain ⟨sIns, sOuts, cIns, cOuts, hruns⟩ := calm_runs h
  have hcourse := hruns.course
  have hok : Body.connectOk ∈ cOuts := by
    by_contra hno
    have hin : Body.connectOk ∉ sIns := by
      intro hm
      have hm' : Body.connectOk ∈ cOuts.map Body.truncated :=
        hruns.down ▸ List.mem_append_left _ hm
      exact hno ((mem_map_truncated rfl).mp hm')
    exact (ServerEnd.unanswered_of_run hruns.server hin).splice hp
  generalize s.connector = C at hcourse
  cases hcourse with
  | idle => simp at hok
  | refused _ ho => rcases ho with ⟨-, rfl⟩ | ⟨-, rfl⟩ <;> simp at hok
  | @entry before ins outs E hb hr => exact ⟨E.task, List.mem_singleton_self _⟩

/-- A response that comes to its end at a client that has not failed has come to its end at the
backend, and is complete. -/
theorem response_ended (h : (lts chunk).Reachable s) (hH : H ∈ s.connector.handlers)
    (hf : s.server.tunnel.download.finished)
    (he : s.server.tunnel.upload.ending ≠ some .error) :
    H.download.ending ≠ none ∧ s.server.tunnel.download.sink = H.download.source := by
  obtain ⟨hclose, hsink⟩ := download_closed h hH hf he
  obtain ⟨sIns, ins, outs, E, rfl, hE, -, -⟩ := entry_runs h hH
  exact ⟨Entry.ended_of_run hE (.inr hclose), hsink⟩

end Stream

/-- A session with the calls of its manager's `shutdown`; `lost` says that the connection is gone,
and nothing gets through any more. -/
structure SessionRun where
  mux : Mux := {}
  calls : Nat → ShutdownPc := fun _ => .absent
  lost : Bool := false

namespace SessionRun

variable {s s' : SessionRun} {chunk t : Nat}

/-- The connector's end of a session that is over: every entry is dropped. -/
def dropStreams (C : SessionManager) : SessionManager :=
  { C with
    streams := ∅
    tasks := fun id => if id ∈ C.streams then (C.tasks id).modifyHead Handler.abort else C.tasks id }

/-- The two ends while they are connected, each for itself after that, and the shutdown at any
time. -/
inductive Step (chunk : Nat) : SessionRun → Unit → SessionRun → Prop
  | mux {s : SessionRun} {m : Mux} (hl : s.lost = false) (h : Mux.Step chunk s.mux () m) :
      Step chunk s () { s with mux := m }
  | shutdown {s : SessionRun} {k : Nat} {M : ConnectorManager} {pc : ShutdownPc}
      (h : ShutdownPc.Step s.mux.server (s.calls k) M pc) :
      Step chunk s ()
        { s with mux := { s.mux with server := M }, calls := Function.update s.calls k pc }
  | lose {s : SessionRun} : Step chunk s () { s with lost := true }
  -- What a task still sends goes into a channel that nobody empties, until that is dropped too.
  | server {s : SessionRun} {e : Event} {M : ConnectorManager} (hl : s.lost = true)
      (he : ∀ m, e ≠ .input m) (h : ConnectorManager.Step chunk s.mux.server e M) :
      Step chunk s () { s with mux := { s.mux with server := M } }
  | connector {s : SessionRun} {e : Event} {C : SessionManager} (hl : s.lost = true)
      (he : ∀ m, e ≠ .input m) (h : SessionManager.Step chunk s.mux.connector e C) :
      Step chunk s () { s with mux := { s.mux with connector := C } }
  | connectorSendFailed {s : SessionRun} {id : UInt32} {newer older : List Handler}
      {H H' : Handler} (hl : s.lost = true) (ht : s.mux.connector.tasks id = newer ++ H :: older)
      (h : Handler.Step chunk H .sendFailed H') :
      Step chunk s () { s with mux := { s.mux with
        connector := s.mux.connector.setTasks id (newer ++ H' :: older) } }
  | connectorDropped {s : SessionRun} (hl : s.lost = true) :
      Step chunk s () { s with mux := { s.mux with connector := dropStreams s.mux.connector } }

def lts (chunk : Nat) : LTS SessionRun Unit := ⟨fun s => s = {}, Step chunk⟩

/-- The session has been shut down or lost. -/
def Over (s : SessionRun) : Prop := s.lost = true ∨ ∃ k, s.calls k ≠ .absent

/-- Until then the session is a run of the two ends. -/
theorem mux_step (h : Step chunk s () s') (ho : ¬ s'.Over) :
    ¬ s.Over ∧ Mux.Step chunk s.mux () s'.mux := by
  simp only [Over, not_or, not_exists, not_not, Bool.not_eq_true] at ho ⊢
  obtain ⟨hl, hc⟩ := ho
  cases h with
  | mux hl' h => exact ⟨⟨hl, hc⟩, h⟩
  | @shutdown k M pc h =>
    have hk : pc = .absent := by simpa using hc k
    exact absurd hk h.called
  | lose => cases hl
  | server hl' => simp [hl'] at hl
  | connector hl' => simp [hl'] at hl
  | connectorSendFailed hl' => simp [hl'] at hl
  | connectorDropped hl' => simp [hl'] at hl

theorem mux_reachable (h : (lts chunk).Reachable s) (ho : ¬ s.Over) :
    (Mux.lts chunk).Reachable s.mux := by
  induction h with
  | init h =>
    cases h
    exact .init rfl
  | step _ hs ih =>
    obtain ⟨ho', hm⟩ := mux_step hs ho
    exact (ih ho').step hm

/-- The tunnel shuts down its client's write side, after a download without a write failure. -/
inductive CleanEnd (chunk : Nat) (T T' : Tunnel) : Prop
  | step (hp : T.phase = .splice) (h : Tunnel.Step chunk T .tau T') (hp' : T'.phase = .finish)

theorem CleanEnd.finished {T T' : Tunnel} (h : CleanEnd chunk T T') : T.download.finished := by
  obtain ⟨hp, h, hp'⟩ := h
  cases h with
  | shutdownClean _ hd hf => exact ⟨.inl hd, hf⟩
  | _ => simp_all

/-- The tunnel's task at the connector. -/
def Serves (s : SessionRun) (t : Nat) (H : Handler) : Prop :=
  H ∈ s.mux.connector.tasks (s.mux.server.tunnels t).id

/-- A clean end at the client is the end of the response and comes after all of it, unless the session
is over or the client has failed in reading. Whether the backend closed or failed in reading cannot be
told at the client. -/
theorem clean_end_complete {T : Tunnel} (h : (lts chunk).Reachable s)
    (hw : s.mux.server.started < 2 ^ 32) (hc : CleanEnd chunk (s.mux.server.tunnels t) T)
    (ho : ¬ s.Over) (hr : (s.mux.server.tunnels t).upload.ending ≠ some .error) :
    ∃ H, s.Serves t H ∧ H.target = (s.mux.server.tunnels t).target ∧
      (H.download.ending = some .eof ∨ H.download.ending = some .error) ∧
      (s.mux.server.tunnels t).download.sink = H.download.source := by
  have hp : (s.mux.server.tunnels t).phase = .splice := by
    cases hc with
    | step hp => exact hp
  obtain ⟨-, hstream⟩ := Mux.stream_reachable (mux_reachable h ho) hw
  have hreach := hstream t (by simp [hp, Phase.early])
  obtain ⟨H, hH⟩ := Stream.task_of_splice hreach hp
  obtain ⟨hend, hsink⟩ := Stream.response_ended hreach hH hc.finished hr
  refine ⟨H, hH, (Stream.bytes_in_order hreach hH).1, ?_, hsink⟩
  cases he : H.download.ending with
  | none => exact absurd he hend
  | some e => cases e <;> simp

theorem of_mux {m : Mux} (h : (Mux.lts chunk).Reachable m) : (lts chunk).Reachable { mux := m } := by
  induction h with
  | init h =>
    cases h
    exact .init rfl
  | step _ hs ih => exact ih.step (.mux rfl hs)

theorem not_over {m : Mux} : ¬ Over { mux := m } := by simp [Over]

section Runs

variable {M : ConnectorManager} {target : String}

/-- A tunnel whose queue is closed and empty comes to a clean end. -/
theorem server_starve (chunk : Nat) (hs : M.streamOf (M.tunnels 0).id = none) (hr : M.reading = none)
    (hp : (M.tunnels 0).phase = .splice) (hd : (M.tunnels 0).download.pc = .recv)
    (hq : (M.tunnels 0).download.queue = []) (hf : (M.tunnels 0).download.failed = none) :
    ∃ M' : ConnectorManager, ConnectorManager.Step chunk M .internal M' ∧
      M'.started = M.started ∧ (M'.tunnels 0).id = (M.tunnels 0).id ∧
      (M'.tunnels 0).download.sink = (M.tunnels 0).download.sink ∧
      (M'.tunnels 0).upload = (M.tunnels 0).upload ∧ ∃ T, CleanEnd chunk (M'.tunnels 0) T := by
  refine ⟨_, .tunnelStarved (t := 0) (.download hp (.recvNone hd hq) (by simp)) (by simp [hs])
    (by simp [hr]), rfl, by simp, by simp, by simp, ?_⟩
  have hp' : ∀ {d : Drain}, { M.tunnels 0 with download := d }.phase = .splice := hp
  rw [ConnectorManager.setTunnel_tunnels, if_pos rfl]
  exact ⟨_, hp', .shutdownClean hp' rfl hf, rfl⟩

/-- The backend's end of the stream ends it at the server. -/
theorem server_closed (chunk : Nat) (hs : M.streamOf 1 = some 0) (hr : M.reading = none)
    (hid : (M.tunnels 0).id = 1) : ∃ M' : ConnectorManager,
      ConnectorManager.Step chunk M (.input (.close 1)) M' ∧ M'.started = M.started ∧
      M'.streamOf (M'.tunnels 0).id = none ∧ M'.reading = none ∧
      M'.tunnels 0 = (M.tunnels 0).closeCredit := by
  have h : ConnectorManager.Step chunk M (.input (.close 1)) (M.removeStream 1) := .recv hr
  refine ⟨_, h, ?_⟩
  simp [ConnectorManager.removeStream_streamOf, ConnectorManager.removeStream_tunnels, hs, hr, hid]

/-- A call of `shutdown` from beginning to end. -/
theorem shutdown_run {k : Nat} (h : (lts chunk).Reachable s) (hk : s.calls k = .absent) :
    (lts chunk).Reachable
      { s with
        mux := { s.mux with server := s.mux.server.drainPending.drainStreams.resetSlots }
        calls := Function.update s.calls k .returned } := by
  have hstep : ∀ {s : SessionRun} {pc pc' : ShutdownPc} {M : ConnectorManager},
      (lts chunk).Reachable s → s.calls k = pc → ShutdownPc.Step s.mux.server pc M pc' →
      (lts chunk).Reachable
        { s with mux := { s.mux with server := M }, calls := Function.update s.calls k pc' } := by
    rintro s _ pc' M hr rfl hs
    exact hr.step (.shutdown hs)
  have h₁ := hstep h hk .call
  have h₂ := hstep h₁ (Function.update_self ..) .drainPending
  have h₃ := hstep h₂ (Function.update_self ..) .drainStreams
  have h₄ := hstep h₃ (Function.update_self ..) .resetSlots
  simpa only [Function.update_idem] using h₄

theorem shutdown_tunnel {t : Nat} : ∃ T : Tunnel,
    M.drainPending.drainStreams.resetSlots.tunnels t = T ∧ T.id = (M.tunnels t).id ∧
      T.phase = (M.tunnels t).phase ∧ T.download = (M.tunnels t).download ∧
      T.upload.ending = (M.tunnels t).upload.ending := by
  have hp : M.drainPending.tunnels t = M.tunnels t ∨
      M.drainPending.tunnels t = (M.tunnels t).answered (.err "connector disconnected") :=
    (ite_eq_or_eq ..).symm
  have hs : M.drainPending.drainStreams.tunnels t = M.drainPending.tunnels t ∨
      M.drainPending.drainStreams.tunnels t = (M.drainPending.tunnels t).closeCredit :=
    (ite_eq_or_eq ..).symm
  refine ⟨_, rfl, ?_⟩
  change (M.drainPending.drainStreams.tunnels t).id = _ ∧
    (M.drainPending.drainStreams.tunnels t).phase = _ ∧
    (M.drainPending.drainStreams.tunnels t).download = _ ∧
    (M.drainPending.drainStreams.tunnels t).upload.ending = _
  rcases hs with hs | hs <;> rcases hp with hp | hp <;> simp [hs, hp, Tunnel.closeCredit]

/-- The backend sends, and the connector has read it. -/
theorem connector_read {C : SessionManager} {p : Bytes} (h0 : p ≠ []) (hp : p.length ≤ chunk)
    (ht : C.tasks 1 = [{ target := target, pc := .splice }]) : ∃ C' : SessionManager,
      SessionManager.Step chunk C .internal C' ∧
      ∃ H, C'.tasks 1 = [H] ∧ H.download.source = p ∧ H.download.ending = none := by
  exact ⟨_, Mux.connector_task ht (.download rfl (.readData rfl h0 hp)), _,
    SessionManager.setTasks_self, rfl, rfl⟩

/-- The backend fails, and the connector tells that the stream is over. -/
theorem connector_fail (chunk : Nat) {C : SessionManager}
    (ht : C.tasks 1 = [{ target := target, pc := .splice }]) : ∃ C₁ C₂ : SessionManager,
      SessionManager.Step chunk C .internal C₁ ∧
      SessionManager.Step chunk C₁ (.output (.close 1)) C₂ ∧
      ∃ H, C₂.tasks 1 = [H] ∧ H.download.ending = some .error := by
  have hset := @SessionManager.setTasks_self
  exact ⟨_, _, Mux.connector_task ht (.readEnd (e := .error) rfl rfl),
    Mux.connector_taskSend hset (.download rfl (.sendClose rfl)), _, hset, rfl⟩

/-- The client has been told of a clean end before all that was read from the backend has come. -/
def CutShort (chunk : Nat) (s : SessionRun) : Prop :=
  (∃ T, CleanEnd chunk (s.mux.server.tunnels 0) T) ∧ ∃ H, s.Serves 0 H ∧
    H.download.ending = none ∧ (s.mux.server.tunnels 0).download.sink ≠ H.download.source

/-- The session is shut down while the backend's bytes are on their way. -/
theorem shutdown_cut (hc : 0 < chunk) : ∃ s : SessionRun, (lts chunk).Reachable s ∧
    s.lost = false ∧ s.mux.server.started < 2 ^ 32 ∧
    (s.mux.server.tunnels 0).upload.ending = none ∧ s.CutShort chunk := by
  obtain ⟨⟨M, C, up, down⟩, hr, hs⟩ := Mux.spliced_reachable chunk "http://localhost:80"
  obtain ⟨C', hc1, H, hH, hsrc, hend⟩ := connector_read (p := [7]) (by simp) hc (hs.tasks 1)
  have h1 := shutdown_run (k := 0) (of_mux (hr.step (.connectorTask hc1))) rfl
  obtain ⟨T, hT, hid, hp, hd, hu⟩ := shutdown_tunnel (M := M) (t := 0)
  rw [show M.tunnels 0 = _ from hs.tunnel] at hid hp hd hu
  obtain ⟨M', hm, hst, hid', hsink, hup, hclean⟩ :=
    server_starve chunk (M := M.drainPending.drainStreams.resetSlots) rfl hs.idle.1 (hT ▸ hp)
      (by rw [hT, hd]) (by rw [hT, hd]) (by rw [hT, hd])
  have hone : M'.started = 1 := hst.trans hs.started
  rw [hT, hid] at hid'
  rw [hT, hd] at hsink
  refine ⟨_, h1.step (.mux rfl (.serverTask hm)), rfl, by simp [hone], ?_, hclean, H, ?_, hend, ?_⟩
  · simpa [hup, hT] using hu
  · simp [Serves, hid', hH]
  · simp [hsink, hsrc]

/-- The client fails in reading while the backend's bytes are on their way. -/
theorem abandoned_cut (hc : 0 < chunk) : ∃ s : SessionRun, (lts chunk).Reachable s ∧
    ¬ s.Over ∧ s.mux.server.started < 2 ^ 32 ∧ s.CutShort chunk := by
  obtain ⟨⟨M, C, up, down⟩, hr, hs⟩ := Mux.spliced_reachable chunk "http://localhost:80"
  obtain ⟨C', hc1, H, hH, hsrc, hend⟩ := connector_read (p := [7]) (by simp) hc (hs.tasks 1)
  obtain ⟨M₁, M₂, M₃, hm1, hm2, hm3, hst, hgone, hread, hid, hph, hdl⟩ :=
    Mux.server_abandon hs.tunnel hs.streamOf hs.linkOpen hs.idle.1
  obtain ⟨M₄, hm4, hst', hid', hsink, -, hclean⟩ :=
    server_starve chunk (hid.symm ▸ hgone) hread hph (by rw [hdl]) (by rw [hdl]) (by rw [hdl])
  have hone : M₄.started = 1 := hst'.trans (hst.trans hs.started)
  have h1 := (hr.step (.connectorTask hc1)).step (.serverTask hm1)
  have h3 := (h1.step (.serverSend hm2)).step (.serverTask hm3)
  refine ⟨_, of_mux (h3.step (.serverTask hm4)), not_over, by simp [hone], hclean, H, ?_, hend, ?_⟩
  · simp [Serves, hid', hid, hH]
  · simp [hsink, hdl, hsrc]

/-- The backend fails in the middle of its response. -/
theorem failed_cut (chunk : Nat) : ∃ s : SessionRun, (lts chunk).Reachable s ∧
    ¬ s.Over ∧ s.mux.server.started < 2 ^ 32 ∧
    (s.mux.server.tunnels 0).upload.ending = none ∧
    (∃ T, CleanEnd chunk (s.mux.server.tunnels 0) T) ∧
    ∃ H, s.Serves 0 H ∧ H.download.ending = some .error := by
  obtain ⟨⟨M, C, up, down⟩, hr, hs⟩ := Mux.spliced_reachable chunk "http://localhost:80"
  obtain ⟨rfl, rfl⟩ : up = [] ∧ down = [] := hs.channels
  obtain ⟨C₁, C₂, hc1, hc2, H, hH, hend⟩ := connector_fail chunk (hs.tasks 1)
  have hT : M.tunnels 0 = _ := hs.tunnel
  obtain ⟨M₁, hm1, hst, hgone, hread, hT₁⟩ :=
    server_closed chunk (hs.streamOf 1) hs.idle.1 (by rw [hT])
  rw [hT] at hT₁
  obtain ⟨M₂, hm2, hst', hid', hsink, hup, hclean⟩ :=
    server_starve chunk hgone hread (by simp [hT₁]) (by simp [hT₁]) (by simp [hT₁]) (by simp [hT₁])
  have hone : M₂.started = 1 := hst'.trans (hst.trans hs.started)
  have h2 := (hr.step (.connectorTask hc1)).step (.connectorSend hc2)
  have h4 := (h2.step (.serverRecv rfl hm1)).step (.serverTask hm2)
  refine ⟨_, of_mux h4, not_over, by simp [hone], ?_, hclean, H, ?_, hend⟩
  · simp [hup, hT₁, Tunnel.closeCredit]
  · simp [Serves, hid', hT₁, hH]

end Runs

/-- A clean end at the client also comes of a session that is shut down and of a client that has
failed in reading, with bytes of the backend missing, and of a backend that has failed. -/
theorem clean_end_cut :
    (∃ s : SessionRun, (lts tunnelReadChunk).Reachable s ∧ s.lost = false ∧
      s.mux.server.started < 2 ^ 32 ∧ (s.mux.server.tunnels 0).upload.ending = none ∧
      s.CutShort tunnelReadChunk) ∧
    (∃ s : SessionRun, (lts tunnelReadChunk).Reachable s ∧ ¬ s.Over ∧
      s.mux.server.started < 2 ^ 32 ∧ s.CutShort tunnelReadChunk) ∧
    ∃ s : SessionRun, (lts tunnelReadChunk).Reachable s ∧ ¬ s.Over ∧
      s.mux.server.started < 2 ^ 32 ∧ (s.mux.server.tunnels 0).upload.ending = none ∧
      (∃ T, CleanEnd tunnelReadChunk (s.mux.server.tunnels 0) T) ∧
      ∃ H, s.Serves 0 H ∧ H.download.ending = some .error :=
  ⟨shutdown_cut (by decide), abandoned_cut (by decide), failed_cut tunnelReadChunk⟩

/-- One payload, then the end of the response. -/
theorem clean_end_complete_one : ∃ s : SessionRun, (lts tunnelReadChunk).Reachable s ∧ ¬ s.Over ∧
    (∃ T, CleanEnd tunnelReadChunk (s.mux.server.tunnels 0) T) ∧
    ∃ H, s.Serves 0 H ∧ H.target = (s.mux.server.tunnels 0).target ∧
      (H.download.ending = some .eof ∨ H.download.ending = some .error) ∧
      (s.mux.server.tunnels 0).download.sink = H.download.source := by
  obtain ⟨⟨M, C, up, down⟩, hr, hs⟩ := Mux.spliced_reachable tunnelReadChunk "http://localhost:80"
  obtain ⟨rfl, rfl⟩ : up = [] ∧ down = [] := hs.channels
  obtain ⟨C₁, C₂, C₃, C₄, C₅, C₆, hc1, hc2, hc3, hc4, hc5, hc6, -⟩ :=
    Mux.connector_respond tunnelReadChunk (p := [7]) (by simp) (by decide) (by decide) (hs.tasks 1)
  let T : Tunnel :=
    { target := "http://localhost:80", id := 1, phase := .splice, answer := some .ok }
  have hT : M.tunnels 0 = T := hs.tunnel
  obtain ⟨M₁, M₂, hm1, hm2, hst2, hreg, hread, hT₂⟩ :=
    Mux.server_deliver tunnelReadChunk (p := [7]) (T := T) rfl (by decide) hT (hs.streamOf 1) hs.idle.1
  obtain ⟨M₃, M₄, M₅, hm3, hm4, hm5, hst5, hreg', hread', hT₅⟩ :=
    Mux.server_write tunnelReadChunk (p := [7]) (T := T) (by simp) rfl (by decide) hT₂
  obtain ⟨M₆, hm6, hst6, hgone, hread6, hT₆⟩ := server_closed tunnelReadChunk (hreg'.trans hreg)
    (hread'.trans hread) (by rw [hT₅])
  rw [hT₅] at hT₆
  obtain ⟨M₇, hm7, hst7, -, -, hup, T', hclean⟩ :=
    server_starve tunnelReadChunk hgone hread6 (by simp [hT₆, T]) (by simp [hT₆, T]) (by simp [hT₆, T])
      (by simp [hT₆, T])
  have hone : M₇.started = 1 :=
    hst7.trans (hst6.trans (hst5.trans (hst2.trans hs.started)))
  have h3 := ((hr.step (.connectorTask hc1)).step (.connectorTask hc2)).step (.connectorTask hc3)
  have h6 := ((h3.step (.connectorSend hc4)).step (.connectorTask hc5)).step (.connectorSend hc6)
  have h8 := (h6.step (.serverRecv rfl hm1)).step (.serverDeliver hm2)
  have h11 := ((h8.step (.serverTask hm3)).step (.serverTask hm4)).step (.serverTask hm5)
  have h13 := of_mux ((h11.step (.serverRecv rfl hm6)).step (.serverTask hm7))
  exact ⟨_, h13, not_over, ⟨T', hclean⟩, clean_end_complete h13 (by simp [hone]) hclean not_over
    (by simp [hup, hT₆, T, Tunnel.closeCredit])⟩

end SessionRun

end X2rp.Wss
