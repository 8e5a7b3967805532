import X2rp.Wss.Agreement

/-! What is written at one end of a tunnel is what was read at the other, in order, and all of it
once the sender's `Close` has come through. -/
namespace X2rp.Wss

open Proto Exchange

/-- The messages after which their sender sends no more of the stream's bytes. -/
def Body.stops (b : Body) : Prop := b = .close ∨ b = .reset

theorem Body.stops_truncated {b : Body} : b.truncated.stops ↔ b.stops := by
  cases b <;> simp [stops, truncated]

theorem Body.payload_of_stops {b : Body} (h : b.stops) : b.payload = [] := by
  rcases h with rfl | rfl <;> rfl

/-- The loop is over, and no write of it failed: all that it was given is written, or queued. -/
theorem Drain.sink_of_finished {D : Drain} (h : D.finished) (hq : D.queue = []) :
    D.sink = D.accepted := by
  obtain ⟨ho, hf⟩ := h
  rcases ho with hp | hp | hp <;> simp [accepted, unwritten, hp, hf, hq]

namespace Tunnel

variable {T T' : Tunnel} {a : Act} {chunk : Nat}

/-- Where the two loops can stand in each phase of their tunnel. -/
structure Staged (T : Tunnel) : Prop where
  closing : T.upload.ending ≠ none → T.upload.pc = .sendClose ∨ T.upload.pc = .sendReset ∨
    T.upload.pc = .remove ∨ T.upload.pc = .done
  resetting : T.upload.pc = .sendReset ∨ T.upload.pc = .remove → T.upload.ending = some .error
  idle : T.phase ≠ .splice → T.phase ≠ .finish → T.phase ≠ .ended → T.download.pc = .recv
  finish : T.phase = .finish → T.download.isOver
  ended : T.phase = .ended → T.download.isOver ∨ T.download.pc = .recv

/-- Why a tunnel may write less than the connector sent: its client failed, or it never got to
the splice. -/
def excused (T : Tunnel) : Prop :=
  T.upload.ending = some .error ∨ T.download.failed ≠ none ∨
    (T.phase = .sendReset ∨ T.phase = .ended) ∧ T.download.pc = .recv

theorem Staged.step (h : Staged T) (hs : Step chunk T a T') : Staged T' := by
  obtain ⟨h1, h2, h3, h4, h5⟩ := h
  cases hs with
  | upload hp hs =>
    refine ⟨?_, ?_, h3, h4, h5⟩
    · cases hs <;> simp_all
    · cases hs <;> simp_all
  | download hp hs _ => exact ⟨h1, h2, by simp_all, by simp_all, by simp_all⟩
  | downloadDrained hp hs => exact ⟨h1, h2, by simp_all, by simp_all, by simp_all⟩
  | _ => constructor <;> simp_all [Drain.isOver]

theorem Staged.excused_step (h : Staged T) (hs : Step chunk T a T') (he : T.excused) :
    T'.excused := by
  have h1 := h.closing
  rcases he with he | he | ⟨hp, hd⟩
  · refine .inl ?_
    cases hs with
    | upload _ hs => cases hs <;> exact he
    | _ => simp_all
  · refine .inr (.inl ?_)
    cases hs with
    | download _ hs _ => cases hs <;> simp_all
    | downloadDrained _ hs => cases hs <;> exact he
    | _ => exact he
  · cases hs <;> simp_all [excused]

/-- A tunnel that removes its stream has an excuse, unless its download has finished. -/
theorem Staged.excused_remove (h : Staged T) (hs : Step chunk T .remove T')
    (hf : ¬ T.download.finished) : T'.excused := by
  cases hs with
  | upload _ hs => cases hs
  | download _ hs _ => cases hs
  | removeUnsent hp => exact .inr (.inr ⟨.inr rfl, h.idle (by simp [hp]) (by simp [hp]) (by simp [hp])⟩)
  | removeRefused hp =>
    exact .inr (.inr ⟨.inl rfl, h.idle (by simp [hp]) (by simp [hp]) (by simp [hp])⟩)
  | uploadRemove hp hu => exact .inl (h.resetting (.inr hu))
  | removeFinished hp => exact .inr (.inl fun hn => hf ⟨h.finish hp, hn⟩)

theorem step_target (h : Step chunk T a T') : T'.target = T.target := by
  cases h <;> rfl

theorem step_connect_target {target : String} (h : Step chunk T (.send (.connect target)) T') :
    target = T.target := by
  cases h with
  | connectSent _ => rfl
  | upload _ h => cases h
  | download _ h _ => cases h

/-- What the manager does to a tunnel's cells does not move its loops. -/
theorem Staged.congr (h : Staged T) (hp : T'.phase = T.phase) (hu : T'.upload.pc = T.upload.pc)
    (he : T'.upload.ending = T.upload.ending) (hd : T'.download.pc = T.download.pc)
    (hf : T'.download.failed = T.download.failed) : Staged T' ∧ (T.excused → T'.excused) := by
  refine ⟨⟨?_, ?_, ?_, ?_, ?_⟩, fun hx => by simpa [excused, hp, he, hd, hf] using hx⟩
  · simpa [hu, he] using h.closing
  · simpa [hu, he] using h.resetting
  · simpa [hp, hd] using h.idle
  · simpa [hp, hd, Drain.isOver] using h.finish
  · simpa [hp, hd, Drain.isOver] using h.ended

theorem Staged.removed {S : ServerEnd} (h : Staged S.tunnel) : Staged S.remove.tunnel ∧
    (S.tunnel.excused → S.remove.tunnel.excused) :=
  h.congr (by simp) (by simp) (by simp) (by simp) (by simp)

theorem Staged.addOutstanding {n : Nat} (h : Staged T) : Staged (T.addOutstanding n) ∧
    (T.excused → (T.addOutstanding n).excused) :=
  h.congr rfl rfl rfl rfl rfl

theorem Staged.enqueue {p : Bytes} (h : Staged T) : Staged (T.enqueue p) ∧
    (T.excused → (T.enqueue p).excused) :=
  h.congr rfl rfl rfl rfl rfl

end Tunnel

namespace ServerEnd

variable {S S' : ServerEnd} {chunk : Nat} {b : Body} {p : Bytes} {ins outs : List Body}

/-- The download has been given what the connector sent, for as long as the stream is
registered. -/
structure Received (ins : List Body) (S : ServerEnd) : Prop where
  staged : S.tunnel.Staged
  bytes : Reception Body.payload Body.stops ins (S.tunnel.download.accepted ++ S.handed)
    (S.registered = true) S.tunnel.excused

/-- The same bytes under a tunnel whose loops have not moved. -/
theorem Received.congr (h : Received ins S) (hp : S'.tunnel.phase = S.tunnel.phase)
    (hu : S'.tunnel.upload.pc = S.tunnel.upload.pc)
    (he : S'.tunnel.upload.ending = S.tunnel.upload.ending)
    (hd : S'.tunnel.download = S.tunnel.download) (hr : S'.registered = S.registered)
    (hh : S'.hand = S.hand) : Received ins S' := by
  obtain ⟨hst, hx⟩ := h.staged.congr hp hu he (by rw [hd]) (by rw [hd])
  refine ⟨hst, h.bytes.congr (by simp [hd, handed, hh]) (hr ▸ id) (fun hl hn => ?_) hx⟩
  exact absurd (hr ▸ hl) hn

theorem Received.answered {r : Answer} (h : Received ins S) : Received ins (S.answer r) :=
  h.congr (by simp) (by simp) (by simp) (by simp) (by simp) (by simp)

theorem Received.tunnelStep {T : Tunnel} {a : Act} (h : Received ins S)
    (hw : S.tunnel.download.WF) (hs : Tunnel.Step chunk S.tunnel a T) :
    Received ins { S with tunnel := T } := by
  refine ⟨h.staged.step hs, h.bytes.congr ?_ id (fun hl hn => absurd hl hn)
    (h.staged.excused_step hs)⟩
  simp [handed, Tunnel.step_accepted hw hs]

theorem Received.remove {T : Tunnel} (h : Received ins S) (hw : S.tunnel.download.WF)
    (hl : Leaving ins outs S) (hs : Tunnel.Step chunk S.tunnel .remove T) :
    Received ins ({ S with tunnel := T } : ServerEnd).remove := by
  have h' := h.tunnelStep hw hs
  obtain ⟨hst, hx⟩ := h'.staged.removed
  refine ⟨hst, h'.bytes.congr (by simp [handed]) (by simp) (fun hreg _ => hx ?_) hx⟩
  refine h.staged.excused_remove hs fun hf => ?_
  simp [(hl.drained hf).1] at hreg

/-- The connector's `Close` or `Reset` ends the reception. -/
theorem Received.told (h : Received ins S) (hb : b.stops) : Received (ins ++ [b]) S.remove := by
  obtain ⟨hst, hx⟩ := h.staged.removed
  have hhalt := h.bytes.halt hb (Body.payload_of_stops hb)
    (show ¬ S.remove.registered = true by simp)
  exact ⟨hst, hhalt.congr (by simp [handed]) id (fun hl hn => absurd hl hn) hx⟩

theorem Received.pass (h : Received ins S) (hb : b.payload = []) : Received (ins ++ [b]) S :=
  ⟨h.staged, h.bytes.pass hb⟩

theorem Received.handled (h : Received ins S) (hh : S.hand = none) (hc : S'.calm)
    (hb : Handled S b S') : Received (ins ++ [b]) S' := by
  cases hb with
  | connect => exact h.pass rfl
  | accepted => exact (h.pass rfl).answered
  | refused => exact (h.pass rfl).answered
  | told hb => exact h.told hb
  | stray _ => exact h.pass rfl
  | granted _ => exact (h.pass rfl).congr rfl rfl rfl rfl rfl rfl
  | late hr => exact ⟨h.staged, h.bytes.skip (by simp [hr])⟩
  | exceeded _ _ => simp [calm] at hc
  | @within p hr _ =>
    obtain ⟨hst, hx⟩ := h.staged.addOutstanding (n := p.length)
    refine ⟨hst, (h.bytes.take (b := .data p) hr).congr ?_ id (fun hl hn => absurd hl hn) hx⟩
    simp [handed, hh, Body.payload]

/-- The payload in hand goes to the download loop, and is lost only if there is none. -/
theorem Received.deliver (h : Received ins S) (hS : Sound S) (hl : Leaving ins outs S)
    (hh : S.hand = some p) : Received ins (S.deliver p) := by
  by_cases hp : S.tunnel.phase = .ended
  · have hr : ¬ S.registered = true := fun hr => (hS.listed hr).1 hp
    have hx : S.tunnel.excused := by
      rcases h.staged.ended hp with ho | hd
      · refine .inr (.inl fun hf => ?_)
        simp [(hl.drained ⟨ho, hf⟩).2.1] at hh
      · exact .inr (.inr ⟨.inr hp, hd⟩)
    have he : S.deliver p = { S with hand := none } := by
      simp [ServerEnd.deliver, hp, ServerEnd.remove, hr]
    rw [he]
    exact ⟨h.staged, h.bytes.lose (by simp [handed]) hr hx⟩
  · simp only [ServerEnd.deliver, if_neg hp]
    obtain ⟨hst, hx⟩ := h.staged.enqueue (p := p)
    refine ⟨hst, h.bytes.congr ?_ id (fun hl hn => absurd hl hn) hx⟩
    simp [handed, hh, Tunnel.enqueue_accepted]

theorem received_of_run (h : Run chunk calm ins outs S) : Received ins S := by
  induction h with
  | init h =>
    obtain ⟨target, id, rfl⟩ := h
    refine ⟨⟨by simp, by simp, by simp, by simp, by simp⟩, ?_⟩
    simpa [handed, Drain.accepted, Drain.unwritten] using Reception.init
  | internal hr ht ih =>
    have hS := sound_of_run hr
    cases ht.1 with
    | tunnel hs => exact ih.tunnelStep hS.download hs
    | tunnelRemove hs => exact ih.remove hS.download (leaving_of_run hr) hs
    | tunnelStarved hs _ _ => exact ih.tunnelStep hS.download hs
    | failPending _ => exact Received.answered (ih.congr rfl rfl rfl rfl rfl rfl)
    | deliver hh => exact ih.deliver hS (leaving_of_run hr) hh
  | output hr ht ih =>
    cases ht.1 with
    | tunnelSend hs => exact ih.tunnelStep (sound_of_run hr).download hs
    | spawnedReset _ => exact ih.congr rfl rfl rfl rfl rfl rfl
  | input _ ht ih =>
    have hc := ht.2.2
    cases ht.1 with
    | recv hh => exact ih.handled hh hc (handled ..)

/-- Nothing of the client's bytes follows the end's `Close` or `Reset`. -/
theorem last_of_run (h : Run chunk calm ins outs S) :
    outs.Pairwise fun a b => a.stops → b.payload = [] := by
  have hclose := (closing_of_run h).last
  have hreset := (reset_last h).2
  refine (hclose.and hreset).imp fun ⟨h1, h2⟩ hs => ?_
  rcases hs with hs | hs
  · exact h1 hs
  · exact (h2 hs).1

@[simp] theorem remove_target : S.remove.tunnel.target = S.tunnel.target := by
  unfold ServerEnd.remove
  split <;> rfl

@[simp] theorem answer_target {r : Answer} : (S.answer r).tunnel.target = S.tunnel.target := by
  unfold ServerEnd.answer
  split <;> rfl

theorem Handled.target (h : Handled S b S') : S'.tunnel.target = S.tunnel.target := by
  cases h <;> simp

theorem step_target {q : Port} (h : Step chunk S q S') :
    S'.tunnel.target = S.tunnel.target := by
  cases h with
  | tunnel h => exact Tunnel.step_target h
  | tunnelSend h => exact Tunnel.step_target h
  | tunnelRemove h => simpa using Tunnel.step_target h
  | tunnelStarved h _ _ => exact Tunnel.step_target h
  | failPending _ => simp
  | spawnedReset _ => rfl
  | recv _ => exact (handled ..).target
  | deliver _ =>
    unfold ServerEnd.deliver
    split <;> simp

/-- The end connects to its tunnel's target. -/
theorem connect_target {P : ServerEnd → Prop} {target : String} (h : Run chunk P ins outs S)
    (hm : .connect target ∈ outs) : target = S.tunnel.target := by
  induction h with
  | init _ => simp at hm
  | internal _ ht ih => rw [step_target ht.1, ih hm]
  | @output _ _ _ _ b _ ht ih =>
    rw [step_target ht.1]
    rcases List.mem_append.mp hm with hm | hm
    · exact ih hm
    · obtain rfl := List.mem_singleton.mp hm
      cases ht.1 with
      | tunnelSend hs => exact Tunnel.step_connect_target hs
  | input _ ht ih => rw [step_target ht.1, ih hm]

end ServerEnd

namespace Handler

variable {H H' : Handler} {a : Act} {chunk : Nat}

/-- The upload loop finishes when its queue is empty and closed. -/
theorem step_finished (h : Step chunk H a H') (ha : a ≠ .sendFailed)
    (hq : H.pc = .connecting → H.upload.queue = []) (hf : H'.upload.finished) :
    H.upload.finished ∧ H'.upload.queue = H.upload.queue ∨
      H.requestOpen = false ∧ H'.upload.queue = [] := by
  cases h with
  | ignoreData hp hq' => simp [hq hp] at hq'
  | upload _ h => exact absurd hf (Drain.step_finished h (by simp) (by simp))
  | uploadDrained _ h => exact absurd hf (Drain.step_finished h (by simp) (by simp))
  | uploadSend _ h => exact absurd hf (Drain.step_finished h (by simp) (by simp))
  | uploadStarved _ h ho =>
    cases h with
    | recvNone _ hq => exact .inr ⟨ho, hq⟩
  | uploadSendFailed _ _ => exact absurd rfl ha
  | uploadShutdown _ hu => exact .inl ⟨⟨.inl hu, hf.2⟩, rfl⟩
  | _ => exact .inl ⟨hf, rfl⟩

end Handler

namespace Entry

variable {E E' : Entry} {chunk : Nat} {b : Body} {ins outs : List Body}

/-- The upload has been given what the server sent, for as long as the task runs and its request
side is open. -/
structure Received (ins : List Body) (E : Entry) : Prop where
  aborted : E.task.aborted = true → E.task.requestOpen = false
  drained : E.task.upload.finished → E.task.requestOpen = false ∧ E.task.upload.queue = []
  bytes : Reception Body.payload Body.stops ins E.task.upload.accepted
    (E.task.running = true ∧ E.task.requestOpen = true) (E.task.running = false)

theorem Received.taskStep {H : Handler} {a : Act} (h : Received ins E) (hS : Sound E)
    (hs : Handler.Step chunk E.task a H) (ha : a ≠ .sendFailed)
    (hq : E.task.pc = .connecting → E.task.upload.queue = []) :
    Received ins { E with task := H } := by
  obtain ⟨hab, hreq⟩ := Handler.step_shared hs
  have hrun : E.task.running = false → H.running = false := by
    intro hr
    by_contra hr'
    simp [Handler.step_running hs (by simpa using hr')] at hr
  refine ⟨by simpa [hab, hreq] using h.aborted, fun hf => ?_, h.bytes.congr
    (Handler.step_accepted hS.upload hs hq) ?_ ?_ hrun⟩
  · rcases Handler.step_finished hs ha hq hf with ⟨hf, he⟩ | hf
    · simpa [hreq, he] using h.drained hf
    · simpa [hreq] using hf
  · rintro ⟨hr, ho⟩
    exact ⟨Handler.step_running hs hr, hreq ▸ ho⟩
  · rintro ⟨-, ho⟩ hn
    simpa [hreq, ho] using hn

theorem Received.drop (h : Received ins E) (hl : ¬ (E.task.running = true ∧ E.task.requestOpen = true)) :
    Received ins E.drop where
  aborted _ := by simp [Entry.drop]
  drained hf := by
    have := (h.drained (by simpa [Entry.drop] using hf)).2
    simpa [Entry.drop] using this
  bytes := by
    refine h.bytes.congr (by simp [Entry.drop]) (by simp [Entry.drop])
      (fun hlive => absurd hlive hl) (by simp [Entry.drop, Handler.running])

theorem Received.taken (h : Received ins E) (hS : Sound E) (ht : Taken E b E') :
    Received (ins ++ [b]) E' := by
  cases ht with
  | unlisted hl =>
    refine ⟨h.aborted, h.drained, h.bytes.skip ?_⟩
    rintro ⟨hr, ho⟩
    rcases hS.unlisted hl with ha | hf
    · simp [h.aborted ha] at ho
    · simp [Handler.running, hf] at hr
  | other hl hb hr =>
    refine ⟨h.aborted, h.drained, h.bytes.pass ?_⟩
    cases b <;> simp_all [Body.payload, Body.spliced]
  | late hl ho => exact ⟨h.aborted, h.drained, h.bytes.skip (by simp [ho])⟩
  | data hl ho hr =>
    refine ⟨h.aborted, fun hf => ?_, ?_⟩
    · simp [(h.drained hf).1] at ho
    · rw [Handler.enqueue_accepted]
      exact h.bytes.take ⟨hr, ho⟩
  | gone hl ho hr =>
    have hn : ¬ (E.task.running = true ∧ E.task.requestOpen = true) := by simp [hr]
    exact Received.drop ⟨h.aborted, h.drained, h.bytes.skip hn⟩ hn
  | close hl =>
    exact ⟨fun _ => rfl, fun hf => ⟨rfl, (h.drained hf).2⟩,
      h.bytes.halt (.inl rfl) rfl (by simp)⟩
  | reset hl =>
    exact ⟨fun _ => rfl, fun hf => ⟨rfl, (h.drained hf).2⟩,
      h.bytes.halt (.inr rfl) rfl (by simp [Entry.drop])⟩
  | grant hl => exact ⟨h.aborted, h.drained, h.bytes.pass rfl⟩

theorem received_of_run (h : Run chunk ConnectorEnd.Unfed ins outs E) : Received ins E := by
  have hpre : ∀ E : Entry, E.toEnd.Unfed → E.task.pc = .connecting → E.task.upload.queue = [] :=
    fun E hE hp => hE E.task (List.mem_singleton_self _) (by simp [Handler.pre, hp])
  induction h with
  | init h =>
    obtain ⟨target, rfl⟩ := h
    refine ⟨by simp, by simp [Drain.finished, Drain.isOver], ?_⟩
    simpa [Drain.accepted, Drain.unwritten, Handler.running] using Reception.init
  | internal hr ht ih =>
    cases ht.1 with
    | task hs => exact ih.taskStep (sound_of_run hr) hs (by simp) (hpre _ ht.2.1)
    | retire => exact ⟨ih.aborted, ih.drained, ih.bytes⟩
  | output hr ht ih =>
    cases ht.1 with
    | taskSend hs => exact ih.taskStep (sound_of_run hr) hs (by simp) (hpre _ ht.2.1)
  | input hr ht ih =>
    cases ht.1 with
    | recv => exact ih.taken (sound_of_run hr) (Entry.taken ..)

/-- Nothing of the backend's bytes follows the task's `Close`, and it sends no `Reset`. -/
theorem last_of_run {Q : ConnectorEnd → Prop} (h : Run chunk Q ins outs E) :
    outs.Pairwise fun a b => a.stops → b.payload = [] := by
  have hreset := (telling_of_run h).reset
  refine (closing_of_run h).last.imp_of_mem fun ha _ hc hs => hc (hs.resolve_right ?_)
  rintro rfl
  exact hreset ha

end Entry

namespace Stream

variable {s : Stream} {chunk : Nat} {H : Handler}

/-- A stream with a backend task, as a run of the server's end and one of that task's entry. -/
theorem entry_runs (h : (lts chunk).Reachable s) (hH : H ∈ s.connector.handlers) :
    ∃ sIns ins outs E, E.task = H ∧ Entry.Run chunk ConnectorEnd.Unfed ins outs E ∧
      ServerEnd.Run chunk ServerEnd.calm sIns (.connect H.target :: (ins ++ s.up)) s.server ∧
      sIns ++ s.down = outs.map Body.truncated := by
  obtain ⟨sIns, sOuts, cIns, cOuts, hruns⟩ := calm_runs h
  have hup := hruns.up
  have hdown := hruns.down
  have hserver := hruns.server
  obtain ⟨before, ins, E, rfl, hb, hr, -, rfl⟩ := hruns.course.of_task hH
  rw [List.append_assoc, List.cons_append] at hup
  obtain rfl : before = [] :=
    (hup ▸ (ServerEnd.leaving_of_run hserver).opening).first hb
  subst hup
  exact ⟨sIns, ins, cOuts, E, rfl, hr, hserver, hdown⟩

/-- What one end of a tunnel has written is what the other has read, in order, and the two ends
are of the same tunnel. -/
theorem bytes_in_order (h : (lts chunk).Reachable s) (hH : H ∈ s.connector.handlers) :
    H.target = s.server.tunnel.target ∧
      s.server.tunnel.download.sink <+: H.download.source ∧
      H.upload.sink <+: s.server.tunnel.upload.source := by
  obtain ⟨sIns, ins, outs, E, rfl, hE, hS, hdown⟩ := entry_runs h hH
  refine ⟨ServerEnd.connect_target hS List.mem_cons_self, ?_, ?_⟩
  · calc s.server.tunnel.download.sink
      _ <+: s.server.tunnel.download.accepted ++ s.server.handed :=
        Drain.sink_prefix.trans (List.prefix_append ..)
      _ <+: payloads sIns := (ServerEnd.received_of_run hS).bytes.le
      _ <+: payloads outs := by
        rw [← payloads_truncated outs, ← hdown, payloads_append]
        exact List.prefix_append ..
      _ = E.task.download.sent := (Entry.closing_of_run hE).sent
      _ <+: E.task.download.source := (Entry.sound_of_run hE).download.sent
  · calc E.task.upload.sink
      _ <+: E.task.upload.accepted := Drain.sink_prefix
      _ <+: payloads ins := (Entry.received_of_run hE).bytes.le
      _ <+: payloads (.connect E.task.target :: (ins ++ s.up)) := by
        simp [Body.payload]
      _ = s.server.tunnel.upload.sent := (ServerEnd.closing_of_run hS).sent
      _ <+: s.server.tunnel.upload.source := (ServerEnd.sound_of_run hS).upload.sent

/-- A client that has failed neither in reading nor in writing has got the whole response when
the tunnel shuts it down, and its backend task has told so. -/
theorem download_closed (h : (lts chunk).Reachable s) (hH : H ∈ s.connector.handlers)
    (hf : s.server.tunnel.download.finished)
    (he : s.server.tunnel.upload.ending ≠ some .error) :
    H.download.closeSent = true ∧ s.server.tunnel.download.sink = H.download.source := by
  obtain ⟨sIns, ins, outs, E, rfl, hE, hS, hdown⟩ := entry_runs h hH
  obtain ⟨hreg, hh, hq⟩ := (ServerEnd.leaving_of_run hS).drained hf
  have hclosing := Entry.closing_of_run hE
  have hx : ¬ s.server.tunnel.excused := by
    rintro (hx | hx | ⟨-, hx⟩)
    · exact he hx
    · exact hx hf.2
    · simpa [Drain.isOver, hx] using hf.1
  have hbytes := (ServerEnd.received_of_run hS).bytes
  have hclose : E.task.download.closeSent = true := by
    obtain ⟨b, hb, hs⟩ := hbytes.stopped (by simp [hreg]) hx
    have hb' : b ∈ outs.map Body.truncated := hdown ▸ List.mem_append_left _ hb
    rcases hs with rfl | rfl
    · exact hclosing.close.mp ((mem_map_truncated rfl).mp hb')
    · exact absurd ((mem_map_truncated rfl).mp hb') (Entry.telling_of_run hE).reset
  have hlast : (sIns ++ s.down).Pairwise fun a b => a.stops → b.payload = [] := by
    rw [hdown]
    refine List.pairwise_map.mpr ((Entry.last_of_run hE).imp fun hc hs => ?_)
    rw [Body.truncated_payload]
    exact hc (Body.stops_truncated.mp hs)
  refine ⟨hclose, ?_⟩
  calc s.server.tunnel.download.sink
    _ = s.server.tunnel.download.accepted ++ s.server.handed := by
      simp [Drain.sink_of_finished hf hq, ServerEnd.handed, hh]
    _ = payloads (sIns ++ s.down) :=
      hbytes.complete (by simp [hreg]) hx (fun _ => Body.payload_of_stops) hlast
    _ = payloads outs := by rw [hdown, payloads_truncated]
    _ = E.task.download.sent := hclosing.sent
    _ = E.task.download.source := ((Entry.sound_of_run hE).download.closed hclose).2

/-- A backend whose response has not ended and whose writes have succeeded has got the whole
request when its task shuts it down, if the client's request came to its end. -/
theorem upload_complete (h : (lts chunk).Reachable s) (hH : H ∈ s.connector.handlers)
    (hp : H.pc = .splice) (hf : H.upload.finished)
    (hc : s.server.tunnel.upload.closeSent = true) :
    H.upload.sink = s.server.tunnel.upload.source := by
  obtain ⟨sIns, ins, outs, E, rfl, hE, hS, -⟩ := entry_runs h hH
  have hrec := Entry.received_of_run hE
  obtain ⟨ho, hq⟩ := hrec.drained hf
  have hrun : ¬ E.task.running = false := by simp [Handler.running, hp]
  have hlast := (List.pairwise_cons.mp (ServerEnd.last_of_run hS)).2
  calc E.task.upload.sink
    _ = E.task.upload.accepted := Drain.sink_of_finished hf hq
    _ = payloads (ins ++ s.up) :=
      hrec.bytes.complete (by simp [ho]) hrun (fun _ => Body.payload_of_stops) hlast
    _ = payloads (.connect E.task.target :: (ins ++ s.up)) := by simp [Body.payload]
    _ = s.server.tunnel.upload.sent := (ServerEnd.closing_of_run hS).sent
    _ = s.server.tunnel.upload.source := ((ServerEnd.sound_of_run hS).upload.closed hc).2

/-- Without a backend task there is nothing to write. -/
theorem sink_without_task (h : (lts chunk).Reachable s) (hn : s.connector.handlers = []) :
    s.server.tunnel.download.sink = [] := by
  obtain ⟨sIns, sOuts, cIns, cOuts, hruns⟩ := calm_runs h
  have hsilent : payloads cOuts = [] := by
    have hcourse := hruns.course
    generalize s.connector = C at hcourse hn
    cases hcourse with
    | idle _ => rfl
    | refused _ ho => rcases ho with ⟨-, rfl⟩ | ⟨-, rfl⟩ <;> rfl
    | entry _ _ => simp [Entry.toEnd] at hn
  rw [← payloads_truncated, ← hruns.down, payloads_append, List.append_eq_nil_iff] at hsilent
  have hle : s.server.tunnel.download.sink <+: payloads sIns :=
    (Drain.sink_prefix.trans (List.prefix_append ..)).trans
      (ServerEnd.received_of_run hruns.server).bytes.le
  exact List.prefix_nil.mp (hsilent.1 ▸ hle)

end Stream

namespace Mux

variable {s : Mux} {chunk : Nat}

/-- A tunnel and the backend task of its stream pass their bytes on as they are. The client has
the whole response when the tunnel shuts it down, unless it failed; the backend has the whole
request when its task shuts it down, unless the response ended first. -/
structure Intact (T : Tunnel) (H : Handler) : Prop where
  target : H.target = T.target
  download : T.download.sink <+: H.download.source
  upload : H.upload.sink <+: T.upload.source
  response : T.download.isOver → T.download.failed = none → T.upload.ending ≠ some .error →
    T.download.sink = H.download.source
  request : H.pc = .splice → H.upload.isOver → H.upload.failed = none →
    T.upload.closeSent = true → H.upload.sink = T.upload.source

/-- Byte-stream integrity. In every reachable state each backend task belongs to one tunnel, and
the two are intact; a tunnel without a task has written nothing. -/
theorem stream_integrity (h : (lts chunk).Reachable s) (hw : s.server.started < 2 ^ 32) :
    (∀ i, ∀ H ∈ s.connector.tasks i, ∃ t, (s.server.tunnels t).phase.early = false ∧
      (s.server.tunnels t).id = i ∧ Intact (s.server.tunnels t) H) ∧
    (∀ t u, (s.server.tunnels t).phase.early = false → (s.server.tunnels u).phase.early = false →
      (s.server.tunnels t).id = (s.server.tunnels u).id → t = u) ∧
    ∀ t, (s.server.tunnels t).phase.early = true ∨
      s.connector.tasks (s.server.tunnels t).id = [] → (s.server.tunnels t).download.sink = [] := by
  obtain ⟨hc, hstream⟩ := stream_reachable h hw
  refine ⟨fun i H hH => ?_, fun t u ht hu => ?_, fun t ht => ?_⟩
  · rcases hc.owned i with ⟨t, rfl, he⟩ | hsilent
    · have hr := hstream t he
      obtain ⟨h1, h2, h3⟩ := Stream.bytes_in_order hr hH
      exact ⟨t, he, rfl, h1, h2, h3, fun ho hf he => (Stream.download_closed hr hH ⟨ho, hf⟩ he).2,
        fun hp ho hf => Stream.upload_complete hr hH hp ⟨ho, hf⟩⟩
    · have : s.connector.tasks i = [] := congrArg ConnectorEnd.handlers hsilent.connector
      simp [this] at hH
  · exact hc.keyed.tracked.ids.unique t u (ConnectorManager.ne_fetchId ht)
      (ConnectorManager.ne_fetchId hu)
  · cases he : (s.server.tunnels t).phase.early with
    | true => simp [((hc.keyed.windowed t).early he).1]
    | false => exact Stream.sink_without_task (hstream t he) (ht.resolve_left (by simp [he]))

/-- One step of the only task of stream 1. -/
theorem connector_task {C : SessionManager} {H H' : Handler} (ht : C.tasks 1 = [H])
    (h : Handler.Step chunk H .tau H') :
    SessionManager.Step chunk C .internal (C.setTasks 1 [H']) :=
  .handler (show C.tasks 1 = [] ++ H :: [] from ht) h

theorem connector_taskSend {C : SessionManager} {H H' : Handler} {b : Body} (ht : C.tasks 1 = [H])
    (h : Handler.Step chunk H (.send b) H') :
    SessionManager.Step chunk C (.output (b.message 1)) (C.setTasks 1 [H']) :=
  .handlerSend (show C.tasks 1 = [] ++ H :: [] from ht) h

theorem server_task {M : ConnectorManager} {T T' : Tunnel} (hT : M.tunnels 0 = T)
    (h : Tunnel.Step chunk T .tau T') :
    ConnectorManager.Step chunk M .internal (M.setTunnel 0 T') :=
  .tunnel (hT ▸ h)

theorem server_taskSend {M : ConnectorManager} {T T' : Tunnel} {b : Body} (hT : M.tunnels 0 = T)
    (hl : M.linkOpen = true) (h : Tunnel.Step chunk T (.send b) T') :
    ConnectorManager.Step chunk M (.output (b.message T.id)) (M.setTunnel 0 T') := by
  subst hT
  exact .tunnelSend h hl

section Payload

variable (chunk) {p : Bytes} (h0 : p ≠ [])

/-- What a sender is left with once it has passed on its first payload. -/
def passed (p : Bytes) : Sender where
  credit := { SendCredit.new streamRecvWindow with credit := streamRecvWindow - p.length }
  source := p
  sent := p

include h0 in
/-- A sender reads its first payload and passes it on. -/
theorem sender_pass (hp : p.length ≤ chunk) (hw : p.length ≤ streamRecvWindow) :
    Sender.Step chunk {} .tau { pc := .acquire p, source := p } ∧
    Sender.Step chunk { pc := .acquire p, source := p } .tau { pc := .reserve p, source := p } ∧
    Sender.Step chunk { pc := .reserve p, source := p } .tau
      { passed p with pc := .sendData p, sent := [] } ∧
    Sender.Step chunk { passed p with pc := .sendData p, sent := [] } (.send (.data p)) (passed p) := by
  have hr : (SendCredit.new streamRecvWindow).tryReserve p.length = some (passed p).credit := by
    simpa [SendCredit.tryReserve, SendCredit.new, passed] using hw
  exact ⟨.readData rfl h0 hp, .acquireOpen rfl rfl, .reserve rfl hr, .sendData rfl⟩

include h0 in
/-- A drain writes its first payload. -/
theorem drain_write : Drain.Step { queue := [p] } .tau { pc := .write p p.length } ∧
    Drain.Step { pc := .write p p.length } .tau { pc := .write [] p.length, sink := p } := by
  refine ⟨.recv rfl rfl, ?_⟩
  simpa using Drain.Step.writeSome (D := { pc := .write p p.length }) rfl
    (List.length_pos_iff.mpr h0) le_rfl

section Connector

variable {C : SessionManager} {H : Handler}

/-- The response loop goes on. -/
theorem handler_download {S S' : Sender} {a : Act} (hs : H.pc = .splice)
    (h : Sender.Step chunk S a S') (hd : S'.pc ≠ .done) :
    Handler.Step chunk { H with download := S } a { H with download := S' } := by
  have hstep := Handler.Step.download (H := { H with download := S }) hs h
  rwa [if_neg hd, ← hs] at hstep

variable (hs : H.pc = .splice)
include h0 hs

/-- The backend's first payload is sent. -/
theorem connector_send (ht : C.tasks 1 = [{ H with download := {} }]) (hp : p.length ≤ chunk)
    (hw : p.length ≤ streamRecvWindow) : ∃ C₁ C₂ C₃ C₄ : SessionManager,
      SessionManager.Step chunk C .internal C₁ ∧ SessionManager.Step chunk C₁ .internal C₂ ∧
      SessionManager.Step chunk C₂ .internal C₃ ∧
      SessionManager.Step chunk C₃ (.output (.data 1 p)) C₄ ∧
      C₄.tasks 1 = [{ H with download := passed p }] := by
  obtain ⟨h1, h2, h3, h4⟩ := sender_pass chunk h0 hp hw
  have hset := @SessionManager.setTasks_self
  exact ⟨_, _, _, _, connector_task ht (handler_download chunk hs h1 SenderPc.noConfusion),
    connector_task hset (handler_download chunk hs h2 SenderPc.noConfusion),
    connector_task hset (handler_download chunk hs h3 SenderPc.noConfusion),
    connector_taskSend hset (handler_download chunk hs h4 SenderPc.noConfusion), hset⟩

/-- The client's first payload comes in and is written to the backend. -/
theorem connector_write (ht : C.tasks 1 = [{ H with upload := {} }]) (hi : 1 ∈ C.streams)
    (ho : H.requestOpen = true) : ∃ C₁ C₂ C₃ : SessionManager,
      SessionManager.Step chunk C (.input (.data 1 p)) C₁ ∧
      SessionManager.Step chunk C₁ .internal C₂ ∧ SessionManager.Step chunk C₂ .internal C₃ ∧
      C₃.tasks 1 = [{ H with upload := { pc := .write [] p.length, sink := p } }] := by
  obtain ⟨h1, h2⟩ := drain_write h0
  have hset := @SessionManager.setTasks_self
  have hdata : C.handleMessage (.data 1 p) = C.setTasks 1 [{ H with upload := { queue := [p] } }] := by
    simp [SessionManager.handleMessage, SessionManager.handleData, hi, ht, ho, Handler.running, hs,
      SessionManager.modify, Handler.enqueue]
  have hrecv : SessionManager.Step chunk C (.input (.data 1 p)) _ := .recv
  rw [hdata] at hrecv
  exact ⟨_, _, _, hrecv, connector_task hset (.upload hs h1), connector_task hset (.upload hs h2), hset⟩

end Connector

section Server

variable {M : ConnectorManager} {T : Tunnel} (hs : T.phase = .splice)
include hs

include h0 in
/-- The client's first payload is sent. -/
theorem server_send (hT : M.tunnels 0 = { T with id := 1, upload := {} }) (hl : M.linkOpen = true)
    (hp : p.length ≤ chunk) (hw : p.length ≤ streamRecvWindow) :
    ∃ M₁ M₂ M₃ M₄ : ConnectorManager,
      ConnectorManager.Step chunk M .internal M₁ ∧ ConnectorManager.Step chunk M₁ .internal M₂ ∧
      ConnectorManager.Step chunk M₂ .internal M₃ ∧
      ConnectorManager.Step chunk M₃ (.output (.data 1 p)) M₄ ∧
      M₄.started = M.started ∧ M₄.streamOf 1 = M.streamOf 1 ∧ M₄.reading = M.reading ∧
      M₄.tunnels 0 = { T with id := 1, upload := passed p } := by
  obtain ⟨h1, h2, h3, h4⟩ := sender_pass chunk h0 hp hw
  have hset := @ConnectorManager.setTunnel_self
  have hup : ∀ {S S' : Sender} {a : Act}, Sender.Step chunk S a S' →
      Tunnel.Step chunk { T with id := 1, upload := S } a { T with id := 1, upload := S' } :=
    fun h => .upload hs h
  exact ⟨_, _, _, _, server_task hT (hup h1), server_task hset (hup h2), server_task hset (hup h3),
    server_taskSend hset (by exact hl) (hup h4), rfl, rfl, rfl, hset⟩

/-- One payload comes in. -/
theorem server_deliver (hw : p.length ≤ streamRecvWindow)
    (hT : M.tunnels 0 = { T with download := {}, outstanding := 0 }) (hi : M.streamOf 1 = some 0)
    (hr : M.reading = none) : ∃ M₁ M₂ : ConnectorManager,
      ConnectorManager.Step chunk M (.input (.data 1 p)) M₁ ∧
      ConnectorManager.Step chunk M₁ .deliver M₂ ∧ M₂.started = M.started ∧
      M₂.streamOf 1 = some 0 ∧ M₂.reading = none ∧
      M₂.tunnels 0 = { T with download := { queue := [p] }, outstanding := p.length } := by
  have hdata : M.handleMessage (.data 1 p) = _ :=
    ConnectorManager.handleData_within hi (by simpa [hT] using hw)
  have h : ConnectorManager.Step chunk M (.input (.data 1 p)) (M.handleMessage (.data 1 p)) := .recv hr
  rw [hdata] at h
  refine ⟨_, _, h, .deliver rfl, ?_⟩
  rw [ConnectorManager.deliver_live (by simp [hT, hs])]
  exact ⟨rfl, hi, rfl, by simp [hT, Tunnel.enqueue, Tunnel.addOutstanding]⟩

include h0 in
/-- It is written to the client. -/
theorem server_write (hw : p.length < windowUpdateThreshold)
    (hT : M.tunnels 0 = { T with download := { queue := [p] }, outstanding := p.length }) :
    ∃ M₁ M₂ M₃ : ConnectorManager, ConnectorManager.Step chunk M .internal M₁ ∧
      ConnectorManager.Step chunk M₁ .internal M₂ ∧ ConnectorManager.Step chunk M₂ .internal M₃ ∧
      M₃.started = M.started ∧ M₃.streamOf 1 = M.streamOf 1 ∧ M₃.reading = M.reading ∧
      M₃.tunnels 0 = { T with download := { sink := p, drained := p.length }, outstanding := 0 } := by
  have hset := @ConnectorManager.setTunnel_self
  obtain ⟨h1, h2⟩ := drain_write h0
  have h3 : Drain.Step { pc := .write [] p.length, sink := p } (.drained p.length)
      { sink := p, drained := p.length } := by
    simpa using Drain.Step.writtenBelow (D := { pc := .write [] p.length, sink := p }) rfl
      (by simpa using hw)
  have hdl : ∀ {D D' : Drain}, Drain.Step D .tau D' →
      Tunnel.Step chunk { T with download := D, outstanding := p.length } .tau
        { T with download := D', outstanding := p.length } :=
    fun h => .download hs h fun _ => Act.noConfusion
  refine ⟨_, _, _, server_task hT (hdl h1), server_task hset (hdl h2),
    server_task hset (.downloadDrained hs h3), rfl, rfl, rfl, ?_⟩
  rw [hset, Nat.sub_self]

end Server

end Payload

/-- One payload each way. -/
theorem stream_integrity_exchanged : ∃ (s : Mux) (H : Handler), (lts tunnelReadChunk).Reachable s ∧
    s.server.started < 2 ^ 32 ∧ (s.server.tunnels 0).id = 1 ∧ H ∈ s.connector.tasks 1 ∧
      (s.server.tunnels 0).download.sink = [7] ∧ H.upload.sink = [1, 2] ∧
      Intact (s.server.tunnels 0) H := by
  let T : Tunnel :=
    { target := "http://localhost:80", id := 1, phase := .splice, answer := some .ok }
  let H : Handler := { target := "http://localhost:80", pc := .splice }
  obtain ⟨⟨M, C, up, down⟩, hr, hs⟩ := spliced_reachable tunnelReadChunk "http://localhost:80"
  obtain ⟨rfl, rfl⟩ : up = [] ∧ down = [] := hs.channels
  have hi : 1 ∈ C.streams := hs.streams ▸ Finset.mem_singleton_self 1
  obtain ⟨M₁, M₂, M₃, M₄, hm1, hm2, hm3, hm4, hst4, hreg4, hread4, hT4⟩ :=
    server_send tunnelReadChunk (p := [1, 2]) (T := T) (by simp) rfl hs.tunnel hs.linkOpen (by decide)
      (by decide)
  obtain ⟨C₁, C₂, C₃, hc1, hc2, hc3, ht3⟩ :=
    connector_write tunnelReadChunk (p := [1, 2]) (H := H) (by simp) rfl (hs.tasks 1) hi rfl
  obtain ⟨C₄, C₅, C₆, C₇, hc4, hc5, hc6, hc7, ht7⟩ :=
    connector_send tunnelReadChunk (p := [7])
      (H := { H with upload := { pc := .write [] 2, sink := [1, 2] } }) (by simp) rfl ht3 (by decide)
      (by decide)
  obtain ⟨M₅, M₆, hm5, hm6, hst6, hreg6, hread6, hT6⟩ :=
    server_deliver tunnelReadChunk (p := [7]) (T := { T with upload := passed [1, 2] }) rfl (by decide) hT4
      (hreg4.trans (hs.streamOf 1)) (hread4.trans hs.idle.1)
  obtain ⟨M₇, M₈, M₉, hm7, hm8, hm9, hst9, -, -, hT9⟩ :=
    server_write tunnelReadChunk (p := [7]) (T := { T with upload := passed [1, 2] }) (by simp) rfl
      (by decide) hT6
  have h4 := (((hr.step (.serverTask hm1)).step (.serverTask hm2)).step (.serverTask hm3)).step
    (.serverSend hm4)
  have h7 := ((h4.step (.connectorRecv rfl hc1)).step (.connectorTask hc2)).step (.connectorTask hc3)
  have h11 := (((h7.step (.connectorTask hc4)).step (.connectorTask hc5)).step
    (.connectorTask hc6)).step (.connectorSend hc7)
  have h13 := (h11.step (.serverRecv rfl hm5)).step (.serverDeliver hm6)
  have h16 := ((h13.step (.serverTask hm7)).step (.serverTask hm8)).step (.serverTask hm9)
  have hw : M₉.started < 2 ^ 32 := by
    rw [hst9, hst6, hst4, show M.started = 1 from hs.started]
    decide
  obtain ⟨hintact, hone, -⟩ := stream_integrity h16 hw
  have hH := ht7 ▸ List.mem_singleton_self _
  obtain ⟨t, he, hid, hi⟩ := hintact 1 _ hH
  have hid0 : (M₉.tunnels 0).id = 1 := by rw [hT9]
  obtain rfl := hone t 0 he (by rw [hT9]; rfl) (hid.trans hid0.symm)
  exact ⟨_, _, h16, hw, hid0, hH, by rw [hT9], rfl, hi⟩

/-- The backend answers one payload and closes. -/
theorem connector_respond (chunk : Nat) {C : SessionManager} {target : String} {p : Bytes}
    (h0 : p ≠ []) (hp : p.length ≤ chunk) (hw : p.length ≤ streamRecvWindow)
    (ht : C.tasks 1 = [{ target := target, pc := .splice }]) :
    ∃ C₁ C₂ C₃ C₄ C₅ C₆ : SessionManager,
      SessionManager.Step chunk C .internal C₁ ∧ SessionManager.Step chunk C₁ .internal C₂ ∧
      SessionManager.Step chunk C₂ .internal C₃ ∧
      SessionManager.Step chunk C₃ (.output (.data 1 p)) C₄ ∧
      SessionManager.Step chunk C₄ .internal C₅ ∧
      SessionManager.Step chunk C₅ (.output (.close 1)) C₆ ∧
      ∃ H, C₆.tasks 1 = [H] ∧ H.download.source = p ∧ H.download.ending = some .eof ∧
        H.download.closeSent = true := by
  obtain ⟨C₁, C₂, C₃, C₄, h1, h2, h3, h4, ht4⟩ := connector_send chunk
    (H := { target := target, pc := .splice }) h0 rfl ht hp hw
  have hset := @SessionManager.setTasks_self
  exact ⟨C₁, C₂, C₃, C₄, _, _, h1, h2, h3, h4, connector_task ht4 (.readEnd (e := .eof) rfl rfl),
    connector_taskSend hset (.download rfl (.sendClose rfl)), _, hset, rfl, rfl, rfl⟩

/-- The client's read fails: the tunnel resets its stream and takes it out of the map. -/
theorem server_abandon {M : ConnectorManager} {target : String}
    (hT : M.tunnels 0 = { target := target, id := 1, phase := .splice, answer := some .ok })
    (hs : ∀ i, M.streamOf i = if i = 1 then some 0 else none) (hl : M.linkOpen = true)
    (hr : M.reading = none) : ∃ M₁ M₂ M₃ : ConnectorManager,
      ConnectorManager.Step chunk M .internal M₁ ∧
      ConnectorManager.Step chunk M₁ (.output (.reset 1)) M₂ ∧
      ConnectorManager.Step chunk M₂ .internal M₃ ∧
      M₃.started = M.started ∧ M₃.streamOf 1 = none ∧ M₃.reading = none ∧ (M₃.tunnels 0).id = 1 ∧
      (M₃.tunnels 0).phase = .splice ∧ (M₃.tunnels 0).download = {} := by
  have hset := @ConnectorManager.setTunnel_self
  have hremove : ∀ {M : ConnectorManager} {T T' : Tunnel}, M.tunnels 0 = T →
      Tunnel.Step chunk T .remove T' →
      ConnectorManager.Step chunk M .internal ((M.setTunnel 0 T').removeStream T'.id) :=
    fun hT h => .tunnelRemove (hT ▸ h)
  refine ⟨_, _, _, server_task hT (.readErr rfl rfl), server_taskSend hset hl (.uploadReset rfl rfl),
    hremove hset (.uploadRemove rfl rfl), ?_⟩
  simp [ConnectorManager.removeStream_streamOf, ConnectorManager.removeStream_tunnels, hs, hr]

/-- What still arrives for a stream that is gone is dropped, and its download shuts down. -/
theorem server_ignore {M : ConnectorManager} {p : Bytes} (hs : M.streamOf 1 = none)
    (hr : M.reading = none) (hid : (M.tunnels 0).id = 1) (hp : (M.tunnels 0).phase = .splice)
    (hd : (M.tunnels 0).download = {}) : ∃ M' : ConnectorManager,
      ConnectorManager.Step chunk M (.input (.data 1 p)) M ∧
      ConnectorManager.Step chunk M (.input (.close 1)) M ∧
      ConnectorManager.Step chunk M .internal M' ∧ M'.started = M.started ∧
      (M'.tunnels 0).id = 1 ∧ (M'.tunnels 0).download = { pc := .shutdown } := by
  have hdata : M.handleMessage (.data 1 p) = M := by
    simp [ConnectorManager.handleMessage, ConnectorManager.handleData, hs]
  have hclose : M.handleMessage (.close 1) = M := by
    simp [ConnectorManager.handleMessage, ConnectorManager.removeStream_none hs]
  refine ⟨_, ?_, ?_, .tunnelStarved (t := 0) (.download hp (.recvNone (by rw [hd]) (by rw [hd]))
    (by simp)) (by simp [hid, hs]) (by simp [hr]), rfl, by simpa using hid, by simp [hd]⟩
  · have h : ConnectorManager.Step chunk M (.input (.data 1 p)) _ := .recv hr
    rwa [hdata] at h
  · have h : ConnectorManager.Step chunk M (.input (.close 1)) _ := .recv hr
    rwa [hclose] at h

/-- A client that fails in reading may lose the end of the response, though the backend came to
its end, its `Close` was processed and no write to the client failed. -/
theorem response_cut_by_client_error : ∃ s : Mux, (lts tunnelReadChunk).Reachable s ∧
    s.server.started < 2 ^ 32 ∧ ∃ H ∈ s.connector.tasks (s.server.tunnels 0).id,
      H.download.ending = some .eof ∧ H.download.closeSent = true ∧ s.down = [] ∧
      (s.server.tunnels 0).download.isOver ∧ (s.server.tunnels 0).download.failed = none ∧
      (s.server.tunnels 0).download.sink ≠ H.download.source := by
  obtain ⟨⟨M, C, up, down⟩, hr, hs⟩ := spliced_reachable tunnelReadChunk "http://localhost:80"
  obtain ⟨rfl, rfl⟩ : up = [] ∧ down = [] := hs.channels
  obtain ⟨C₁, C₂, C₃, C₄, C₅, C₆, hc1, hc2, hc3, hc4, hc5, hc6, H, hH, hsrc, hend, hclosed⟩ :=
    connector_respond tunnelReadChunk (p := [7]) (by simp) (by decide) (by decide) (hs.tasks 1)
  obtain ⟨M₁, M₂, M₃, hm1, hm2, hm3, hst, hgone, hread, hid, hph, hdl⟩ :=
    server_abandon hs.tunnel hs.streamOf hs.linkOpen hs.idle.1
  obtain ⟨M₄, hm4, hm5, hm6, hst', hid', hdl'⟩ := server_ignore hgone hread hid hph hdl
  have h3 := ((hr.step (.connectorTask hc1)).step (.connectorTask hc2)).step (.connectorTask hc3)
  have h6 := ((h3.step (.serverTask hm1)).step (.serverSend hm2)).step (.serverTask hm3)
  have h9 := ((h6.step (.connectorSend hc4)).step (.connectorTask hc5)).step (.connectorSend hc6)
  have h12 := ((h9.step (.serverRecv rfl hm4)).step (.serverRecv rfl hm5)).step (.serverTask hm6)
  refine ⟨_, h12, ?_, H, ?_, hend, hclosed, rfl, ?_⟩
  · have hone : M₄.started = 1 := hst'.trans (hst.trans hs.started)
    simp [hone]
  · simp [hid', hH]
  · simp [hdl', Drain.isOver, hsrc]

end Mux

end X2rp.Wss
