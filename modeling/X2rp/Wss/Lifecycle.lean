import X2rp.Wss.Conservation

/-! How a stream ends: every exit of one end tells the other. -/
namespace X2rp.Wss

open Proto

/-- The loop ended because its queue was empty and closed. -/
def Drain.finished (D : Drain) : Prop := D.isOver ∧ D.failed = none

theorem Drain.step_finished {D D' : Drain} {a : Act} (h : Drain.Step D a D')
    (ha : a ≠ .starved) (hf : a ≠ .sendFailed) : ¬ D'.finished := by
  cases h <;> simp_all [finished, isOver]

namespace Tunnel

variable {T T' : Tunnel} {a : Act} {b : Body} {chunk : Nat}

/-- The tunnel reads its client no more. -/
def stopped (T : Tunnel) : Prop :=
  T.phase = .finish ∨ T.phase = .ended ∨
    T.phase = .splice ∧ (T.upload.pc = .remove ∨ T.upload.pc = .done)

/-- The tunnel's next act is to remove its stream, with nothing more to tell the connector. -/
def exiting (T : Tunnel) : Prop := T.phase = .finish ∨ T.upload.pc = .remove

theorem step_stopped (h : Step chunk T a T') (hs : T.stopped) : T'.stopped ∧
    ∀ b, a = .send b → b.payload = [] ∧ b ≠ .close := by
  cases h with
  | upload hp h => cases h <;> simp_all [stopped]
  | download hp h _ => cases h <;> simp_all [stopped, Body.payload]
  | _ => simp_all [stopped, Body.payload]

theorem step_reset (h : Step chunk T (.send .reset) T') : T'.stopped ∧
    (T'.exiting ∨ T.phase = .sendReset) := by
  cases h with
  | upload hp h => cases h
  | download hp h _ => cases h
  | _ => simp_all [stopped, exiting]

/-- A tunnel starts to leave by sending `Reset`, or when its download has finished. -/
theorem step_exiting (h : Step chunk T a T') (ha : a ≠ .send .reset) (hr : a ≠ .remove)
    (hf : a ≠ .sendFailed) : (T'.exiting ↔ T.exiting) ∨ T.download.finished := by
  cases h with
  | upload hp h => cases h <;> simp_all [exiting]
  | download hp h _ => cases h <;> simp_all [exiting]
  | downloadDrained hp h => cases h <;> simp_all [exiting]
  | shutdownClean hp hd hn => exact .inr ⟨.inl hd, hn⟩
  | _ => simp_all [exiting]

theorem step_remove (h : Step chunk T .remove T') : T.exiting ∨
    T.phase = .unsent ∧ T'.phase = .ended ∨ T'.phase = .sendReset := by
  cases h with
  | upload hp h => cases h
  | download hp h _ => cases h
  | _ => simp_all [exiting]

theorem step_finished (h : Step chunk T a T') (hs : a ≠ .starved) (hf : a ≠ .sendFailed)
    (hd : T'.download.finished) :
    T.download.finished ∧ T'.download.queue = T.download.queue := by
  cases h with
  | download hp h _ => exact absurd hd (Drain.step_finished h hs hf)
  | downloadDrained hp h => exact absurd hd (Drain.step_finished h (by simp) (by simp))
  | shutdownFailed hp hp' hn => exact absurd hd.2 hn
  | shutdownClean hp hp' hn => exact ⟨⟨.inl hp', hn⟩, rfl⟩
  | downloadReset hp hp' => exact ⟨⟨.inr (.inl hp'), hd.2⟩, rfl⟩
  | downloadResetFailed hp hp' => exact absurd rfl hf
  | _ => exact ⟨hd, rfl⟩

theorem step_sendReset (h : Step chunk T a T') (hp : T.phase = .sendReset) :
    a = .send .reset ∨ a = .sendFailed := by
  cases h <;> simp_all

end Tunnel

namespace ServerEnd

variable {S S' : ServerEnd} {chunk : Nat} {q : Port} {b : Body} {p : Bytes}
  {ins outs : List Body}

/-- The first message out is the `Connect`, and a tunnel that sent none has sent nothing. -/
def Opening (outs : List Body) (T : Tunnel) : Prop :=
  outs = [] ∧ (T.phase = .sendConnect ∨ T.phase = .unsent ∨ T.phase = .ended) ∨
  (∃ target rest, outs = .connect target :: rest) ∧ T.phase ≠ .sendConnect ∧ T.phase ≠ .unsent

theorem opening_step {T T' : Tunnel} {a : Act} (h : Opening outs T) (hs : Tunnel.Step chunk T a T')
    (ha : ∀ b, a ≠ .send b) : Opening outs T' := by
  cases hs <;> simp_all [Opening]

theorem opening_send {T T' : Tunnel} (h : Opening outs T) (hs : Tunnel.Step chunk T (.send b) T') :
    Opening (outs ++ [b]) T' := by
  rcases h with ⟨rfl, hp⟩ | ⟨⟨target, rest, rfl⟩, hp⟩ <;> cases hs <;> simp_all [Opening]

theorem Opening.first {T : Tunnel} {before rest : List Body} {target : String}
    (h : Opening (before ++ .connect target :: rest) T)
    (hb : ∀ b ∈ before, b.isConnect = false) : before = [] := by
  rcases h with ⟨ho, -⟩ | ⟨⟨target', rest', ho⟩, -⟩
  · simp at ho
  · rcases before with - | ⟨b, before⟩
    · rfl
    · obtain ⟨rfl, -⟩ := List.cons.inj ho
      simpa [Body.isConnect] using hb _ List.mem_cons_self

/-- No stream has been reset for exceeding its window. -/
def calm (S : ServerEnd) : Prop := S.resets = 0

/-- A registered end has sent `Reset` only if it is about to remove its entry, and an end whose
entry is gone has sent it, is about to, was told by the connector, or never connected. -/
structure Leaving (ins outs : List Body) (S : ServerEnd) : Prop where
  opening : Opening outs S.tunnel
  listed : S.registered = true → (.reset ∈ outs ↔ S.tunnel.exiting)
  drained : S.tunnel.download.finished →
    S.registered = false ∧ S.hand = none ∧ S.tunnel.download.queue = []
  gone : S.registered = false → .reset ∈ outs ∨ S.tunnel.phase = .sendReset ∨ .close ∈ ins ∨
    .reset ∈ ins ∨ outs = [] ∧ S.tunnel.phase = .ended

/-- A tunnel that is out of the table stays so for the same reason, until it sends its `Reset`. -/
theorem Leaving.gone_step {T : Tunnel} {a : Act} (h : Leaving ins outs S)
    (hs : Tunnel.Step chunk S.tunnel a T) (ha : a ≠ .send .reset) (hf : a ≠ .sendFailed)
    (hr : S.registered = false) : .reset ∈ outs ∨ T.phase = .sendReset ∨ .close ∈ ins ∨
      .reset ∈ ins ∨ outs = [] ∧ T.phase = .ended := by
  rcases h.gone hr with hg | hg | hg | hg | ⟨-, hg⟩
  · exact .inl hg
  · rcases Tunnel.step_sendReset hs hg with he | he
    · exact absurd he ha
    · exact absurd he hf
  · exact .inr (.inr (.inl hg))
  · exact .inr (.inr (.inr (.inl hg)))
  · exact absurd hg (Tunnel.step_ended hs)

theorem Leaving.tunnelStep {T : Tunnel} {a : Act} (h : Leaving ins outs S)
    (hs : Tunnel.Step chunk S.tunnel a T) (ha : ∀ b, a ≠ .send b) (hr : a ≠ .remove)
    (hst : a ≠ .starved) (hf : a ≠ .sendFailed) : Leaving ins outs { S with tunnel := T } where
  opening := opening_step h.opening hs ha
  listed hreg := by
    rcases Tunnel.step_exiting hs (ha _) hr hf with he | he
    · exact (h.listed hreg).trans he.symm
    · simp [(h.drained he).1] at hreg
  drained hd := by
    obtain ⟨hd, hq⟩ := Tunnel.step_finished hs hst hf hd
    obtain ⟨h1, h2, h3⟩ := h.drained hd
    exact ⟨h1, h2, hq.trans h3⟩
  gone hreg := h.gone_step hs (ha _) hf hreg

theorem Leaving.send {T : Tunnel} (h : Leaving ins outs S) (hS : Sound S)
    (hs : Tunnel.Step chunk S.tunnel (.send b) T) :
    Leaving ins (outs ++ [b]) { S with tunnel := T } where
  opening := opening_send h.opening hs
  listed hreg := by
    by_cases hb : b = .reset
    · subst hb
      have := (Tunnel.step_reset hs).2.resolve_right (hS.listed hreg).2
      simp [this]
    · rcases Tunnel.step_exiting hs (by simpa using hb) (by simp) (by simp) with he | he
      · simpa [Ne.symm hb] using (h.listed hreg).trans he.symm
      · simp [(h.drained he).1] at hreg
  drained hd := by
    obtain ⟨hd, hq⟩ := Tunnel.step_finished hs (by simp) (by simp) hd
    obtain ⟨h1, h2, h3⟩ := h.drained hd
    exact ⟨h1, h2, hq.trans h3⟩
  gone hreg := by
    rcases h.gone hreg with hg | hg | hg | hg | ⟨-, hg⟩
    · exact .inl (List.mem_append_left _ hg)
    · rcases Tunnel.step_sendReset hs hg with he | he
      · cases he
        exact .inl (by simp)
      · simp at he
    · exact .inr (.inr (.inl hg))
    · exact .inr (.inr (.inr (.inl hg)))
    · exact absurd hg (Tunnel.step_ended hs)

theorem Leaving.remove {T : Tunnel} (h : Leaving ins outs S)
    (hs : Tunnel.Step chunk S.tunnel .remove T) :
    Leaving ins outs ({ S with tunnel := T } : ServerEnd).remove where
  opening := by
    have := opening_step h.opening hs (by simp)
    simpa [Opening] using this
  listed hreg := by simp at hreg
  drained hd := by
    obtain ⟨hd, hq⟩ := Tunnel.step_finished hs (by simp) (by simp) (by simpa using hd)
    obtain ⟨h1, h2, h3⟩ := h.drained hd
    exact ⟨by simp, by simpa using h2, by simpa using hq.trans h3⟩
  gone _ := by
    cases hreg : S.registered with
    | true =>
      rcases Tunnel.step_remove hs with he | ⟨hu, he⟩ | he
      · exact .inl ((h.listed hreg).mpr he)
      · refine .inr (.inr (.inr (.inr ⟨?_, by simpa using he⟩)))
        rcases h.opening with ⟨ho, -⟩ | ⟨-, -, hn⟩
        · exact ho
        · exact absurd hu hn
      · exact .inr (.inl (by simpa using he))
    | false => simpa using h.gone_step hs (by simp) (by simp) hreg

theorem Leaving.starved {T : Tunnel} (h : Leaving ins outs S)
    (hs : Tunnel.Step chunk S.tunnel .starved T) (hr : S.registered = false)
    (hh : S.hand = none) : Leaving ins outs { S with tunnel := T } where
  opening := opening_step h.opening hs (by simp)
  listed hreg := by simp [hr] at hreg
  drained _ := by
    refine ⟨hr, hh, ?_⟩
    cases hs with
    | upload hp h => cases h
    | download hp h _ =>
      cases h with
      | recvNone _ hq => exact hq
  gone _ := h.gone_step hs (by simp) (by simp) hr

theorem Leaving.congr (h : Leaving ins outs S) (hp : S'.tunnel.phase = S.tunnel.phase)
    (hu : S'.tunnel.upload.pc = S.tunnel.upload.pc)
    (hd : S'.tunnel.download = S.tunnel.download) (hr : S'.registered = S.registered)
    (hh : S'.hand = S.hand ∨ S.registered = true) : Leaving ins outs S' where
  opening := by simpa [Opening, hp] using h.opening
  listed hreg := by simpa [Tunnel.exiting, hp, hu] using h.listed (hr ▸ hreg)
  drained hf := by
    obtain ⟨h1, h2, h3⟩ := h.drained (hd ▸ hf)
    refine ⟨hr.trans h1, ?_, hd ▸ h3⟩
    rcases hh with hh | hh
    · exact hh.trans h2
    · simp [h1] at hh
  gone hreg := by simpa [hp] using h.gone (hr ▸ hreg)

theorem Leaving.answered {r : Answer} (h : Leaving ins outs S) : Leaving ins outs (S.answer r) :=
  h.congr (by simp) (by simp) (by simp) (by simp) (.inl (by simp))

theorem Leaving.told (h : Leaving ins outs S) (hb : b = .close ∨ b = .reset) :
    Leaving (ins ++ [b]) outs S.remove where
  opening := by simpa [Opening] using h.opening
  listed hreg := by simp at hreg
  drained hf := by simpa using (h.drained (by simpa using hf)).2
  gone _ := by rcases hb with rfl | rfl <;> simp

theorem Leaving.more (h : Leaving ins outs S) : Leaving (ins ++ [b]) outs S where
  opening := h.opening
  listed := h.listed
  drained := h.drained
  gone hreg := by
    rcases h.gone hreg with hg | hg | hg | hg | hg
    · exact .inl hg
    · exact .inr (.inl hg)
    · exact .inr (.inr (.inl (List.mem_append_left _ hg)))
    · exact .inr (.inr (.inr (.inl (List.mem_append_left _ hg))))
    · exact .inr (.inr (.inr (.inr hg)))

theorem Leaving.handled (h : Leaving ins outs S) (hc : S'.calm) (hb : Handled S b S') :
    Leaving (ins ++ [b]) outs S' := by
  cases hb with
  | connect => exact h.more
  | accepted => exact h.more.answered
  | refused => exact h.more.answered
  | told hb => exact h.told hb
  | stray _ => exact h.more
  | granted _ => exact h.more.congr rfl rfl rfl rfl (.inl rfl)
  | late _ => exact h.more
  | exceeded _ _ => simp [calm] at hc
  | within hr _ => exact h.more.congr rfl rfl rfl rfl (.inr hr)

theorem Leaving.deliver (h : Leaving ins outs S) (hS : Sound S) (hh : S.hand = some p) :
    Leaving ins outs (S.deliver p) := by
  have hf : ¬ S.tunnel.download.finished := fun hf => by simp [(h.drained hf).2.1] at hh
  by_cases hp : S.tunnel.phase = .ended
  · have hr : S.registered = false := by
      cases hr : S.registered with
      | false => rfl
      | true => exact absurd hp (hS.listed hr).1
    have he : S.deliver p = { S with hand := none } := by
      simp [ServerEnd.deliver, hp, ServerEnd.remove, hr]
    rw [he]
    exact ⟨h.opening, h.listed, fun hd => absurd hd hf, h.gone⟩
  · simp only [ServerEnd.deliver, if_neg hp]
    exact ⟨h.opening, h.listed, fun hd => absurd hd hf, h.gone⟩

theorem leaving_of_run (h : Run chunk calm ins outs S) : Leaving ins outs S := by
  induction h with
  | init h =>
    obtain ⟨target, id, rfl⟩ := h
    exact ⟨.inl ⟨rfl, .inl rfl⟩, by simp [Tunnel.exiting], by simp [Drain.finished, Drain.isOver],
      by simp⟩
  | internal hr ht ih =>
    cases ht.1 with
    | tunnel hs => exact ih.tunnelStep hs (by simp) (by simp) (by simp) (by simp)
    | tunnelRemove hs => exact ih.remove hs
    | tunnelStarved hs hreg hh => exact ih.starved hs hreg hh
    | failPending _ => exact Leaving.answered (ih.congr rfl rfl rfl rfl (.inl rfl))
    | deliver hh => exact ih.deliver (sound_of_run hr) hh
  | output hr ht ih =>
    cases ht.1 with
    | tunnelSend hs => exact ih.send (sound_of_run hr) hs
    | spawnedReset hn =>
      have := ht.2.1
      simp [calm, hn] at this
  | input _ ht ih =>
    have hc := ht.2.2
    cases ht.1 with
    | recv hh => exact ih.handled hc (handled ..)

/-- After its `Reset` the end sends no more of the client's bytes. -/
theorem reset_last (h : Run chunk calm ins outs S) : (.reset ∈ outs → S.tunnel.stopped) ∧
    outs.Pairwise fun a b => a = .reset → b.payload = [] ∧ b ≠ .close := by
  have hcongr : ∀ {S S' : ServerEnd}, S.tunnel.stopped → S'.tunnel.phase = S.tunnel.phase →
      S'.tunnel.upload.pc = S.tunnel.upload.pc → S'.tunnel.stopped := by
    intro S S' hs hp hu
    simpa [Tunnel.stopped, hp, hu] using hs
  induction h with
  | init h => exact ⟨by simp, .nil⟩
  | internal hr ht ih =>
    refine ⟨fun hm => ?_, ih.2⟩
    cases ht.1 with
    | tunnel hs => exact (Tunnel.step_stopped hs (ih.1 hm)).1
    | tunnelRemove hs =>
      have hst := (Tunnel.step_stopped hs (ih.1 hm)).1
      simpa [Tunnel.stopped] using hst
    | tunnelStarved hs _ _ => exact (Tunnel.step_stopped hs (ih.1 hm)).1
    | failPending _ => exact hcongr (ih.1 hm) (by simp) (by simp)
    | deliver hh =>
      refine hcongr (ih.1 hm) deliver_id_phase.2 ?_
      unfold ServerEnd.deliver
      split <;> simp
  | output hr ht ih =>
    cases ht.1 with
    | tunnelSend hs =>
      refine ⟨fun hm => ?_, List.pairwise_append.mpr ⟨ih.2, List.pairwise_singleton ..,
        fun a ha c hc hreset => ?_⟩⟩
      · rcases List.mem_append.mp hm with hm | hm
        · exact (Tunnel.step_stopped hs (ih.1 hm)).1
        · obtain rfl := List.mem_singleton.mp hm
          exact (Tunnel.step_reset hs).1
      · subst hreset
        rw [List.mem_singleton.mp hc]
        exact (Tunnel.step_stopped hs (ih.1 ha)).2 _ rfl
    | spawnedReset hn =>
      have := ht.2.1
      simp [calm, hn] at this
  | input _ ht ih =>
    cases ht.1 with
    | recv hh =>
      exact ⟨fun hm => hcongr (ih.1 hm) (handled ..).id_phase.2 (handled ..).fields.2.1, ih.2⟩

/-- What the end knows of the connector's answer, and that its `Close` removes the entry. -/
structure Heard (ins : List Body) (S : ServerEnd) : Prop where
  waiting : S.waiting = false → S.tunnel.answer ≠ none
  answered : (∃ b ∈ ins, b = .connectOk ∨ b.isErr = true) → S.tunnel.answer ≠ none
  closed : .close ∈ ins → S.registered = false

theorem Heard.congr (h : Heard ins S) (ha : S'.tunnel.answer = S.tunnel.answer)
    (hw : S'.waiting = S.waiting) (hr : S'.registered = true → S.registered = true) :
    Heard ins S' where
  waiting hn := ha ▸ h.waiting (hw ▸ hn)
  answered hb := ha ▸ h.answered hb
  closed hm := by
    cases hr' : S'.registered with
    | false => rfl
    | true => exact absurd (h.closed hm) (by simp [hr hr'])

theorem Heard.answer {r : Answer} (h : Heard ins S) : Heard ins (S.answer r) ∧
    (S.answer r).tunnel.answer ≠ none := by
  unfold ServerEnd.answer
  split
  · exact ⟨⟨by simp, by simp, h.closed⟩, by simp⟩
  · rename_i hw
    exact ⟨h, h.waiting (by simpa using hw)⟩

theorem Heard.more (h : Heard ins S) (hb : b ≠ .connectOk) (he : b.isErr = false)
    (hc : b ≠ .close) : Heard (ins ++ [b]) S where
  waiting := h.waiting
  answered hm := by
    obtain ⟨c, hm, hc'⟩ := hm
    rcases List.mem_append.mp hm with hm | hm
    · exact h.answered ⟨c, hm, hc'⟩
    · obtain rfl : c = b := List.mem_singleton.mp hm
      simp [hb, he] at hc'
  closed hm := h.closed (by simpa [Ne.symm hc] using hm)

theorem Heard.handled (h : Heard ins S) (hH : Handled S b S') : Heard (ins ++ [b]) S' := by
  have hans : ∀ r, (b = .connectOk ∨ b.isErr = true) → Heard (ins ++ [b]) (S.answer r) := by
    intro r hb
    obtain ⟨h1, h2⟩ := h.answer (r := r)
    refine ⟨h1.waiting, fun _ => h2, fun hm => h1.closed ?_⟩
    rcases hb with rfl | hb
    · simpa using hm
    · rcases List.mem_append.mp hm with hm | hm
      · exact hm
      · obtain rfl : Body.close = b := List.mem_singleton.mp hm
        simp [Body.isErr] at hb
  cases hH with
  | connect => exact h.more (by simp) rfl (by simp)
  | accepted => exact hans _ (.inl rfl)
  | refused => exact hans _ (.inr rfl)
  | told hb =>
    refine ⟨by simpa using h.waiting, fun hm => ?_, by simp⟩
    obtain ⟨c, hm, hc⟩ := hm
    rw [remove_fields.2.2.2.2.1]
    rcases List.mem_append.mp hm with hm | hm
    · exact h.answered ⟨c, hm, hc⟩
    · obtain rfl : c = b := List.mem_singleton.mp hm
      rcases hb with rfl | rfl <;> simp [Body.isErr] at hc
  | stray _ => exact h.more (by simp) rfl (by simp)
  | granted _ => exact (h.more (by simp) rfl (by simp)).congr rfl rfl id
  | late _ => exact h.more (by simp) rfl (by simp)
  | exceeded _ _ => exact (h.more (by simp) rfl (by simp)).congr (by simp) (by simp) (by simp)
  | within _ _ => exact (h.more (by simp) rfl (by simp)).congr rfl rfl id

theorem heard_of_run {P : ServerEnd → Prop} (h : Run chunk P ins outs S) : Heard ins S := by
  have htunnel : ∀ {T a} {S : ServerEnd}, Tunnel.Step chunk S.tunnel a T →
      T.answer = S.tunnel.answer := by
    intro T a S hs
    cases hs <;> rfl
  induction h with
  | init h =>
    obtain ⟨target, id, rfl⟩ := h
    exact ⟨by simp, by simp, by simp⟩
  | internal hr ht ih =>
    cases ht.1 with
    | tunnel hs => exact ih.congr (htunnel hs) rfl id
    | tunnelRemove hs => exact ih.congr (by simpa using htunnel hs) (by simp) (by simp)
    | tunnelStarved hs hreg hh => exact ih.congr (htunnel hs) rfl id
    | failPending _ =>
      refine (Heard.answer ?_).1
      exact ih.congr rfl rfl id
    | deliver hh =>
      refine ih.congr ?_ ?_ deliver_registered
      · unfold ServerEnd.deliver
        split <;> simp
      · unfold ServerEnd.deliver
        split <;> simp
  | output hr ht ih =>
    cases ht.1 with
    | tunnelSend hs => exact ih.congr (htunnel hs) rfl id
    | spawnedReset hn => exact ih.congr rfl rfl id
  | input _ ht ih =>
    cases ht.1 with
    | recv hh => exact ih.handled (handled ..)

end ServerEnd

namespace Handler

variable {H H' : Handler} {a : Act} {b : Body} {chunk : Nat}

/-- A task that has returned sends nothing, and none ever sends a `Reset`. -/
theorem step_send (h : Step chunk H (.send b) H') : H.running = true ∧ b ≠ .reset ∧
    (b = .connectOk ∨ b.isErr = true → H.pre = true) ∧
    (b = .close ∨ b.isErr = true → H'.running = false) := by
  cases h with
  | download hp h => cases h <;> simp_all [running, pre, Body.isErr]
  | uploadSend hp h =>
    cases h
    simp_all [running, pre, Body.isErr]
  | _ => simp_all [running, pre, Body.isErr]

theorem step_running (h : Step chunk H a H') (hr : H'.running = true) : H.running = true := by
  cases h with
  | finish hp => simp [running] at hr
  | reap ha => simp [running] at hr
  | _ => simp_all [running]

theorem step_closed (h : Step chunk H a H') :
    H'.download.credit.closed = H.download.credit.closed := by
  cases h with
  | download hp h =>
    cases h with
    | reserve hp hr =>
      obtain ⟨-, rfl⟩ := Sender.tryReserve_eq hr
      rfl
    | _ => rfl
  | _ => rfl

/-- A task stops when it has said so, or because it was aborted. -/
theorem step_stop (h : Step chunk H a H') (hf : a ≠ .sendFailed)
    (hc : H.download.credit.closed = false) (hr : H.running = true) (hr' : H'.running = false) :
    (∃ b, a = .send b ∧ (b = .close ∨ b.isErr = true)) ∨ H.aborted = true := by
  cases h with
  | @download a S hp h => cases h <;> simp_all [running]
  | _ => simp_all [running, Body.isErr]

end Handler

namespace Entry

variable {E E' : Entry} {chunk : Nat} {q : Port} {b : Body} {ins outs : List Body}
  {Q : ConnectorEnd → Prop}

/-- What the server has been told when a task is over, and what the entry has been told. -/
structure Telling (ins outs : List Body) (E : Entry) : Prop where
  open_ : E.task.download.credit.closed = false
  isOver : E.task.running = false ∨ E.task.aborted = true →
    .close ∈ outs ∨ (∃ b ∈ outs, b.isErr = true) ∨ .reset ∈ ins
  running : E.task.running = true → .close ∉ outs ∧ ∀ b ∈ outs, b.isErr = false
  err : (∃ b ∈ outs, b.isErr = true) → .connectOk ∉ outs
  reset : .reset ∉ outs
  dropped : .reset ∈ ins → E.listed = false

theorem Telling.taskStep {H : Handler} (h : Telling ins outs E)
    (hs : Handler.Step chunk E.task .tau H) : Telling ins outs { E with task := H } where
  open_ := (Handler.step_closed hs).trans h.open_
  isOver ho := by
    rw [(Handler.step_shared hs).1] at ho
    rcases ho with ho | ho
    · cases hr : E.task.running with
      | false => exact h.isOver (.inl hr)
      | true =>
        rcases Handler.step_stop hs (by simp) h.open_ hr ho with ⟨b, hb, -⟩ | ha
        · simp at hb
        · exact h.isOver (.inr ha)
    · exact h.isOver (.inr ho)
  running hr := h.running (Handler.step_running hs hr)
  err := h.err
  reset := h.reset
  dropped := h.dropped

theorem Telling.send {H : Handler} (h : Telling ins outs E) (hp : E.task.pre = true → outs = [])
    (hs : Handler.Step chunk E.task (.send b) H) :
    Telling ins (outs ++ [b]) { E with task := H } := by
  obtain ⟨hrun, hb, hpre, hstop⟩ := Handler.step_send hs
  obtain ⟨hcl, herr⟩ := h.running hrun
  refine ⟨(Handler.step_closed hs).trans h.open_, fun ho => ?_, fun hr => ?_, fun he => ?_, ?_,
    h.dropped⟩
  · rw [(Handler.step_shared hs).1] at ho
    rcases ho with ho | ho
    · rcases Handler.step_stop hs (by simp) h.open_ hrun ho with ⟨c, hc, hcc⟩ | ha
      · cases hc
        rcases hcc with rfl | hcc
        · exact .inl (by simp)
        · exact .inr (.inl ⟨b, by simp, hcc⟩)
      · rcases h.isOver (.inr ha) with ho | ⟨c, hc, hcc⟩ | ho
        · exact .inl (List.mem_append_left _ ho)
        · exact .inr (.inl ⟨c, List.mem_append_left _ hc, hcc⟩)
        · exact .inr (.inr ho)
    · rcases h.isOver (.inr ho) with ho | ⟨c, hc, hcc⟩ | ho
      · exact .inl (List.mem_append_left _ ho)
      · exact .inr (.inl ⟨c, List.mem_append_left _ hc, hcc⟩)
      · exact .inr (.inr ho)
  · have hbc : ¬ (b = .close ∨ b.isErr = true) := fun hbc => by simp [hstop hbc] at hr
    rw [not_or] at hbc
    refine ⟨by simp [hcl, Ne.symm hbc.1], List.forall_mem_append.mpr ⟨herr, ?_⟩⟩
    simpa using hbc.2
  · obtain ⟨c, hc, hcc⟩ := he
    rcases List.mem_append.mp hc with hc | hc
    · simp [herr c hc] at hcc
    · obtain rfl : c = b := List.mem_singleton.mp hc
      rw [hp (hpre (.inr hcc))]
      cases c <;> simp_all [Body.isErr]
  · simp [h.reset, Ne.symm hb]

theorem Telling.more (h : Telling ins outs E) (hb : b = .reset → E.listed = false) :
    Telling (ins ++ [b]) outs E where
  open_ := h.open_
  isOver ho := by
    rcases h.isOver ho with ho | ho | ho
    · exact .inl ho
    · exact .inr (.inl ho)
    · exact .inr (.inr (List.mem_append_left _ ho))
  running := h.running
  err := h.err
  reset := h.reset
  dropped hm := by
    rcases List.mem_append.mp hm with hm | hm
    · exact h.dropped hm
    · exact hb (List.mem_singleton.mp hm).symm

/-- The mux loop changes nothing that the two ends have told each other. -/
theorem Telling.congr {H : Handler} (h : Telling ins outs E) (hp : H.pc = E.task.pc)
    (hc : H.download.credit.closed = E.task.download.credit.closed)
    (ha : H.aborted = E.task.aborted) : Telling ins outs { E with task := H } := by
  have hr : H.running = E.task.running := by simp [Handler.running, hp]
  exact ⟨hc.trans h.open_, fun ho => h.isOver (by simpa [hr, ha] using ho),
    fun hrun => h.running (hr ▸ hrun), h.err, h.reset, h.dropped⟩

theorem Telling.drop (h : Telling ins outs E)
    (ho : .close ∈ outs ∨ (∃ b ∈ outs, b.isErr = true) ∨ .reset ∈ ins) :
    Telling ins outs E.drop :=
  ⟨h.open_, fun _ => ho, h.running, h.err, h.reset, fun _ => rfl⟩

theorem Telling.taken (h : Telling ins outs E) (ht : Taken E b E') :
    Telling (ins ++ [b]) outs E' := by
  cases ht with
  | unlisted hl => exact h.more fun _ => hl
  | other hl hb hr => exact h.more fun hb => absurd hb hr
  | late hl ho => exact h.more (by simp)
  | data hl ho hr => exact (h.more (by simp)).congr (by simp) (by simp) (by simp)
  | @gone p hl ho hr =>
    have h' := h.more (b := .data p) (by simp)
    exact h'.drop (h'.isOver (.inl hr))
  | close hl => exact (h.more (by simp)).congr (by simp) (by simp) (by simp)
  | reset hl =>
    exact ⟨h.open_, fun _ => .inr (.inr (by simp)), h.running, h.err, h.reset, fun _ => rfl⟩
  | grant hl =>
    exact (h.more (by simp)).congr (by simp) (by simp [Handler.addCredit]) (by simp)

theorem telling_of_run (h : Run chunk Q ins outs E) : Telling ins outs E := by
  induction h with
  | init h =>
    obtain ⟨target, rfl⟩ := h
    exact ⟨rfl, by simp [Handler.running], by simp, by simp, by simp, by simp⟩
  | internal _ ht ih =>
    cases ht.1 with
    | task hs => exact ih.taskStep hs
    | retire => exact ⟨ih.open_, ih.isOver, ih.running, ih.err, ih.reset,
        fun hm => by simp [ih.dropped hm]⟩
  | output hr ht ih =>
    cases ht.1 with
    | taskSend hs => exact ih.send (silent_of_pre hr) hs
  | input _ ht ih =>
    cases ht.1 with
    | recv => exact ih.taken (taken ..)

end Entry

/-- The tunnel has a send or a removal to make that waits for no peer. -/
def Tunnel.due (T : Tunnel) : Prop :=
  match T.phase with
  | .fetchId | .checkId | .insertPending | .insertStream | .sendConnect | .unsent | .giveUp
  | .sendReset | .finish => True
  | .awaitConnect => ∃ r, T.answer = some r ∧ r ≠ .ok
  | .splice =>
    (∃ p, T.upload.pc = .sendData p) ∨ T.upload.pc = .sendClose ∨ T.upload.pc = .sendReset ∨
      T.upload.pc = .remove ∨ (∃ n, T.download.pc = .grant n) ∨ T.download.pc = .shutdown ∨
      T.download.pc = .sendReset
  | .ended => False

/-- The same for a backend task, whose abort is the removal it may have pending. -/
def Handler.due (H : Handler) : Prop :=
  H.aborted = true ∧ H.pc ≠ .finished ∨
  match H.pc with
  | .sendErr _ | .sendOk => True
  | .splice =>
    (∃ p, H.download.pc = .sendData p) ∨ H.download.pc = .sendClose ∨ ∃ n, H.upload.pc = .grant n
  | .connecting | .returned | .finished => False

/-- No payload is queued for a backend that is not up. -/
def ConnectorEnd.Unfed (C : ConnectorEnd) : Prop :=
  ∀ H ∈ C.handlers, H.pre = true → H.upload.queue = []

namespace Stream

variable {s : Stream} {chunk : Nat}

/-- No message is in flight or about to be sent, and no removal is under way. -/
structure Quiescent (s : Stream) : Prop where
  up : s.up = []
  down : s.down = []
  refusals : s.connector.refusals = 0
  tunnel : ¬ s.server.tunnel.due
  tasks : ∀ H ∈ s.connector.handlers, ¬ H.due

/-- The runs of a reachable stream, with what is known of all its states. -/
theorem calm_runs (h : (lts chunk).Reachable s) : ∃ sIns sOuts cIns cOuts,
    Runs chunk ServerEnd.calm ConnectorEnd.Unfed s sIns sOuts cIns cOuts := by
  refine runs_of_reachable h (fun s hs => (within_of_reachable hs).1) fun s hs => ?_
  obtain ⟨_, _, _, _, hruns⟩ :=
    runs_of_reachable (P := fun _ => True) (Q := fun _ => True) hs (by simp) (by simp)
  exact (hruns.ready (q := .internal) (by simp)).queue

/-- A quiescent tunnel is waiting for the backend, spliced, or over. -/
theorem Quiescent.phase (h : Quiescent s) : s.server.tunnel.phase = .awaitConnect ∨
    s.server.tunnel.phase = .splice ∨ s.server.tunnel.phase = .ended := by
  have := h.tunnel
  cases hp : s.server.tunnel.phase <;> simp_all [Tunnel.due]

/-- An end that is registered and quiescent has sent no `Reset`. -/
theorem Quiescent.no_reset {sIns sOuts : List Body} (h : Quiescent s)
    (hr : ServerEnd.Run chunk ServerEnd.calm sIns sOuts s.server)
    (hreg : s.server.registered = true) : .reset ∉ sOuts := by
  intro hm
  have hex := ((ServerEnd.leaving_of_run hr).listed hreg).mp hm
  have hst := (ServerEnd.reset_last hr).1 hm
  have hend := (ServerEnd.sound_of_run hr).listed hreg
  have hdue := h.tunnel
  rcases hst with hp | hp | ⟨hp, -⟩
  · simp [Tunnel.due, hp] at hdue
  · exact hend.1 hp
  · simp_all [Tunnel.due, Tunnel.exiting]

section

variable {Q : ConnectorEnd → Prop} {sIns sOuts cIns cOuts : List Body}

/-- A registered, quiescent end waits for an answer or has got `ConnectOk`. -/
theorem Quiescent.answer (h : Quiescent s)
    (hr : ServerEnd.Run chunk ServerEnd.calm sIns sOuts s.server)
    (hreg : s.server.registered = true) :
    (∀ b ∈ sIns, b ≠ .connectOk ∧ b.isErr = false) ∨ .connectOk ∈ sIns := by
  by_cases hok : .connectOk ∈ sIns
  · exact .inr hok
  · have hun := ServerEnd.unanswered_of_run hr hok
    have hheard := ServerEnd.heard_of_run hr
    have hphase : s.server.tunnel.phase = .awaitConnect := by
      rcases h.phase with hp | hp | hp
      · exact hp
      · exact absurd hp hun.splice
      · exact absurd hp ((ServerEnd.sound_of_run hr).listed hreg).1
    have hnone : s.server.tunnel.answer = none := by
      cases ha : s.server.tunnel.answer with
      | none => rfl
      | some r =>
        have hok : ∀ r, s.server.tunnel.answer = some r → r = .ok := by
          simpa [Tunnel.due, hphase] using h.tunnel
        exact absurd (hok r ha ▸ ha) hun.answer
    refine .inl fun b hb => ⟨fun hb' => hok (hb' ▸ hb), ?_⟩
    by_contra he
    exact hheard.answered ⟨b, hb, .inr (by simpa using he)⟩ hnone

theorem Quiescent.running (h : Quiescent s)
    (hruns : Runs chunk ServerEnd.calm Q s sIns sOuts cIns cOuts)
    (hreg : s.server.registered = true) : ∃ H ∈ s.connector.handlers, H.running = true := by
  have hup : cIns = sOuts := by simpa [h.up] using hruns.up
  have hdown : sIns = cOuts.map Body.truncated := by simpa [h.down] using hruns.down
  have hlisted := (ServerEnd.sound_of_run hruns.server).listed hreg
  have hconnect : ∃ b ∈ cIns, b.isConnect = true := by
    rcases (ServerEnd.leaving_of_run hruns.server).opening with ⟨-, hp⟩ | ⟨⟨target, rest, ho⟩, -⟩
    · rcases h.phase with hp' | hp' | hp' <;> simp_all
    · exact ⟨_, by rw [hup, ho]; exact List.mem_cons_self, rfl⟩
  -- The connector has not refused: the server would have heard it, or heard a `ConnectOk`.
  have hok : (∃ b ∈ cOuts, b.isErr = true) → .connectOk ∈ cOuts := by
    rintro ⟨b, hb, he⟩
    have hb' : b.truncated ∈ sIns := hdown ▸ List.mem_map_of_mem hb
    rcases h.answer hruns.server hreg with hn | hok
    · simp [(hn _ hb').2, ← Body.truncated_isErr (b := b)] at he
    · exact (mem_map_truncated rfl).mp (hdown ▸ hok)
  have hclose : .close ∉ cOuts := by
    intro hc
    have := (ServerEnd.heard_of_run hruns.server).closed
      (hdown ▸ (mem_map_truncated rfl).mpr hc)
    simp [this] at hreg
  have hreset := h.no_reset hruns.server hreg
  have hrefused := h.refusals
  have hcourse := hruns.course
  generalize s.connector = C at hcourse hrefused
  cases hcourse with
  | idle hi =>
    obtain ⟨b, hb, hc⟩ := hconnect
    simp [hi b hb] at hc
  | refused hi ho =>
    rcases ho with ⟨h1, -⟩ | ⟨-, rfl⟩
    · simp [h1] at hrefused
    · simpa using hok ⟨_, List.mem_singleton_self _, rfl⟩
  | @entry before ins outs E hb hr =>
    refine ⟨E.task, List.mem_singleton_self _, ?_⟩
    have ht := Entry.telling_of_run hr
    by_contra hrun
    rcases ht.isOver (.inl (by simpa using hrun)) with ho | ho | ho
    · exact hclose ho
    · exact ht.err ho (hok ho)
    · exact hreset (hup ▸ List.mem_append_right _ (List.mem_cons_of_mem _ ho))

theorem Quiescent.registered {H : Handler} (h : Quiescent s)
    (hruns : Runs chunk ServerEnd.calm Q s sIns sOuts cIns cOuts)
    (hH : H ∈ s.connector.handlers) (hrun : H.running = true) : s.server.registered = true := by
  have hup : cIns = sOuts := by simpa [h.up] using hruns.up
  have hdown : sIns = cOuts.map Body.truncated := by simpa [h.down] using hruns.down
  have hdue := h.tasks H hH
  have hphase := h.phase
  have hleave := ServerEnd.leaving_of_run hruns.server
  obtain ⟨before, ins, E, rfl, hb, hr, -, rfl⟩ := hruns.course.of_task hH
  have ht := Entry.telling_of_run hr
  have hbefore : before = [] := (hup ▸ hleave.opening).first hb
  by_contra hreg
  rcases hleave.gone (by simpa using hreg) with hg | hg | hg | hg | ⟨hg, -⟩
  · have hl := ht.dropped (by simpa [← hup, hbefore] using hg)
    rcases (Entry.sound_of_run hr).unlisted hl with ha | hf
    · refine hdue (.inl ⟨ha, fun hf => ?_⟩)
      simp [Handler.running, hf] at hrun
    · simp [Handler.running, hf] at hrun
  · simp [hg] at hphase
  · exact (ht.running hrun).1 ((mem_map_truncated rfl).mp (hdown ▸ hg))
  · exact ht.reset ((mem_map_truncated rfl).mp (hdown ▸ hg))
  · simp [hg] at hup

end

/-- A quiescent stream is registered at the server exactly if its backend task runs. -/
theorem registered_iff_running (h : (lts chunk).Reachable s) (hq : Quiescent s) :
    s.server.registered = true ↔ ∃ H ∈ s.connector.handlers, H.running = true := by
  obtain ⟨sIns, sOuts, cIns, cOuts, hruns⟩ := calm_runs h
  exact ⟨hq.running hruns, fun ⟨H, hH, hrun⟩ => hq.registered hruns hH hrun⟩

end Stream

end X2rp.Wss
