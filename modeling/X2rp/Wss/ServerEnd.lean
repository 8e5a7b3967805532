import X2rp.Exchange
import X2rp.Wss.Ends

/-! What holds of the server's end of a stream on its own, whatever the connector sends. -/
namespace X2rp.Wss

open Proto Exchange

namespace Tunnel

variable {T T' : Tunnel} {a : Act} {b : Body} {chunk : Nat}

/-- A tunnel whose connect is not answered cannot reach its splice. -/
theorem step_unanswered (h : Step chunk T a T') (ha : T.answer ≠ some .ok)
    (hs : T.phase ≠ .splice) (hf : T.phase ≠ .finish) : T'.answer ≠ some .ok ∧
      T'.phase ≠ .splice ∧ T'.phase ≠ .finish ∧ ∀ b, a = .send b → b.spliced = false := by
  cases h <;> simp_all [Body.spliced]

/-- A tunnel connects once, as the first thing it does. -/
theorem step_connect (h : Step chunk T a T') : T'.phase ≠ .sendConnect ∧
    ∀ b, a = .send b → b.isConnect = true → T.phase = .sendConnect := by
  cases h with
  | upload hp h => cases h <;> simp_all [Body.isConnect]
  | download hp h _ => cases h <;> simp_all [Body.isConnect]
  | _ => simp_all [Body.isConnect]

theorem step_closeSent (h : Step chunk T a T') :
    T'.upload.closeSent = true ↔ T.upload.closeSent = true ∨ a = .send .close := by
  cases h with
  | upload hp h => cases h <;> simp
  | download hp h _ => cases h <;> simp
  | _ => simp

/-- Nothing is read or sent after the `Close`. -/
theorem step_after_close (h : Step chunk T (.send b) T') (hd : T.upload.pc = .done) :
    b.payload = [] := by
  cases h with
  | upload hp h => cases h <;> simp_all
  | download hp h _ =>
    cases h
    rfl
  | _ => rfl

end Tunnel

namespace ServerEnd

variable {S S' : ServerEnd} {chunk : Nat} {q : Port} {b : Body} {r : Answer} {p : Bytes}

/-- The payload the read loop has counted and not queued. -/
def handed (S : ServerEnd) : Bytes := S.hand.getD []

section Frame

@[simp] theorem remove_fields : S.remove.registered = false ∧ S.remove.waiting = S.waiting ∧
    S.remove.hand = S.hand ∧ S.remove.resets = S.resets ∧
    S.remove.tunnel.answer = S.tunnel.answer ∧ S.remove.tunnel.download = S.tunnel.download ∧
    S.remove.tunnel.outstanding = S.tunnel.outstanding ∧
    S.remove.tunnel.upload.pc = S.tunnel.upload.pc ∧
    S.remove.tunnel.upload.source = S.tunnel.upload.source ∧
    S.remove.tunnel.upload.sent = S.tunnel.upload.sent ∧
    S.remove.tunnel.upload.ending = S.tunnel.upload.ending ∧
    S.remove.tunnel.upload.closeSent = S.tunnel.upload.closeSent := by
  unfold remove
  split <;> simp_all [Tunnel.closeCredit]

@[simp] theorem answer_fields : (S.answer r).registered = S.registered ∧
    (S.answer r).hand = S.hand ∧ (S.answer r).resets = S.resets ∧
    (S.answer r).tunnel.upload = S.tunnel.upload ∧
    (S.answer r).tunnel.download = S.tunnel.download ∧
    (S.answer r).tunnel.outstanding = S.tunnel.outstanding := by
  unfold answer
  split <;> simp

theorem remove_funds : S.remove.tunnel.upload.funds = S.tunnel.upload.funds := by
  unfold remove
  split <;> rfl

theorem remove_upload_wf (h : S.tunnel.upload.WF) : S.remove.tunnel.upload.WF := by
  unfold remove
  split
  · exact h.closeCredit
  · exact h

/-- The read loop does not run the tunnel's own loops. -/
theorem Handled.fields (h : Handled S b S') : S'.tunnel.download = S.tunnel.download ∧
    S'.tunnel.upload.pc = S.tunnel.upload.pc ∧
    S'.tunnel.upload.source = S.tunnel.upload.source ∧
    S'.tunnel.upload.sent = S.tunnel.upload.sent ∧
    S'.tunnel.upload.ending = S.tunnel.upload.ending ∧
    S'.tunnel.upload.closeSent = S.tunnel.upload.closeSent := by
  cases h <;> simp [Tunnel.addCredit]

end Frame

/-- The loops are in order, `recv_outstanding` counts what is held, and the entry is gone before
the tunnel is. -/
structure Sound (S : ServerEnd) : Prop where
  upload : S.tunnel.upload.WF
  download : S.tunnel.download.WF
  counted : S.registered = true →
    S.tunnel.outstanding = S.tunnel.download.held + S.handed.length
  listed : S.registered = true → S.tunnel.phase ≠ .ended ∧ S.tunnel.phase ≠ .sendReset

theorem Sound.remove (h : Sound S) : Sound S.remove :=
  ⟨remove_upload_wf h.upload, by simpa using h.download, by simp, by simp⟩

theorem Sound.answer (h : Sound S) : Sound (S.answer r) :=
  ⟨by simpa using h.upload, by simpa using h.download, by simpa [handed] using h.counted,
    by simpa using h.listed⟩

theorem Sound.tunnelStep {T : Tunnel} {a : Act} (h : Sound S) (hs : Tunnel.Step chunk S.tunnel a T)
    (ha : a ≠ .sendFailed) (hr : a ≠ .remove) : Sound { S with tunnel := T } := by
  obtain ⟨hw, n, hn, ho⟩ := Tunnel.step_held h.download hs
  refine ⟨(Tunnel.step_upload h.upload hs ha).1, hw, fun hreg => ?_, fun hreg => ?_⟩
  · have := h.counted hreg
    simp only [handed] at this ⊢
    omega
  · have := (h.listed hreg).2
    constructor <;> intro hp
    · exact this (Tunnel.step_removed hs hr (.inr hp))
    · exact this (Tunnel.step_removed hs hr (.inl hp))

theorem Sound.handled (h : Sound S) (hh : S.hand = none) (hb : Handled S b S') : Sound S' := by
  cases hb with
  | connect => exact h
  | accepted => exact h.answer
  | refused => exact h.answer
  | told _ => exact h.remove
  | stray _ => exact h
  | granted _ => exact ⟨h.upload.addCredit, h.download, h.counted, h.listed⟩
  | late _ => exact h
  | exceeded _ _ => exact ⟨remove_upload_wf h.upload, by simpa using h.download, by simp, by simp⟩
  | within hr _ =>
    have := h.counted hr
    refine ⟨h.upload, h.download, fun _ => ?_, h.listed⟩
    simp only [handed, hh, Option.getD_none, List.length_nil] at this
    simp [handed, this]

theorem Sound.deliver (h : Sound S) (hh : S.hand = some p) : Sound (S.deliver p) := by
  unfold ServerEnd.deliver
  split
  · rename_i hp
    refine Sound.remove ⟨h.upload, h.download, fun hr => ?_, h.listed⟩
    exact absurd hp (h.listed hr).1
  · refine ⟨h.upload, Tunnel.enqueue_wf h.download, fun hr => ?_, h.listed⟩
    have := h.counted hr
    simp only [handed, hh, Option.getD_some] at this
    simp [handed, this]

theorem Sound.step (h : Sound S) (hs : Step chunk S q S') : Sound S' := by
  cases hs with
  | tunnel hs => exact h.tunnelStep hs (by simp) (by simp)
  | tunnelSend hs => exact h.tunnelStep hs (by simp) (by simp)
  | @tunnelRemove T hs =>
    have hw := Tunnel.step_upload h.upload hs (by simp)
    exact ⟨remove_upload_wf hw.1, by simpa using (Tunnel.step_held h.download hs).1, by simp,
      by simp⟩
  | tunnelStarved hs hr hh => exact h.tunnelStep hs (by simp) (by simp)
  | failPending hn => exact Sound.answer ⟨h.upload, h.download, h.counted, h.listed⟩
  | spawnedReset hn => exact ⟨h.upload, h.download, h.counted, h.listed⟩
  | recv hh => exact h.handled hh (ServerEnd.handled ..)
  | deliver hh => exact h.deliver hh

theorem sound_init (h : (lts chunk).Init S) : Sound S := by
  obtain ⟨target, id, rfl⟩ := h
  exact ⟨Sender.wf_init, Drain.wf_init, fun _ => rfl, by simp⟩

/-- The upload as the account that pays for what it sends. -/
def payer (S : ServerEnd) : Account := ⟨S.tunnel.upload.funds, S.registered⟩

/-- The download as the account that owes what it has received. -/
def payee (S : ServerEnd) : Account :=
  ⟨(S.tunnel.download.owed + S.handed.length : Nat), S.registered⟩

theorem deliver_registered (h : (S.deliver p).registered = true) : S.registered = true := by
  unfold deliver at h
  split at h
  · simp at h
  · exact h

theorem payer_step (h : Sound S) (hs : Step chunk S q S')
    (hcap : S.payer.value + grantsIn q ≤ streamRecvWindow) :
    S.payer.Step (grantsIn q) (bytesOut q) S'.payer := by
  have hn : 0 ≤ S'.payer.value := (h.step hs).upload.funds_nonneg
  cases hs with
  | tunnel hs =>
    refine .of_eq id hn ?_
    simpa [payer, grantsIn, bytesOut, Act.payload] using
      (Tunnel.step_upload h.upload hs (by simp)).2.1
  | tunnelSend hs =>
    refine .of_eq id hn ?_
    simpa [payer, grantsIn, bytesOut, Act.payload] using
      (Tunnel.step_upload h.upload hs (by simp)).2.1
  | tunnelRemove hs =>
    refine .of_closed (by simp [payer]) hn ?_
    have := (Tunnel.step_upload h.upload hs (by simp)).2.1
    simp only [payer, remove_funds, grantsIn, bytesOut]
    simp only [Act.payload, List.length_nil] at this
    omega
  | tunnelStarved hs hr hh =>
    refine .of_eq id hn ?_
    simpa [payer, grantsIn, bytesOut, Act.payload] using
      (Tunnel.step_upload h.upload hs (by simp)).2.1
  | failPending _ => exact .of_eq (by simp [payer]) hn (by simp [payer, grantsIn, bytesOut])
  | spawnedReset _ => exact .of_eq id hn (by simp [payer, grantsIn, bytesOut, Body.payload])
  | @recv b hh =>
    generalize hS : S.handle b = S' at hn ⊢
    have hb : Handled S b S' := hS ▸ handled S b
    simp only [grantsIn, bytesOut] at hcap ⊢
    cases hb with
    | connect => exact .of_eq id hn (by simp [Body.granted])
    | accepted => exact .of_eq (by simp [payer]) hn (by simp [payer, Body.granted])
    | refused => exact .of_eq (by simp [payer]) hn (by simp [payer, Body.granted])
    | told _ => exact .of_closed (by simp [payer]) hn (by simp [payer, remove_funds])
    | stray hr => exact .of_closed hr hn (by simp)
    | granted _ =>
      refine .of_eq id hn ?_
      simpa [payer, Tunnel.addCredit, Body.granted] using h.upload.funds_add hcap
    | late _ => exact .of_eq id hn (by simp [Body.granted])
    | exceeded _ _ => exact .of_closed (by simp [payer]) hn (by simp [payer, remove_funds])
    | within _ _ => exact .of_eq id hn (by simp [payer, Body.granted])
  | @deliver p hh =>
    refine .of_eq deliver_registered hn ?_
    simp only [payer, grantsIn, bytesOut, ServerEnd.deliver]
    split
    · simp [remove_funds]
    · simp

theorem payee_tunnelStep {T : Tunnel} {a : Act} (h : Sound S)
    (hs : Tunnel.Step chunk S.tunnel a T) (ha : a ≠ .sendFailed)
    (hcap : S.payee.value ≤ streamRecvWindow) :
    T.download.owed + a.granted = S.tunnel.download.owed := by
  have hw : streamRecvWindow < 2 ^ 32 := by decide
  refine Tunnel.step_owed h.download hs ha ?_
  simp only [payee, Drain.owed] at hcap
  omega

theorem payee_step (h : Sound S) (hs : Step chunk S q S')
    (hcap : S.payee.value + bytesIn q ≤ streamRecvWindow) :
    S.payee.Step (bytesIn q) (grantsOut q) S'.payee := by
  have hn : 0 ≤ S'.payee.value := Int.natCast_nonneg _
  have hcap' : S.payee.value ≤ streamRecvWindow := by omega
  cases hs with
  | tunnel hs =>
    refine .of_eq id hn ?_
    have := payee_tunnelStep h hs (by simp) hcap'
    simp_all [payee, handed, bytesIn, grantsOut, Act.granted]
  | tunnelSend hs =>
    refine .of_eq id hn ?_
    have := payee_tunnelStep h hs (by simp) hcap'
    simp only [payee, handed, bytesIn, grantsOut, Act.granted] at this ⊢
    omega
  | tunnelRemove hs =>
    refine .of_closed (by simp [payee]) hn ?_
    have := payee_tunnelStep h hs (by simp) hcap'
    simp_all [payee, handed, bytesIn, grantsOut, Act.granted]
  | tunnelStarved hs hr hh =>
    refine .of_eq id hn ?_
    have := payee_tunnelStep h hs (by simp) hcap'
    simp_all [payee, handed, bytesIn, grantsOut, Act.granted]
  | failPending _ => exact .of_eq (by simp [payee]) hn (by simp [payee, handed, bytesIn, grantsOut])
  | spawnedReset _ =>
    exact .of_eq id hn (by simp [payee, handed, bytesIn, grantsOut, Body.granted])
  | @recv b hh =>
    generalize hS : S.handle b = S' at hn ⊢
    have hb : Handled S b S' := hS ▸ handled S b
    simp only [bytesIn, grantsOut] at hcap ⊢
    cases hb with
    | connect => exact .of_eq id hn (by simp [Body.payload])
    | accepted => exact .of_eq (by simp [payee]) hn (by simp [payee, handed, Body.payload])
    | refused => exact .of_eq (by simp [payee]) hn (by simp [payee, handed, Body.payload])
    | told _ => exact .of_closed (by simp [payee]) hn (by simp [payee, handed])
    | stray _ => exact .of_eq id hn (by simp [Body.payload])
    | granted _ => exact .of_eq id hn (by simp [payee, handed, Body.payload])
    | late hr => exact .of_closed hr hn (by simp)
    | exceeded _ _ => exact .of_closed (by simp [payee]) hn (by simp [payee, handed])
    | within _ _ => exact .of_eq id hn (by simp [payee, handed, hh, Body.payload])
  | @deliver p hh =>
    by_cases hp : S.tunnel.phase = .ended
    · refine .of_closed (by simp [payee, ServerEnd.deliver, hp]) hn ?_
      simp [payee, handed, ServerEnd.deliver, hp, bytesIn, grantsOut]
    · refine .of_eq deliver_registered hn ?_
      simp [payee, handed, ServerEnd.deliver, hp, hh, Tunnel.enqueue_owed, bytesIn, grantsOut]

/-- The read loop resets no stream whose payloads fit the window. -/
theorem step_within (h : Sound S) (hs : Step chunk S q S') (h0 : S.resets = 0)
    (ho : S.tunnel.outstanding ≤ streamRecvWindow)
    (hd : ∀ p, q = .input (.data p) → S.registered = true →
      S.tunnel.outstanding + p.length ≤ streamRecvWindow) :
    S'.resets = 0 ∧ S'.tunnel.outstanding ≤ streamRecvWindow := by
  have htunnel : ∀ {a T}, Tunnel.Step chunk S.tunnel a T → T.outstanding ≤ streamRecvWindow := by
    intro a T hs
    obtain ⟨-, n, -, hn⟩ := Tunnel.step_held h.download hs
    omega
  cases hs with
  | tunnel hs => exact ⟨h0, htunnel hs⟩
  | tunnelSend hs => exact ⟨h0, htunnel hs⟩
  | tunnelRemove hs => exact ⟨by simpa using h0, by simpa using htunnel hs⟩
  | tunnelStarved hs _ _ => exact ⟨h0, htunnel hs⟩
  | failPending _ => exact ⟨by simpa using h0, by simpa using ho⟩
  | spawnedReset hn => simp [hn] at h0
  | @recv b hh =>
    generalize hS : S.handle b = S'
    have hb : Handled S b S' := hS ▸ handled S b
    cases hb with
    | exceeded hr hw => exact absurd (hd _ rfl hr) (Nat.not_le.mpr hw)
    | within _ hw => exact ⟨h0, hw⟩
    | _ => simpa using ⟨h0, ho⟩
  | deliver hh =>
    unfold ServerEnd.deliver
    split <;> simpa using ⟨h0, ho⟩

section Runs

variable {P : ServerEnd → Prop} {ins outs : List Body}

theorem sound_of_run (h : Run chunk P ins outs S) : Sound S :=
  h.invariant (P := Sound) (fun _ h => @sound_init _ chunk h) fun _ _ _ h ht => h.step ht.1

/-- The end has not spliced anything yet. -/
structure Unanswered (outs : List Body) (S : ServerEnd) : Prop where
  answer : S.tunnel.answer ≠ some .ok
  splice : S.tunnel.phase ≠ .splice
  finish : S.tunnel.phase ≠ .finish
  outs : ∀ b ∈ outs, b.spliced = false

theorem Unanswered.tunnelStep {T : Tunnel} {a : Act} (h : Unanswered outs S)
    (hs : Tunnel.Step chunk S.tunnel a T) : Unanswered outs { S with tunnel := T } := by
  obtain ⟨h1, h2, h3, -⟩ := Tunnel.step_unanswered hs h.answer h.splice h.finish
  exact ⟨h1, h2, h3, h.outs⟩

theorem Unanswered.remove (h : Unanswered outs S) : Unanswered outs S.remove :=
  ⟨by simpa using h.answer, by simpa using h.splice, by simpa using h.finish, h.outs⟩

theorem Unanswered.answered (h : Unanswered outs S) (hr : r ≠ .ok) :
    Unanswered outs (S.answer r) := by
  refine ⟨?_, by simpa using h.splice, by simpa using h.finish, h.outs⟩
  unfold ServerEnd.answer
  split
  · simpa using hr
  · exact h.answer

theorem Unanswered.handled (h : Unanswered outs S) (hb : b ≠ .connectOk) (hH : Handled S b S') :
    Unanswered outs S' := by
  cases hH with
  | connect => exact h
  | accepted => exact absurd rfl hb
  | refused => exact h.answered (by simp)
  | told _ => exact h.remove
  | stray _ => exact h
  | granted _ => exact ⟨h.answer, h.splice, h.finish, h.outs⟩
  | late _ => exact h
  | exceeded _ _ =>
    exact ⟨by simpa using h.answer, by simpa using h.splice, by simpa using h.finish, h.outs⟩
  | within _ _ => exact ⟨h.answer, h.splice, h.finish, h.outs⟩

theorem Unanswered.deliver (h : Unanswered outs S) : Unanswered outs (S.deliver p) := by
  unfold ServerEnd.deliver
  split
  · exact Unanswered.remove ⟨h.answer, h.splice, h.finish, h.outs⟩
  · exact ⟨h.answer, h.splice, h.finish, h.outs⟩

/-- The splice waits for the connector's `ConnectOk`. -/
theorem unanswered_of_run (h : Run chunk P ins outs S) (hi : Body.connectOk ∉ ins) :
    Unanswered outs S := by
  induction h with
  | init h =>
    obtain ⟨target, id, rfl⟩ := h
    exact ⟨by simp, by simp, by simp, by simp⟩
  | internal _ ht ih =>
    have hu := ih hi
    cases ht.1 with
    | tunnel hs => exact hu.tunnelStep hs
    | tunnelRemove hs => exact (hu.tunnelStep hs).remove
    | tunnelStarved hs _ _ => exact hu.tunnelStep hs
    | failPending _ =>
      exact Unanswered.answered ⟨hu.answer, hu.splice, hu.finish, hu.outs⟩ (by simp)
    | deliver hh => exact hu.deliver
  | @output ins outs S S' b _ ht ih =>
    have hu := ih hi
    cases ht.1 with
    | tunnelSend hs =>
      obtain ⟨h1, h2, h3, h4⟩ := Tunnel.step_unanswered hs hu.answer hu.splice hu.finish
      exact ⟨h1, h2, h3, List.forall_mem_append.mpr ⟨hu.outs, by simpa using h4 b rfl⟩⟩
    | spawnedReset _ =>
      exact ⟨hu.answer, hu.splice, hu.finish,
        List.forall_mem_append.mpr ⟨hu.outs, by simp [Body.spliced]⟩⟩
  | @input ins outs S S' b _ ht ih =>
    have hb : b ≠ .connectOk := by
      rintro rfl
      simp at hi
    have hu := ih fun hm => hi (List.mem_append_left _ hm)
    cases ht.1 with
    | recv hh => exact hu.handled hb (handled ..)

theorem closing_tunnelStep {T : Tunnel} {a : Act} (h : Closing outs S.tunnel.upload) (hS : Sound S)
    (hs : Tunnel.Step chunk S.tunnel a T) (ha : ∀ b, a ≠ .send b) (hf : a ≠ .sendFailed) :
    Closing outs T.upload := by
  refine h.congr ?_ ?_
  · have := (Tunnel.step_upload hS.upload hs hf).2.2
    cases a with
    | send b => exact absurd rfl (ha b)
    | _ => simpa [Act.payload] using this
  · have := Tunnel.step_closeSent hs
    simpa [ha] using this

theorem closing_of_run (h : Run chunk P ins outs S) : Closing outs S.tunnel.upload := by
  induction h with
  | init h =>
    obtain ⟨target, id, rfl⟩ := h
    exact closing_init
  | internal hr ht ih =>
    have hS := sound_of_run hr
    cases ht.1 with
    | tunnel hs => exact closing_tunnelStep ih hS hs (by simp) (by simp)
    | tunnelRemove hs =>
      exact (closing_tunnelStep ih hS hs (by simp) (by simp)).congr (by simp) (by simp)
    | tunnelStarved hs _ _ => exact closing_tunnelStep ih hS hs (by simp) (by simp)
    | failPending _ => exact ih.congr (by simp) (by simp)
    | deliver hh =>
      unfold ServerEnd.deliver
      split
      · exact ih.congr (by simp) (by simp)
      · exact ih.congr (by simp) (by simp)
  | output hr ht ih =>
    have hS := sound_of_run hr
    cases ht.1 with
    | tunnelSend hs =>
      exact ih.send (Tunnel.step_upload hS.upload hs (by simp)).2.2
        (by simpa using Tunnel.step_closeSent hs)
        fun hc => Tunnel.step_after_close hs (hS.upload.closed hc).1
    | spawnedReset _ => exact ih.send (by simp [Body.payload]) (by simp) fun _ => rfl
  | @input _ _ S _ b _ ht ih =>
    cases ht.1 with
    | recv hh =>
      have hf := (handled S b).fields
      exact ih.congr hf.2.2.2.1 (by simp [hf])

theorem small_sent (h : Run chunk P ins outs S) : S.tunnel.upload.pending.length ≤ chunk ∧
    ∀ b ∈ outs, b.payload.length ≤ chunk := by
  induction h with
  | init h =>
    obtain ⟨target, id, rfl⟩ := h
    simp [Sender.pending]
  | internal hr ht ih =>
    refine ⟨?_, ih.2⟩
    cases ht.1 with
    | tunnel hs => exact (Tunnel.step_pending hs ih.1).1
    | tunnelRemove hs => simpa [Sender.pending] using (Tunnel.step_pending hs ih.1).1
    | tunnelStarved hs _ _ => exact (Tunnel.step_pending hs ih.1).1
    | failPending _ => simpa using ih.1
    | deliver hh =>
      unfold ServerEnd.deliver
      split <;> simpa [Sender.pending] using ih.1
  | output hr ht ih =>
    cases ht.1 with
    | tunnelSend hs =>
      obtain ⟨hp, hb⟩ := Tunnel.step_pending hs ih.1
      exact ⟨hp, List.forall_mem_append.mpr ⟨ih.2, by simpa [Act.payload] using hb⟩⟩
    | spawnedReset _ =>
      exact ⟨ih.1, List.forall_mem_append.mpr ⟨ih.2, by simp [Body.payload]⟩⟩
  | @input _ _ S _ b _ ht ih =>
    cases ht.1 with
    | recv hh =>
      have hf := (handled S b).fields
      exact ⟨by simpa [Sender.pending, hf] using ih.1, ih.2⟩

theorem small_held (h : Run chunk P ins outs S) {n : Nat}
    (hi : ∀ b ∈ ins, b.payload.length ≤ n) :
    S.tunnel.download.Small n ∧ S.handed.length ≤ n := by
  induction h with
  | init h =>
    obtain ⟨target, id, rfl⟩ := h
    exact ⟨Drain.small_init, by simp [handed]⟩
  | internal hr ht ih =>
    obtain ⟨hd, hh⟩ := ih hi
    cases ht.1 with
    | tunnel hs => exact ⟨Tunnel.step_small hs hd, hh⟩
    | tunnelRemove hs => exact ⟨by simpa using Tunnel.step_small hs hd, by simpa [handed] using hh⟩
    | tunnelStarved hs _ _ => exact ⟨Tunnel.step_small hs hd, hh⟩
    | failPending _ => exact ⟨by simpa using hd, by simpa [handed] using hh⟩
    | @deliver p hp =>
      have hp' : p.length ≤ n := by simpa [handed, hp] using hh
      unfold ServerEnd.deliver
      split
      · exact ⟨by simpa using hd, by simp [handed]⟩
      · exact ⟨hd.enqueue hp', by simp [handed]⟩
  | output hr ht ih =>
    obtain ⟨hd, hh⟩ := ih hi
    cases ht.1 with
    | tunnelSend hs => exact ⟨Tunnel.step_small hs hd, hh⟩
    | spawnedReset _ => exact ⟨hd, hh⟩
  | @input ins outs S S' b _ ht ih =>
    obtain ⟨hi, hb⟩ := List.forall_mem_append.mp hi
    obtain ⟨hd, hh⟩ := ih hi
    cases ht.1 with
    | recv hn =>
      generalize hS : S.handle b = S'
      have hH : Handled S b S' := hS ▸ handled S b
      refine ⟨by simpa [hH.fields] using hd, ?_⟩
      cases hH with
      | within _ _ => simpa [handed, Body.payload] using hb
      | _ => simpa [handed] using hh

/-- The end connects at most once. -/
theorem connect_once (h : Run chunk P ins outs S) :
    outs.countP Body.isConnect + (if S.tunnel.phase = .sendConnect then 1 else 0) ≤ 1 := by
  induction h with
  | init h =>
    obtain ⟨target, id, rfl⟩ := h
    simp
  | internal _ ht ih =>
    cases ht.1 with
    | tunnel hs => simp [(Tunnel.step_connect hs).1]; omega
    | tunnelRemove hs => simp [(Tunnel.step_connect hs).1]; omega
    | tunnelStarved hs _ _ => simp [(Tunnel.step_connect hs).1]; omega
    | failPending _ => simpa using ih
    | deliver hh => rwa [deliver_id_phase.2]
  | @output _ _ _ _ b _ ht ih =>
    cases ht.1 with
    | tunnelSend hs =>
      obtain ⟨hp, hc⟩ := Tunnel.step_connect hs
      cases hb : b.isConnect with
      | false => simp [List.countP_append, hb, hp]; omega
      | true =>
        rw [if_pos (hc b rfl hb)] at ih
        simp only [List.countP_append, List.countP_singleton, hb, if_neg hp, if_true]
        omega
    | spawnedReset _ => simpa [List.countP_append, Body.isConnect] using ih
  | input _ ht ih =>
    cases ht.1 with
    | recv hh => rwa [(handled ..).id_phase.2]

end Runs

end ServerEnd

end X2rp.Wss
