import X2rp.Exchange
import X2rp.Wss.Ends

/-! What holds of the connector's end of a stream on its own, when the server connects at most
once: before the `Connect` there is nothing, after it a refusal or one entry with its task. -/
namespace X2rp.Wss

open Proto Exchange

namespace Handler

variable {H H' : Handler} {a : Act} {b : Body} {chunk : Nat}

/-- The task has not told the server that its backend is up. -/
def pre (H : Handler) : Bool :=
  match H.pc with
  | .connecting | .sendErr _ | .sendOk => true
  | _ => false

/-- The cells the mux loop shares with a task are the mux loop's. -/
theorem step_shared (h : Step chunk H a H') : H'.aborted = H.aborted ∧
    H'.requestOpen = H.requestOpen := by
  cases h <;> exact ⟨rfl, rfl⟩

theorem step_target (h : Step chunk H a H') : H'.target = H.target := by
  cases h <;> rfl

theorem step_pre (h : Step chunk H a H') (hp : H'.pre = true) : H.pre = true ∧
    (∀ b, a ≠ .send b) ∧ (H.upload.queue = [] → H'.upload.queue = []) := by
  cases h with
  | @download a S hs h => by_cases hd : S.pc = .done <;> simp [pre, hd] at hp
  | _ => simp_all [pre]

theorem step_closeSent (h : Step chunk H a H') :
    H'.download.closeSent = true ↔ H.download.closeSent = true ∨ a = .send .close := by
  cases h with
  | download hp h => cases h <;> simp
  | uploadSend hp h =>
    cases h
    simp
  | _ => simp

/-- Nothing is read or sent after the `Close`. -/
theorem step_after_close (h : Step chunk H (.send b) H') (hd : H.download.pc = .done) :
    b.payload = [] := by
  cases h with
  | download hp h => cases h <;> simp_all
  | uploadSend hp h =>
    cases h
    rfl
  | _ => rfl

theorem step_upload_wf (hw : H.upload.WF) (h : Step chunk H a H') : H'.upload.WF := by
  cases h with
  | ignoreData hp hq => exact ⟨hw.failed, hw.drained⟩
  | upload hp h => exact hw.step h
  | uploadDrained hp h => exact hw.step h
  | uploadStarved hp h ho => exact hw.step h
  | uploadSend hp h => exact hw.step h
  | uploadSendFailed hp h => exact hw.step h
  | uploadShutdown hp hu => exact (Drain.over_move hw (.inl hu) (.inr (.inr rfl))).1
  | _ => exact hw

end Handler

/-- An entry of the connector's map with its task, which outlives it. -/
structure Entry where
  listed : Bool := true
  task : Handler

namespace Entry

variable {E E' : Entry} {chunk : Nat} {q : Port} {b : Body}

/-- Drop the entry: the task is aborted with it. -/
def drop (E : Entry) : Entry := ⟨false, E.task.abort⟩

/-- `handle_message` for a stream with this entry. -/
def take (E : Entry) (b : Body) : Entry :=
  if E.listed then
    match b with
    | .data p =>
      if E.task.requestOpen then
        if E.task.running then { E with task := E.task.enqueue p } else E.drop
      else E
    | .close => { E with task := E.task.closeRequest }
    | .reset => E.drop
    | .windowUpdate bytes => { E with task := E.task.addCredit bytes.toNat }
    | .connect _ | .connectOk | .connectErr _ => E
  else E

inductive Step (chunk : Nat) : Entry → Port → Entry → Prop
  | task {E : Entry} {H : Handler} (h : Handler.Step chunk E.task .tau H) :
      Step chunk E .internal { E with task := H }
  | taskSend {E : Entry} {H : Handler} {b : Body} (h : Handler.Step chunk E.task (.send b) H) :
      Step chunk E (.output b) { E with task := H }
  | recv {E : Entry} {b : Body} : Step chunk E (.input b) (E.take b)
  | retire {E : Entry} :
      Step chunk E .internal { E with listed := E.listed && E.task.pc != .finished }

def lts (chunk : Nat) : LTS Entry Port where
  Init E := ∃ target, E = { task := { target := target } }
  Tr := Step chunk

/-- The end that consists of this entry. -/
def toEnd (E : Entry) : ConnectorEnd := { entry := E.listed, handlers := [E.task] }

abbrev Run (chunk : Nat) (Q : ConnectorEnd → Prop) :=
  ((lts chunk).restrict fun E _ E' => Q E.toEnd ∧ Q E'.toEnd).Run

/-- What `handle_message` can do to an entry, case by case. -/
inductive Taken (E : Entry) : Body → Entry → Prop
  | unlisted {b : Body} (hl : E.listed = false) : Taken E b E
  | other {b : Body} (hl : E.listed = true) (hb : b.spliced = false) (hr : b ≠ .reset) :
      Taken E b E
  | late {p : Bytes} (hl : E.listed = true) (ho : E.task.requestOpen = false) :
      Taken E (.data p) E
  | data {p : Bytes} (hl : E.listed = true) (ho : E.task.requestOpen = true)
      (hr : E.task.running = true) : Taken E (.data p) { E with task := E.task.enqueue p }
  | gone {p : Bytes} (hl : E.listed = true) (ho : E.task.requestOpen = true)
      (hr : E.task.running = false) : Taken E (.data p) E.drop
  | close (hl : E.listed = true) : Taken E .close { E with task := E.task.closeRequest }
  | reset (hl : E.listed = true) : Taken E .reset E.drop
  | grant {bytes : UInt32} (hl : E.listed = true) :
      Taken E (.windowUpdate bytes) { E with task := E.task.addCredit bytes.toNat }

theorem taken (E : Entry) (b : Body) : Taken E b (E.take b) := by
  cases hl : E.listed with
  | false => simpa [take, hl] using Taken.unlisted hl
  | true =>
    cases b with
    | data p =>
      cases ho : E.task.requestOpen with
      | false => simpa [take, hl, ho] using Taken.late hl ho
      | true =>
        cases hr : E.task.running with
        | true => simpa [take, hl, ho, hr] using Taken.data (p := p) hl ho hr
        | false => simpa [take, hl, ho, hr] using Taken.gone (p := p) hl ho hr
    | close => simpa [take, hl] using Taken.close hl
    | reset => simpa [take, hl] using Taken.reset hl
    | windowUpdate bytes => simpa [take, hl] using @Taken.grant E bytes hl
    | _ => simpa [take, hl] using Taken.other hl rfl (by simp)

/-- An entry's task stays with the target it was spawned for. -/
theorem step_target (h : Step chunk E q E') : E'.task.target = E.task.target := by
  cases h with
  | task h => exact Handler.step_target h
  | taskSend h => exact Handler.step_target h
  | @recv b =>
    generalize hE : E.take b = E'
    cases (hE ▸ taken E b : Taken E b E') <;> rfl
  | retire => rfl

theorem take_toEnd (hb : b.isConnect = false) : E.toEnd.handle b = (E.take b).toEnd := by
  obtain ⟨listed, H⟩ := E
  cases listed <;> cases b <;>
    simp_all [toEnd, take, drop, ConnectorEnd.handle, ConnectorEnd.handleData,
      ConnectorEnd.modify, ConnectorEnd.remove, Body.isConnect]
  split
  · split <;> simp
  · simp

/-- The task's loops are in order, and an entry goes with its task: by abort, or swept away
after it has finished. -/
structure Sound (E : Entry) : Prop where
  download : E.task.download.WF
  upload : E.task.upload.WF
  listed : E.listed = true → E.task.aborted = false
  unlisted : E.listed = false → E.task.aborted = true ∨ E.task.pc = .finished

theorem Sound.drop (h : Sound E) : Sound E.drop :=
  ⟨h.download, h.upload, by simp [Entry.drop], by simp [Entry.drop]⟩

theorem Sound.taken (h : Sound E) (ht : Taken E b E') : Sound E' := by
  cases ht with
  | unlisted _ => exact h
  | other _ _ _ => exact h
  | late _ _ => exact h
  | data hl _ _ => exact ⟨h.download, ⟨h.upload.failed, h.upload.drained⟩, h.listed, h.unlisted⟩
  | gone _ _ _ => exact h.drop
  | close _ => exact ⟨h.download, h.upload, h.listed, h.unlisted⟩
  | reset _ => exact h.drop
  | grant _ => exact ⟨h.download.addCredit, h.upload, h.listed, h.unlisted⟩

/-- A finished task takes no step but its last one again. -/
theorem finished_step {H H' : Handler} {a : Act} (h : Handler.Step chunk H a H')
    (hp : H.pc = .finished) : H'.pc = .finished := by
  cases h <;> simp_all

theorem Sound.taskStep {H : Handler} {a : Act} (h : Sound E) (hs : Handler.Step chunk E.task a H)
    (ha : a ≠ .sendFailed) : Sound { E with task := H } := by
  obtain ⟨hab, -⟩ := Handler.step_shared hs
  refine ⟨(Handler.step_download h.download hs ha).1, Handler.step_upload_wf h.upload hs,
    fun hl => hab ▸ h.listed hl, fun hl => ?_⟩
  rcases h.unlisted hl with hx | hx
  · exact .inl (hab ▸ hx)
  · exact .inr (finished_step hs hx)

theorem Sound.step (h : Sound E) (hs : Step chunk E q E') : Sound E' := by
  cases hs with
  | task hs => exact h.taskStep hs (by simp)
  | taskSend hs => exact h.taskStep hs (by simp)
  | recv => exact h.taken (Entry.taken ..)
  | retire =>
    refine ⟨h.download, h.upload, fun hl => h.listed (by simp_all), fun hl => ?_⟩
    cases hE : E.listed with
    | false => exact h.unlisted hE
    | true => exact .inr (by simpa [hE] using hl)

theorem sound_init (h : (lts chunk).Init E) : Sound E := by
  obtain ⟨target, rfl⟩ := h
  exact ⟨Sender.wf_init, Drain.wf_init, fun _ => rfl, by simp⟩

/-- The download as the account that pays for what it sends. -/
def payer (E : Entry) : Account := ⟨E.task.download.funds, E.listed⟩

/-- The upload as the account that owes what it has received. -/
def payee (E : Entry) : Account := ⟨E.task.upload.owed, E.listed⟩

theorem payer_step (h : Sound E) (hs : Step chunk E q E')
    (hcap : E.payer.value + grantsIn q ≤ streamRecvWindow) :
    E.payer.Step (grantsIn q) (bytesOut q) E'.payer := by
  have hn : 0 ≤ E'.payer.value := (h.step hs).download.funds_nonneg
  cases hs with
  | task hs =>
    refine .of_eq id hn ?_
    simpa [payer, grantsIn, bytesOut, Act.payload] using
      (Handler.step_download h.download hs (by simp)).2.1
  | taskSend hs =>
    refine .of_eq id hn ?_
    simpa [payer, grantsIn, bytesOut, Act.payload] using
      (Handler.step_download h.download hs (by simp)).2.1
  | @recv b =>
    generalize hE : E.take b = E' at hn ⊢
    have ht : Taken E b E' := hE ▸ taken E b
    simp only [grantsIn, bytesOut] at hcap ⊢
    cases ht with
    | unlisted hl => exact .of_closed hl hn (by simp)
    | other hl hb hr => exact .of_eq id hn (by cases b <;> simp_all [Body.granted, Body.spliced])
    | late hl ho => exact .of_eq id hn (by simp [Body.granted])
    | data hl ho hr => exact .of_eq id hn (by simp [payer, Body.granted])
    | gone hl ho hr => exact .of_closed rfl hn (by simp [payer, drop])
    | close hl => exact .of_eq id hn (by simp [payer, Body.granted])
    | reset hl => exact .of_closed rfl hn (by simp [payer, drop])
    | grant hl =>
      refine .of_eq id hn ?_
      simpa [payer, Handler.addCredit, Body.granted] using h.download.funds_add hcap
  | retire => exact .of_eq (by simp_all [payer]) hn (by simp [payer, grantsIn, bytesOut])

theorem payee_step (h : Sound E) (hs : Step chunk E q E')
    (hcap : E.payee.value + bytesIn q ≤ streamRecvWindow)
    (hq : E.task.pc = .connecting → E.task.upload.queue = [])
    (hd : E.listed = true → E.task.requestOpen = false → bytesIn q = 0) :
    E.payee.Step (bytesIn q) (grantsOut q) E'.payee := by
  have hn : 0 ≤ E'.payee.value := Int.natCast_nonneg _
  have hg : E.task.upload.granting < 2 ^ 32 := by
    have hw : streamRecvWindow < 2 ^ 32 := by decide
    simp only [payee, Drain.owed] at hcap
    omega
  cases hs with
  | task hs =>
    refine .of_eq id hn ?_
    have := Handler.step_owed h.upload hs (by simp) hq hg
    simp_all [payee, bytesIn, grantsOut, Act.granted]
  | taskSend hs =>
    refine .of_eq id hn ?_
    have := Handler.step_owed h.upload hs (by simp) hq hg
    simp only [payee, bytesIn, grantsOut, Act.granted] at this ⊢
    omega
  | @recv b =>
    generalize hE : E.take b = E' at hn ⊢
    have ht : Taken E b E' := hE ▸ taken E b
    simp only [bytesIn, grantsOut] at hd ⊢
    cases ht with
    | unlisted hl => exact .of_closed hl hn (by simp)
    | other hl hb hr => exact .of_eq id hn (by cases b <;> simp_all [Body.payload, Body.spliced])
    | late hl ho => exact .of_eq id hn (by simp [hd hl ho])
    | data hl ho hr => exact .of_eq id hn (by simp [payee, Body.payload, Handler.enqueue_owed])
    | gone hl ho hr => exact .of_closed rfl hn (by simp [payee, drop])
    | close hl => exact .of_eq id hn (by simp [payee, Body.payload])
    | reset hl => exact .of_closed rfl hn (by simp [payee, drop])
    | grant hl => exact .of_eq id hn (by simp [payee, Body.payload])
  | retire => exact .of_eq (by simp_all [payee]) hn (by simp [payee, bytesIn, grantsOut])

section Runs

variable {Q : ConnectorEnd → Prop} {ins outs : List Body}

theorem sound_of_run (h : Run chunk Q ins outs E) : Sound E :=
  h.invariant (P := Sound) (fun _ h => @sound_init _ chunk h) fun _ _ _ h ht => h.step ht.1

/-- The task says nothing until its backend is up or down. -/
theorem silent_of_pre (h : Run chunk Q ins outs E) (hp : E.task.pre = true) : outs = [] := by
  induction h with
  | init _ => rfl
  | internal _ ht ih =>
    cases ht.1 with
    | task hs => exact ih (Handler.step_pre hs hp).1
    | retire => exact ih hp
  | output _ ht ih =>
    cases ht.1 with
    | taskSend hs => exact absurd rfl ((Handler.step_pre hs hp).2.1 _)
  | @input _ _ E _ b _ ht ih =>
    cases ht.1 with
    | recv =>
      refine ih ?_
      generalize hE : E.take b = E' at hp
      cases (hE ▸ taken E b : Taken E b E') <;> simpa [Handler.pre, drop] using hp

/-- No payload waits for a backend that is not up, if the server sends none. -/
theorem queue_of_pre (h : Run chunk Q ins outs E) (hp : E.task.pre = true)
    (hi : ∀ b ∈ ins, b.spliced = false) : E.task.upload.queue = [] := by
  induction h with
  | init h =>
    obtain ⟨target, rfl⟩ := h
    rfl
  | internal _ ht ih =>
    cases ht.1 with
    | task hs =>
      obtain ⟨hp, -, hq⟩ := Handler.step_pre hs hp
      exact hq (ih hp hi)
    | retire => exact ih hp hi
  | output _ ht ih =>
    cases ht.1 with
    | taskSend hs => exact absurd rfl ((Handler.step_pre hs hp).2.1 _)
  | @input _ _ E _ b _ ht ih =>
    obtain ⟨hi, hb⟩ := List.forall_mem_append.mp hi
    have hb : b.spliced = false := hb b (by simp)
    cases ht.1 with
    | recv =>
      generalize hE : E.take b = E' at hp
      cases (hE ▸ taken E b : Taken E b E') <;>
        simp_all [Handler.pre, drop, Body.spliced]

/-- A request side is closed by the server's `Close`, or with its entry. -/
theorem half_of_run (h : Run chunk Q ins outs E) (ho : E.task.requestOpen = false) :
    E.task.aborted = true ∨ .close ∈ ins := by
  induction h with
  | init h =>
    obtain ⟨target, rfl⟩ := h
    simp at ho
  | internal _ ht ih =>
    cases ht.1 with
    | task hs =>
      obtain ⟨hab, hreq⟩ := Handler.step_shared hs
      simpa [hab] using ih (hreq ▸ ho)
    | retire => exact ih ho
  | output _ ht ih =>
    cases ht.1 with
    | taskSend hs =>
      obtain ⟨hab, hreq⟩ := Handler.step_shared hs
      simpa [hab] using ih (hreq ▸ ho)
  | @input _ _ E _ b _ ht ih =>
    cases ht.1 with
    | recv =>
      generalize hE : E.take b = E' at ho
      cases (hE ▸ taken E b : Taken E b E') <;> simp_all [drop] <;> tauto

theorem closing_of_run (h : Run chunk Q ins outs E) : Closing outs E.task.download := by
  induction h with
  | init h =>
    obtain ⟨target, rfl⟩ := h
    exact closing_init
  | internal hr ht ih =>
    cases ht.1 with
    | task hs =>
      refine ih.congr ?_ ?_
      · simpa [Act.payload] using
          (Handler.step_download (sound_of_run hr).download hs (by simp)).2.2
      · simpa using Handler.step_closeSent hs
    | retire => exact ih
  | output hr ht ih =>
    have hS := sound_of_run hr
    cases ht.1 with
    | taskSend hs =>
      exact ih.send (Handler.step_download hS.download hs (by simp)).2.2
        (by simpa using Handler.step_closeSent hs)
        fun hc => Handler.step_after_close hs (hS.download.closed hc).1
  | @input _ _ E _ b _ ht ih =>
    cases ht.1 with
    | recv =>
      generalize hE : E.take b = E'
      cases (hE ▸ taken E b : Taken E b E') <;> exact ih.congr (by simp [drop]) (by simp [drop])

theorem small_sent (h : Run chunk Q ins outs E) : E.task.download.pending.length ≤ chunk ∧
    ∀ b ∈ outs, b.payload.length ≤ chunk := by
  induction h with
  | init h =>
    obtain ⟨target, rfl⟩ := h
    simp [Sender.pending]
  | internal _ ht ih =>
    cases ht.1 with
    | task hs => exact ⟨(Handler.step_pending hs ih.1).1, ih.2⟩
    | retire => exact ih
  | output _ ht ih =>
    cases ht.1 with
    | taskSend hs =>
      obtain ⟨hp, hb⟩ := Handler.step_pending hs ih.1
      exact ⟨hp, List.forall_mem_append.mpr ⟨ih.2, by simpa [Act.payload] using hb⟩⟩
  | @input _ _ E _ b _ ht ih =>
    refine ⟨?_, ih.2⟩
    cases ht.1 with
    | recv =>
      generalize hE : E.take b = E'
      cases (hE ▸ taken E b : Taken E b E') <;> simpa [Sender.pending, drop] using ih.1

theorem small_held (h : Run chunk Q ins outs E) {n : Nat}
    (hi : ∀ b ∈ ins, b.payload.length ≤ n) : E.task.upload.Small n := by
  induction h with
  | init h =>
    obtain ⟨target, rfl⟩ := h
    exact Drain.small_init
  | internal _ ht ih =>
    cases ht.1 with
    | task hs => exact Handler.step_small hs (ih hi)
    | retire => exact ih hi
  | output _ ht ih =>
    cases ht.1 with
    | taskSend hs => exact Handler.step_small hs (ih hi)
  | @input _ _ E _ b _ ht ih =>
    obtain ⟨hi, hb⟩ := List.forall_mem_append.mp hi
    have hd := ih hi
    cases ht.1 with
    | recv =>
      generalize hE : E.take b = E'
      cases (hE ▸ taken E b : Taken E b E') with
      | data _ _ _ => exact hd.enqueue (by simpa [Body.payload] using hb)
      | _ => simpa [drop] using hd

end Runs

end Entry

namespace ConnectorEnd

variable {C C' : ConnectorEnd} {E : Entry} {chunk : Nat} {q : Port} {b : Body}
  {Q : ConnectorEnd → Prop} {ins outs : List Body}

theorem step_task {H H' : Handler} (ht : C.handlers = [H]) (h : Handler.Step chunk H .tau H') :
    Step chunk C .internal { C with handlers := [H'] } :=
  .handler (show C.handlers = [] ++ H :: [] from ht) h

theorem step_taskSend {H H' : Handler} (ht : C.handlers = [H])
    (h : Handler.Step chunk H (.send b) H') : Step chunk C (.output b) { C with handlers := [H'] } :=
  .handlerSend (show C.handlers = [] ++ H :: [] from ht) h

/-- What the end is like before its first `Connect` and after a refused one. -/
theorem handle_none {n : Nat} (b : Body) :
    ({ refusals := n } : ConnectorEnd).handle b = { refusals := n } := by
  cases b <;> simp [handle, handleData, remove]

/-- A step of an end without an entry. -/
theorem step_none {n : Nat} (h : Step chunk { refusals := n } q C')
    (hq : ∀ target, q ≠ .input (.connect target)) : C' = { refusals := n } ∨
      (∃ k, n = k + 1 ∧ q = .output (.connectErr "connector overloaded") ∧
        C' = { refusals := k }) := by
  cases h with
  | handler ht _ => simp at ht
  | handlerSend ht _ => simp at ht
  | @refuse k h => exact .inr ⟨k, h, rfl, rfl⟩
  | recv hb => exact .inl (handle_none _)
  | accept => exact absurd rfl (hq _)
  | overload => exact absurd rfl (hq _)
  | retire => exact .inl (by simp [ConnectorEnd.retire])

theorem step_connect {target : String} (h : Step chunk {} (.input (.connect target)) C') :
    C' = Entry.toEnd { task := { target := target } } ∨ C' = { refusals := 1 } := by
  cases h with
  | recv hb => exact absurd rfl (hb _)
  | accept => exact .inl (by simp [ConnectorEnd.retire, remove, Entry.toEnd])
  | overload => exact .inr (by simp [ConnectorEnd.retire, remove])

/-- A step of an end with an entry is a step of the entry. -/
theorem step_entry (h : Step chunk E.toEnd q C') (hq : ∀ target, q ≠ .input (.connect target)) :
    ∃ E', Entry.Step chunk E q E' ∧ C' = E'.toEnd := by
  have hsplit : ∀ {H newer older}, E.toEnd.handlers = newer ++ H :: older →
      newer = [] ∧ H = E.task ∧ older = [] := by
    intro H newer older ht
    rcases newer with - | ⟨x, newer⟩
    · simpa [Entry.toEnd, eq_comm] using ht
    · simp [Entry.toEnd] at ht
  cases h with
  | handler ht h =>
    obtain ⟨rfl, rfl, rfl⟩ := hsplit ht
    exact ⟨_, .task h, rfl⟩
  | handlerSend ht h =>
    obtain ⟨rfl, rfl, rfl⟩ := hsplit ht
    exact ⟨_, .taskSend h, rfl⟩
  | refuse h => simp [Entry.toEnd] at h
  | @recv b hb =>
    refine ⟨_, .recv, Entry.take_toEnd ?_⟩
    cases b <;> simp_all [Body.isConnect]
  | accept => exact absurd rfl (hq _)
  | overload => exact absurd rfl (hq _)
  | retire => exact ⟨_, .retire, rfl⟩

/-- The three ways an end can stand that has seen at most one `Connect`. -/
inductive Course (chunk : Nat) (Q : ConnectorEnd → Prop) :
    List Body → List Body → ConnectorEnd → Prop
  | idle {ins : List Body} (hi : ∀ b ∈ ins, b.isConnect = false) : Course chunk Q ins [] {}
  | refused {ins outs : List Body} {n : Nat} (hi : ∃ b ∈ ins, b.isConnect = true)
      (ho : n = 1 ∧ outs = [] ∨ n = 0 ∧ outs = [.connectErr "connector overloaded"]) :
      Course chunk Q ins outs { refusals := n }
  | entry {before ins outs : List Body} {E : Entry}
      (hb : ∀ b ∈ before, b.isConnect = false) (h : Entry.Run chunk Q ins outs E) :
      Course chunk Q (before ++ .connect E.task.target :: ins) outs E.toEnd

/-- A course with a task is that of the task's entry. -/
theorem Course.of_task {H : Handler} (h : Course chunk Q ins outs C) (hH : H ∈ C.handlers) :
    ∃ before after E, ins = before ++ .connect E.task.target :: after ∧
      (∀ b ∈ before, b.isConnect = false) ∧ Entry.Run chunk Q after outs E ∧ C = E.toEnd ∧
      H = E.task := by
  cases h with
  | idle => simp at hH
  | refused => simp at hH
  | entry hb hr => exact ⟨_, _, _, rfl, hb, hr, rfl, List.mem_singleton.mp hH⟩

theorem Course.step_internal (h : Course chunk Q ins outs C) (hs : Step chunk C .internal C')
    (hQ : Q C ∧ Q C') : Course chunk Q ins outs C' := by
  cases h with
  | idle hi =>
    rcases step_none hs (by simp) with rfl | ⟨k, hk, -⟩
    · exact .idle hi
    · simp at hk
  | refused hi ho =>
    rcases step_none hs (by simp) with rfl | ⟨k, hk, he, -⟩
    · exact .refused hi ho
    · simp at he
  | entry hb h =>
    obtain ⟨E', hE, rfl⟩ := step_entry hs (by simp)
    rw [← Entry.step_target hE]
    exact .entry hb (h.internal ⟨hE, hQ⟩)

theorem Course.step_output (h : Course chunk Q ins outs C) (hs : Step chunk C (.output b) C')
    (hQ : Q C ∧ Q C') : Course chunk Q ins (outs ++ [b]) C' := by
  cases h with
  | idle hi =>
    cases hs with
    | handlerSend ht _ => simp at ht
    | refuse h => simp at h
  | refused hi ho =>
    cases hs with
    | handlerSend ht _ => simp at ht
    | @refuse k hk =>
      obtain ⟨h1, rfl⟩ | ⟨h0, -⟩ := ho
      · exact .refused hi (.inr ⟨by simp at hk; omega, rfl⟩)
      · simp [h0] at hk
  | entry hb h =>
    obtain ⟨E', hE, rfl⟩ := step_entry hs (by simp)
    rw [← Entry.step_target hE]
    exact .entry hb (h.output ⟨hE, hQ⟩)

theorem Course.step_input (h : Course chunk Q ins outs C) (hs : Step chunk C (.input b) C')
    (hQ : Q C ∧ Q C') (hc : (ins ++ [b]).countP Body.isConnect ≤ 1) :
    Course chunk Q (ins ++ [b]) outs C' := by
  have hnot : (∃ b ∈ ins, b.isConnect = true) → b.isConnect = false := by
    intro hi
    have := List.countP_pos_iff.mpr hi
    by_contra hb
    simp only [Bool.not_eq_false] at hb
    simp only [List.countP_append, List.countP_singleton, hb, if_true] at hc
    omega
  have hport : b.isConnect = false → ∀ target, LTS.Port.input b ≠ .input (.connect target) := by
    rintro hb target h
    cases h
    simp [Body.isConnect] at hb
  cases h with
  | idle hi =>
    cases hb : b.isConnect with
    | false =>
      rcases step_none hs (hport hb) with rfl | ⟨k, hk, -⟩
      · exact .idle (List.forall_mem_append.mpr ⟨hi, by simpa using hb⟩)
      · simp at hk
    | true =>
      obtain ⟨target, rfl⟩ : ∃ target, b = .connect target := by
        cases b <;> simp_all [Body.isConnect]
      rcases step_connect hs with rfl | rfl
      · exact .entry hi (.init ⟨target, rfl⟩)
      · exact .refused ⟨_, by simp, hb⟩ (.inl ⟨rfl, rfl⟩)
  | refused hi ho =>
    rcases step_none hs (hport (hnot hi)) with rfl | ⟨k, hk, he, -⟩
    · obtain ⟨c, hc, hcc⟩ := hi
      exact .refused ⟨c, List.mem_append_left _ hc, hcc⟩ ho
    · simp at he
  | entry hb h =>
    have hb' := hnot ⟨_, List.mem_append_right _ List.mem_cons_self, rfl⟩
    obtain ⟨E', hE, rfl⟩ := step_entry hs (hport hb')
    rw [List.append_assoc, List.cons_append, ← Entry.step_target hE]
    exact .entry hb (h.input ⟨hE, hQ⟩)

theorem course_of_run (h : Run chunk Q ins outs C) (hc : ins.countP Body.isConnect ≤ 1) :
    Course chunk Q ins outs C := by
  induction h with
  | init h =>
    cases h
    exact .idle (by simp)
  | internal _ ht ih => exact (ih hc).step_internal ht.1 ht.2
  | output _ ht ih => exact (ih hc).step_output ht.1 ht.2
  | input _ ht ih =>
    refine (ih ?_).step_input ht.1 ht.2 hc
    rw [List.countP_append] at hc
    omega

end ConnectorEnd

end X2rp.Wss
