import Mathlib.Algebra.BigOperators.Group.List.Basic
import X2rp.Wss.Tunnel
import X2rp.Wss.Handler

/-! Where the bytes of one direction are: what each loop holds and what its steps move. -/
namespace X2rp.Wss

open Proto

/-- The stream bytes a message carries. -/
def Body.payload : Body → Bytes
  | .data p => p
  | _ => []

/-- The bytes a message grants. -/
def Body.granted : Body → Nat
  | .windowUpdate bytes => bytes.toNat
  | _ => 0

def Act.payload : Act → Bytes
  | .send b => b.payload
  | _ => []

def Act.granted : Act → Nat
  | .send b => b.granted
  | _ => 0

namespace Sender

variable {S S' : Sender} {a : Act} {chunk n : Nat}

/-- The payload that is read and not sent. -/
def pending (S : Sender) : Bytes :=
  match S.pc with
  | .acquire p | .reserve p | .park p | .sendData p => p
  | _ => []

/-- Bytes acquired and not sent. -/
def acquired (S : Sender) : Nat :=
  match S.pc with
  | .sendData p => p.length
  | _ => 0

/-- What the loop may still send before it needs a grant. -/
def funds (S : Sender) : Int := S.credit.credit + S.acquired

/-- The loop sends what it reads, in order, and nothing after its `Close`. -/
structure WF (S : Sender) : Prop where
  nonneg : 0 ≤ S.credit.credit
  max : S.credit.max = streamRecvWindow
  sent : S.sent <+: S.source
  cover : S.pc ≠ .done → S.sent ++ S.pending = S.source
  closed : S.closeSent = true → S.pc = .done ∧ S.sent = S.source

theorem wf_init : WF {} :=
  ⟨by simp [SendCredit.new], rfl, by simp, by simp [pending], by simp⟩

/-- The loop moves on and keeps what it has. -/
theorem WF.move {pc : SenderPc} {e : Option Ending} (hw : S.WF) (hp : S.pc ≠ .done)
    (hs : ({ S with pc := pc, ending := e } : Sender).pending = S.pending ∨ pc = .done) :
    WF { S with pc := pc, ending := e } where
  nonneg := hw.nonneg
  max := hw.max
  sent := hw.sent
  cover hd := by
    rw [hs.resolve_right hd]
    exact hw.cover hp
  closed hc := absurd (hw.closed hc).1 hp

theorem WF.addCredit (hw : S.WF) : WF { S with credit := S.credit.add n } where
  nonneg := hw.nonneg.trans SendCredit.le_add
  max := by simp [hw.max]
  sent := hw.sent
  cover := hw.cover
  closed := hw.closed

theorem WF.funds_nonneg (hw : S.WF) : 0 ≤ S.funds := by
  have := hw.nonneg
  unfold funds
  omega

/-- A grant within the window is credited in full. -/
theorem WF.funds_add (hw : S.WF) (hcap : S.funds + n ≤ streamRecvWindow) :
    ({ S with credit := S.credit.add n } : Sender).funds = S.funds + n := by
  have hm : S.credit.max ≤ SendCredit.i64Max := by
    rw [hw.max]
    decide
  have hle : S.credit.credit + n ≤ S.credit.max := by
    rw [hw.max]
    unfold funds at hcap
    omega
  simp only [funds, SendCredit.add_credit hw.nonneg hm hle, acquired]
  omega

theorem WF.closeCredit (hw : S.WF) : WF { S with credit := S.credit.close } :=
  ⟨hw.nonneg, hw.max, hw.sent, hw.cover, hw.closed⟩

theorem tryReserve_eq {c c' : SendCredit} (h : c.tryReserve n = some c') :
    (n : Int) ≤ c.credit ∧ { c with credit := c.credit - n } = c' := by
  simpa [SendCredit.tryReserve] using h

theorem WF.step (hw : S.WF) (h : Step chunk S a S') : S'.WF := by
  cases h with
  | @readData p hp h0 hc =>
    have hcov := hw.cover (by simp [hp])
    simp only [pending, hp, List.append_nil] at hcov
    exact ⟨hw.nonneg, hw.max, hw.sent.trans (List.prefix_append ..),
      fun _ => by simp [pending, hcov], fun hc => by simp [(hw.closed hc).1] at hp⟩
  | acquireClosed hp hc => exact hw.move (by simp [hp]) (.inr rfl)
  | acquireOpen hp hc => exact hw.move (by simp [hp]) (.inl (by simp [pending, hp]))
  | @reserve p c hp hr =>
    obtain ⟨hle, rfl⟩ := tryReserve_eq hr
    refine ⟨?_, hw.max, hw.sent, fun _ => ?_, fun hc => by simp [(hw.closed hc).1] at hp⟩
    · simpa using hle
    · simpa [pending, hp] using hw.cover (by simp [hp])
  | reserveShort hp hr => exact hw.move (by simp [hp]) (.inl (by simp [pending, hp]))
  | wake hp hw' => exact hw.move (by simp [hp]) (.inl (by simp [pending, hp]))
  | @sendData p hp =>
    have hcov := hw.cover (by simp [hp])
    simp only [pending, hp] at hcov
    exact ⟨hw.nonneg, hw.max, by simp [hcov], fun _ => by simp [pending, hcov],
      fun hc => by simp [(hw.closed hc).1] at hp⟩
  | sendDataFailed hp => exact hw.move (by simp [hp]) (.inr rfl)
  | sendClose hp =>
    have hcov := hw.cover (by simp [hp])
    simp only [pending, hp, List.append_nil] at hcov
    exact ⟨hw.nonneg, hw.max, hw.sent, by simp, fun _ => ⟨rfl, hcov⟩⟩
  | sendCloseFailed hp => exact hw.move (by simp [hp]) (.inr rfl)

/-- The loop pays for what it sends, and sends what it says. -/
theorem step_funds (h : Step chunk S a S') (ha : a ≠ .sendFailed) :
    S'.funds + a.payload.length = S.funds ∧ S'.sent = S.sent ++ a.payload := by
  cases h with
  | reserve hp hr =>
    obtain ⟨-, rfl⟩ := tryReserve_eq hr
    simp [funds, acquired, hp, Act.payload]
  | sendData hp => simp [funds, acquired, hp, Act.payload, Body.payload]
  | sendDataFailed hp => exact absurd rfl ha
  | sendClose hp => simp [funds, acquired, hp, Act.payload, Body.payload]
  | readData hp _ _ => simp [funds, acquired, hp, Act.payload]
  | acquireClosed hp _ => simp [funds, acquired, hp, Act.payload]
  | acquireOpen hp _ => simp [funds, acquired, hp, Act.payload]
  | reserveShort hp _ => simp [funds, acquired, hp, Act.payload]
  | wake hp _ => simp [funds, acquired, hp, Act.payload]
  | sendCloseFailed hp => exact absurd rfl ha

/-- A payload is what one read gave. -/
theorem step_pending (h : Step chunk S a S') (hp : S.pending.length ≤ chunk) :
    S'.pending.length ≤ chunk ∧ a.payload.length ≤ chunk := by
  cases h <;> simp_all [pending, Act.payload, Body.payload]

end Sender

namespace Drain

variable {D D' : Drain} {a : Act} {n : Nat}

/-- Bytes waiting in the loop's queue. -/
def queued (D : Drain) : Nat := (D.queue.map List.length).sum

/-- Size of the payload being written. -/
def writing (D : Drain) : Nat :=
  match D.pc with
  | .write _ size => size
  | _ => 0

/-- Size of the payload whose write failed. -/
def lost (D : Drain) : Nat :=
  match D.failed with
  | some (_, size) => size
  | none => 0

/-- Bytes of a grant that is decided and not sent. -/
def granting (D : Drain) : Nat :=
  match D.pc with
  | .grant n => n
  | _ => 0

/-- Bytes received and not known to be written. -/
def held (D : Drain) : Nat := D.queued + D.writing + D.lost

/-- Bytes received and not granted back yet. -/
def owed (D : Drain) : Nat := D.held + D.drained + D.granting

/-- The rest of the payload being written, or of the one whose write failed. -/
def unwritten (D : Drain) : Bytes :=
  match D.pc, D.failed with
  | .write rest _, _ => rest
  | _, some (rest, _) => rest
  | _, none => []

/-- All that the loop has been given. -/
def accepted (D : Drain) : Bytes := D.sink ++ D.unwritten ++ D.queue.flatten

/-- The loop is over, whatever ended it. -/
def isOver (D : Drain) : Prop := D.pc = .shutdown ∨ D.pc = .sendReset ∨ D.pc = .done

/-- A failed write ends the loop, and what is drained and not granted stays below the
threshold. -/
structure WF (D : Drain) : Prop where
  failed : D.failed ≠ none → D.isOver
  drained : D.drained < windowUpdateThreshold

theorem wf_init : WF {} := ⟨by simp, by decide⟩

theorem WF.step (hw : D.WF) (h : Step D a D') : D'.WF := by
  obtain ⟨hf, hd⟩ := hw
  cases h with
  | recv hp hq => exact ⟨fun hn => by simpa [isOver, hp] using hf hn, hd⟩
  | recvNone hp hq => exact ⟨fun _ => .inl rfl, hd⟩
  | writeSome hp h0 hk => exact ⟨fun hn => by simpa [isOver, hp] using hf hn, hd⟩
  | writeFailed hp => exact ⟨fun _ => .inl rfl, hd⟩
  | writtenBelow hp ht => exact ⟨fun hn => by simpa [isOver, hp] using hf hn, ht⟩
  | writtenGrant hp ht =>
    exact ⟨fun hn => by simpa [isOver, hp] using hf hn, Nat.zero_lt_of_lt hd⟩
  | sendGrant hp => exact ⟨fun hn => by simpa [isOver, hp] using hf hn, hd⟩
  | sendGrantFailed hp => exact ⟨fun _ => .inl rfl, hd⟩

/-- The loop gives up bytes only by writing them. -/
theorem held_step (hw : D.WF) (h : Step D a D') (ha : ∀ n, a ≠ .drained n) :
    D'.held = D.held := by
  cases h with
  | recv hp hq => simp [held, queued, writing, lost, hp, hq, Nat.add_comm]
  | recvNone hp hq => simp [held, queued, writing, lost, hp]
  | writeSome hp h0 hk => simp [held, queued, writing, lost, hp]
  | writeFailed hp =>
    have hf : D.failed = none := by
      by_contra hn
      simpa [isOver, hp] using hw.failed hn
    simp [held, queued, writing, lost, hp, hf]
  | writtenBelow hp ht => simp at ha
  | writtenGrant hp ht => simp at ha
  | sendGrant hp => simp [held, queued, writing, lost, hp]
  | sendGrantFailed hp => simp [held, queued, writing, lost, hp]

/-- Written bytes become drained bytes or part of a grant. -/
theorem held_drained (h : Step D (.drained n) D') : D.held = D'.held + n ∧
    D'.drained + D'.granting = D.drained + D.granting + n := by
  cases h with
  | writtenBelow hp ht => simp [held, queued, writing, lost, granting, hp]; omega
  | writtenGrant hp ht => simp [held, queued, writing, lost, granting, hp]; omega

theorem WF.failed_eq (hw : D.WF) (ho : ¬ D.isOver) : D.failed = none := by
  by_contra hn
  exact ho (hw.failed hn)

/-- What is granted is what was owed. -/
theorem step_owed (hw : D.WF) (h : Step D a D') (ha : a ≠ .sendFailed)
    (hg : D.granting < 2 ^ 32) : D'.owed + a.granted = D.owed := by
  by_cases hd : ∃ n, a = .drained n
  · obtain ⟨n, rfl⟩ := hd
    have := held_drained h
    simp only [owed, Act.granted]
    omega
  · have hh := held_step hw h (by simpa using hd)
    cases h with
    | recv hp hq => simp [owed, hh, granting, hp, Act.granted]
    | recvNone hp hq => simp [owed, hh, granting, hp, Act.granted]
    | writeSome hp h0 hk => simp [owed, hh, granting, hp, Act.granted]
    | writeFailed hp => simp [owed, hh, granting, hp, Act.granted]
    | writtenBelow hp ht => simp at hd
    | writtenGrant hp ht => simp at hd
    | sendGrant hp =>
      simp only [granting, hp] at hg
      simpa [owed, hh, granting, hp, Act.granted, Body.granted] using hg
    | sendGrantFailed hp => exact absurd rfl ha

/-- Writing moves bytes from the queue to the sink and changes none. -/
theorem step_accepted (hw : D.WF) (h : Step D a D') : D'.accepted = D.accepted := by
  have hf : ¬ D.isOver → D.failed = none := hw.failed_eq
  cases h with
  | recv hp hq => simp [accepted, unwritten, hp, hq, hf (by simp [isOver, hp])]
  | recvNone hp hq => simp [accepted, unwritten, hp, hf (by simp [isOver, hp])]
  | writeSome hp h0 hk => simp [accepted, unwritten, hp]
  | writeFailed hp => simp [accepted, unwritten, hp]
  | writtenBelow hp ht => simp [accepted, unwritten, hp, hf (by simp [isOver, hp])]
  | writtenGrant hp ht => simp [accepted, unwritten, hp, hf (by simp [isOver, hp])]
  | sendGrant hp => simp [accepted, unwritten, hp, hf (by simp [isOver, hp])]
  | sendGrantFailed hp => simp [accepted, unwritten, hp, hf (by simp [isOver, hp])]

/-- No payload here is larger than `n`. -/
structure Small (n : Nat) (D : Drain) : Prop where
  queue : ∀ p ∈ D.queue, p.length ≤ n
  writing : D.writing ≤ n
  lost : D.lost ≤ n

theorem small_init : Small n {} := ⟨by simp, by simp [writing], by simp [lost]⟩

theorem Small.enqueue {p : Bytes} (h : Small n D) (hp : p.length ≤ n) :
    Small n { D with queue := D.queue ++ [p] } :=
  ⟨List.forall_mem_append.mpr ⟨h.queue, by simpa using hp⟩, h.writing, h.lost⟩

theorem Small.step (h : Small n D) (hs : Step D a D') : Small n D' := by
  obtain ⟨hq, hw, hl⟩ := h
  cases hs with
  | recv hp hq' =>
    rw [hq'] at hq
    exact ⟨fun p hp => hq p (List.mem_cons_of_mem _ hp), hq _ List.mem_cons_self, hl⟩
  | writeSome hp _ _ => exact ⟨hq, by simpa [Drain.writing, hp] using hw, hl⟩
  | writeFailed hp => exact ⟨hq, by simp [Drain.writing], by simpa [Drain.lost, Drain.writing, hp] using hw⟩
  | _ => exact ⟨hq, by simp [Drain.writing], hl⟩

/-- The loop is over: which stage it ends in does not matter. -/
theorem Small.over_move {pc : DrainPc} (h : Small n D)
    (ho : ({ D with pc := pc } : Drain).isOver) : Small n { D with pc := pc } :=
  ⟨h.queue, by rcases ho with rfl | rfl | rfl <;> simp [Drain.writing], h.lost⟩

theorem sink_prefix : D.sink <+: D.accepted := by
  rw [accepted, List.append_assoc]
  exact List.prefix_append ..

/-- The loop is over and moves on to another of its last stages. -/
theorem over_move {pc : DrainPc} (hw : D.WF) (ho : D.isOver)
    (ho' : ({ D with pc := pc } : Drain).isOver) : ({ D with pc := pc } : Drain).WF ∧
      ({ D with pc := pc } : Drain).held = D.held ∧ ({ D with pc := pc } : Drain).owed = D.owed ∧
      ({ D with pc := pc } : Drain).accepted = D.accepted := by
  refine ⟨⟨fun _ => ho', hw.drained⟩, ?_⟩
  rcases ho with hp | hp | hp <;> rcases ho' with rfl | rfl | rfl <;>
    cases hf : D.failed <;>
      simp [held, owed, queued, writing, lost, granting, accepted, unwritten, hp, hf]

end Drain

namespace Tunnel

variable {T T' : Tunnel} {a : Act} {chunk : Nat}

@[simp] theorem enqueue_held {p : Bytes} :
    (T.enqueue p).download.held = T.download.held + p.length := by
  simp [enqueue, Drain.held, Drain.queued, Drain.writing, Drain.lost]
  omega

theorem enqueue_wf {p : Bytes} (h : T.download.WF) : (T.enqueue p).download.WF :=
  ⟨h.failed, h.drained⟩

theorem enqueue_accepted {p : Bytes} :
    (T.enqueue p).download.accepted = T.download.accepted ++ p := by
  simp [enqueue, Drain.accepted, Drain.unwritten]

theorem enqueue_owed {p : Bytes} : (T.enqueue p).download.owed = T.download.owed + p.length := by
  have hh := enqueue_held (T := T) (p := p)
  simp only [Drain.owed, hh]
  simp [enqueue, Drain.granting]
  omega

/-- A tunnel step lowers `recv_outstanding` by exactly the bytes its download writes out. -/
theorem step_held (hw : T.download.WF) (h : Step chunk T a T') : T'.download.WF ∧
    ∃ n, T.download.held = T'.download.held + n ∧ T'.outstanding = T.outstanding - n := by
  cases h with
  | download hp h ha => exact ⟨hw.step h, 0, by simp [Drain.held_step hw h ha], rfl⟩
  | downloadDrained hp h => exact ⟨hw.step h, _, (Drain.held_drained h).1, rfl⟩
  | shutdownClean hp hd hf =>
    obtain ⟨hw', hh, -⟩ := Drain.over_move hw (.inl hd) (.inr (.inr rfl))
    exact ⟨hw', 0, by simp [hh], rfl⟩
  | shutdownFailed hp hd hf =>
    obtain ⟨hw', hh, -⟩ := Drain.over_move hw (.inl hd) (.inr (.inl rfl))
    exact ⟨hw', 0, by simp [hh], rfl⟩
  | downloadReset hp hd =>
    obtain ⟨hw', hh, -⟩ := Drain.over_move hw (.inr (.inl hd)) (.inr (.inr rfl))
    exact ⟨hw', 0, by simp [hh], rfl⟩
  | downloadResetFailed hp hd =>
    obtain ⟨hw', hh, -⟩ := Drain.over_move hw (.inr (.inl hd)) (.inr (.inr rfl))
    exact ⟨hw', 0, by simp [hh], rfl⟩
  | _ => exact ⟨hw, 0, rfl, rfl⟩

/-- What a tunnel step does to its upload: only its own loop touches it. -/
theorem step_upload (hw : T.upload.WF) (h : Step chunk T a T') (ha : a ≠ .sendFailed) :
    T'.upload.WF ∧ T'.upload.funds + a.payload.length = T.upload.funds ∧
      T'.upload.sent = T.upload.sent ++ a.payload := by
  cases h with
  | upload hp h => exact ⟨hw.step h, Sender.step_funds h ha⟩
  | readEof hp hu =>
    exact ⟨hw.move (by simp [hu]) (.inl (by simp [Sender.pending, hu])),
      by simp [Sender.funds, Sender.acquired, hu, Act.payload], by simp [Act.payload]⟩
  | readErr hp hu =>
    exact ⟨hw.move (by simp [hu]) (.inl (by simp [Sender.pending, hu])),
      by simp [Sender.funds, Sender.acquired, hu, Act.payload], by simp [Act.payload]⟩
  | uploadReset hp hu =>
    exact ⟨hw.move (by simp [hu]) (.inl (by simp [Sender.pending, hu])),
      by simp [Sender.funds, Sender.acquired, hu, Act.payload, Body.payload],
      by simp [Act.payload, Body.payload]⟩
  | uploadResetFailed hp hu => exact absurd rfl ha
  | uploadRemove hp hu =>
    exact ⟨hw.move (by simp [hu]) (.inr rfl),
      by simp [Sender.funds, Sender.acquired, hu, Act.payload], by simp [Act.payload]⟩
  | @download a D hp h _ =>
    have hb : a.payload = [] := by cases h <;> rfl
    exact ⟨hw, by simp [hb], by simp [hb]⟩
  | _ => exact ⟨hw, by simp [Act.payload, Body.payload], by simp [Act.payload, Body.payload]⟩

theorem step_owed (hw : T.download.WF) (h : Step chunk T a T') (ha : a ≠ .sendFailed)
    (hg : T.download.granting < 2 ^ 32) : T'.download.owed + a.granted = T.download.owed := by
  cases h with
  | download hp h _ => exact Drain.step_owed hw h ha hg
  | downloadDrained hp h => simpa [Act.granted] using Drain.step_owed hw h (by simp) hg
  | shutdownClean hp hd hf => exact (Drain.over_move hw (.inl hd) (.inr (.inr rfl))).2.2.1
  | shutdownFailed hp hd hf => exact (Drain.over_move hw (.inl hd) (.inr (.inl rfl))).2.2.1
  | downloadReset hp hd => exact (Drain.over_move hw (.inr (.inl hd)) (.inr (.inr rfl))).2.2.1
  | downloadResetFailed hp hd => exact absurd rfl ha
  | @upload a S hp h =>
    have hb : a.granted = 0 := by cases h <;> rfl
    simp [hb]
  | _ => simp [Act.granted, Body.granted]

theorem step_accepted (hw : T.download.WF) (h : Step chunk T a T') :
    T'.download.accepted = T.download.accepted := by
  cases h with
  | download hp h _ => exact Drain.step_accepted hw h
  | downloadDrained hp h => exact Drain.step_accepted hw h
  | shutdownClean hp hd hf => exact (Drain.over_move hw (.inl hd) (.inr (.inr rfl))).2.2.2
  | shutdownFailed hp hd hf => exact (Drain.over_move hw (.inl hd) (.inr (.inl rfl))).2.2.2
  | downloadReset hp hd => exact (Drain.over_move hw (.inr (.inl hd)) (.inr (.inr rfl))).2.2.2
  | downloadResetFailed hp hd =>
    exact (Drain.over_move hw (.inr (.inl hd)) (.inr (.inr rfl))).2.2.2
  | _ => rfl

theorem step_pending (h : Step chunk T a T') (hp : T.upload.pending.length ≤ chunk) :
    T'.upload.pending.length ≤ chunk ∧ a.payload.length ≤ chunk := by
  cases h with
  | upload _ h => exact Sender.step_pending h hp
  | @download a D _ h _ =>
    have hb : a.payload = [] := by cases h <;> rfl
    exact ⟨hp, by simp [hb]⟩
  | _ => simp_all [Sender.pending, Act.payload, Body.payload]

theorem step_small {n : Nat} (h : Step chunk T a T') (hd : T.download.Small n) :
    T'.download.Small n := by
  cases h with
  | download _ h _ => exact hd.step h
  | downloadDrained _ h => exact hd.step h
  | shutdownClean _ _ _ => exact hd.over_move (.inr (.inr rfl))
  | shutdownFailed _ _ _ => exact hd.over_move (.inr (.inl rfl))
  | downloadReset _ _ => exact hd.over_move (.inr (.inr rfl))
  | downloadResetFailed _ _ => exact hd.over_move (.inr (.inr rfl))
  | _ => exact hd

end Tunnel

namespace Handler

variable {H H' : Handler} {a : Act} {chunk : Nat}

theorem enqueue_accepted {p : Bytes} : (H.enqueue p).upload.accepted = H.upload.accepted ++ p := by
  simp [enqueue, Drain.accepted, Drain.unwritten]

theorem enqueue_owed {p : Bytes} : (H.enqueue p).upload.owed = H.upload.owed + p.length := by
  simp [enqueue, Drain.owed, Drain.held, Drain.queued, Drain.writing, Drain.lost, Drain.granting]
  omega

theorem step_download (hw : H.download.WF) (h : Step chunk H a H') (ha : a ≠ .sendFailed) :
    H'.download.WF ∧ H'.download.funds + a.payload.length = H.download.funds ∧
      H'.download.sent = H.download.sent ++ a.payload := by
  cases h with
  | download hp h => exact ⟨hw.step h, Sender.step_funds h ha⟩
  | readEnd hp hu =>
    exact ⟨hw.move (by simp [hu]) (.inl (by simp [Sender.pending, hu])),
      by simp [Sender.funds, Sender.acquired, hu, Act.payload], by simp [Act.payload]⟩
  | @uploadSend b D hp h =>
    have hb : (Act.send b).payload = [] := by cases h; rfl
    exact ⟨hw, by simp [hb], by simp [hb]⟩
  | _ => exact ⟨hw, by simp [Act.payload, Body.payload], by simp [Act.payload, Body.payload]⟩

/-- The upload loop keeps its bytes, unless payloads came in before the backend was up. -/
theorem step_owed (hw : H.upload.WF) (h : Step chunk H a H') (ha : a ≠ .sendFailed)
    (hq : H.pc = .connecting → H.upload.queue = []) (hg : H.upload.granting < 2 ^ 32) :
    H'.upload.owed + a.granted = H.upload.owed := by
  cases h with
  | ignoreData hp hq' => simp [hq hp] at hq'
  | upload hp h => exact Drain.step_owed hw h ha hg
  | uploadDrained hp h => simpa [Act.granted] using Drain.step_owed hw h (by simp) hg
  | uploadStarved hp h ho => simpa [Act.granted] using Drain.step_owed hw h (by simp) hg
  | uploadSend hp h => exact Drain.step_owed hw h ha hg
  | uploadSendFailed hp h => exact absurd rfl ha
  | uploadShutdown hp hu => exact (Drain.over_move hw (.inl hu) (.inr (.inr rfl))).2.2.1
  | @download a S hp h =>
    have hb : a.granted = 0 := by cases h <;> rfl
    simp [hb]
  | _ => simp [Act.granted, Body.granted]

theorem step_accepted (hw : H.upload.WF) (h : Step chunk H a H')
    (hq : H.pc = .connecting → H.upload.queue = []) : H'.upload.accepted = H.upload.accepted := by
  cases h with
  | ignoreData hp hq' => simp [hq hp] at hq'
  | upload hp h => exact Drain.step_accepted hw h
  | uploadDrained hp h => exact Drain.step_accepted hw h
  | uploadStarved hp h ho => exact Drain.step_accepted hw h
  | uploadSend hp h => exact Drain.step_accepted hw h
  | uploadSendFailed hp h => exact Drain.step_accepted hw h
  | uploadShutdown hp hu => exact (Drain.over_move hw (.inl hu) (.inr (.inr rfl))).2.2.2
  | _ => rfl

theorem step_pending (h : Step chunk H a H') (hp : H.download.pending.length ≤ chunk) :
    H'.download.pending.length ≤ chunk ∧ a.payload.length ≤ chunk := by
  cases h with
  | download _ h => exact Sender.step_pending h hp
  | @uploadSend b D _ h =>
    have hb : (Act.send b).payload = [] := by cases h; rfl
    exact ⟨hp, by simp [hb]⟩
  | _ => simp_all [Sender.pending, Act.payload, Body.payload]

theorem step_small {n : Nat} (h : Step chunk H a H') (hd : H.upload.Small n) :
    H'.upload.Small n := by
  cases h with
  | ignoreData _ hq =>
    exact ⟨fun p hp => hd.queue p (hq ▸ List.mem_cons_of_mem _ hp), hd.writing, hd.lost⟩
  | upload _ h => exact hd.step h
  | uploadDrained _ h => exact hd.step h
  | uploadStarved _ h _ => exact hd.step h
  | uploadSend _ h => exact hd.step h
  | uploadSendFailed _ h => exact hd.step h
  | uploadShutdown _ _ => exact hd.over_move (.inr (.inr rfl))
  | _ => exact hd

end Handler

end X2rp.Wss
