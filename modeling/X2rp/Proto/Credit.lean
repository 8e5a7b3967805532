import Mathlib.Logic.Function.Basic
import X2rp.Lts
import X2rp.Proto.SendCredit

/-! A `SendCredit` shared by any number of tasks, one atomic operation at a time. -/
namespace X2rp.Proto

/-- Where a call of `acquire` is. An update has the value of its last look at the credit. -/
inductive AcquirePc
  | idle
  | loadClosed
  | loadCredit
  | update (cur : Int)
  | enable
  | recheckClosed
  | recheckCredit
  | parked
  | returned (granted : Bool)
  /-- Its future has been dropped. -/
  | dropped
deriving DecidableEq

/-- From `enable` on the waiter is registered, until it goes round again. -/
def AcquirePc.registered : AcquirePc → Bool
  | .recheckClosed | .recheckCredit | .parked => true
  | _ => false

/-- A call of `acquire` for `bytes`. `late` remembers whether a `close` was complete by then. -/
structure Acquire where
  bytes : Nat := 0
  late : Bool := false
  woken : Bool := false
  pc : AcquirePc := .idle
deriving DecidableEq

/-- What `notify_waiters` does to one call. -/
def Acquire.notified (a : Acquire) : Acquire :=
  if a.pc.registered then { a with woken := true } else a

inductive AddPc
  | idle
  | load (bytes : Nat)
  | update (bytes : Nat) (cur : Int)
  | notify
  | done
deriving DecidableEq

def AddPc.inProgress : AddPc → Bool
  | .idle | .done => false
  | .load _ | .update _ _ | .notify => true

inductive ClosePc
  | idle
  | store
  | notify
  | done
deriving DecidableEq

def ClosePc.inProgress : ClosePc → Bool
  | .idle | .done => false
  | .store | .notify => true

/-- The cells, and where each of any number of calls is. `closeDone` says whether some `close` has
completed; `reserved` and `grants` add up what acquires have got and what adds have brought. -/
structure SharedCredit where
  cells : SendCredit
  acquires : Nat → Acquire := fun _ => {}
  adds : Nat → AddPc := fun _ => .idle
  closes : Nat → ClosePc := fun _ => .idle
  closeDone : Bool := false
  reserved : Nat := 0
  grants : Nat := 0

namespace SharedCredit

variable {s t : SharedCredit} {window i j k : Nat}

def setAcquire (s : SharedCredit) (i : Nat) (a : Acquire) : SharedCredit :=
  { s with acquires := Function.update s.acquires i a }

/-- The call goes on at `pc`. -/
def goto (s : SharedCredit) (i : Nat) (pc : AcquirePc) : SharedCredit :=
  s.setAcquire i { s.acquires i with pc }

def setAdd (s : SharedCredit) (k : Nat) (pc : AddPc) : SharedCredit :=
  { s with adds := Function.update s.adds k pc }

def setClose (s : SharedCredit) (k : Nat) (pc : ClosePc) : SharedCredit :=
  { s with closes := Function.update s.closes k pc }

def notifyWaiters (s : SharedCredit) : SharedCredit :=
  { s with acquires := fun i => (s.acquires i).notified }

def setCredit (s : SharedCredit) (credit : Int) : SharedCredit :=
  { s with cells := { s.cells with credit } }

/-- The atomic operations of all calls, in any order. `try_update` is a load and then compare-and-
swaps until one succeeds; one may fail for no reason. -/
inductive Step (window : Nat) : SharedCredit → Unit → SharedCredit → Prop
  | call {s : SharedCredit} {i bytes : Nat} (hp : (s.acquires i).pc = .idle) (hb : bytes ≤ window) :
      Step window s () (s.setAcquire i { bytes, late := s.closeDone, pc := .loadClosed })
  | loadClosed {s : SharedCredit} {i : Nat} (hp : (s.acquires i).pc = .loadClosed)
      (hc : s.cells.closed = true) : Step window s () (s.goto i (.returned false))
  | loadOpen {s : SharedCredit} {i : Nat} (hp : (s.acquires i).pc = .loadClosed)
      (hc : s.cells.closed = false) : Step window s () (s.goto i .loadCredit)
  | loadCredit {s : SharedCredit} {i : Nat} (hp : (s.acquires i).pc = .loadCredit) :
      Step window s () (s.goto i (.update s.cells.credit))
  | reserve {s : SharedCredit} {i : Nat} {cur : Int} (hp : (s.acquires i).pc = .update cur)
      (hn : asI64 (s.acquires i).bytes ≤ cur) (hc : s.cells.credit = cur) :
      Step window s ()
        { (s.goto i (.returned true)).setCredit (cur - asI64 (s.acquires i).bytes) with
          reserved := s.reserved + (s.acquires i).bytes }
  | reserveRetry {s : SharedCredit} {i : Nat} {cur : Int} (hp : (s.acquires i).pc = .update cur)
      (hn : asI64 (s.acquires i).bytes ≤ cur) :
      Step window s () (s.goto i (.update s.cells.credit))
  | reserveShort {s : SharedCredit} {i : Nat} {cur : Int} (hp : (s.acquires i).pc = .update cur)
      (hn : cur < asI64 (s.acquires i).bytes) : Step window s () (s.goto i .enable)
  | enable {s : SharedCredit} {i : Nat} (hp : (s.acquires i).pc = .enable) :
      Step window s ()
        (s.setAcquire i { s.acquires i with woken := false, pc := .recheckClosed })
  | recheckClosed {s : SharedCredit} {i : Nat} (hp : (s.acquires i).pc = .recheckClosed)
      (hc : s.cells.closed = true) : Step window s () (s.goto i .loadClosed)
  | recheckOpen {s : SharedCredit} {i : Nat} (hp : (s.acquires i).pc = .recheckClosed)
      (hc : s.cells.closed = false) : Step window s () (s.goto i .recheckCredit)
  | recheckEnough {s : SharedCredit} {i : Nat} (hp : (s.acquires i).pc = .recheckCredit)
      (hn : asI64 (s.acquires i).bytes ≤ s.cells.credit) : Step window s () (s.goto i .loadClosed)
  | park {s : SharedCredit} {i : Nat} (hp : (s.acquires i).pc = .recheckCredit)
      (hn : s.cells.credit < asI64 (s.acquires i).bytes) : Step window s () (s.goto i .parked)
  | wake {s : SharedCredit} {i : Nat} (hp : (s.acquires i).pc = .parked)
      (hw : (s.acquires i).woken = true) : Step window s () (s.goto i .loadClosed)
  | drop {s : SharedCredit} {i : Nat} (hp : (s.acquires i).pc = .parked) :
      Step window s () (s.goto i .dropped)
  | addCall {s : SharedCredit} {k bytes : Nat} (hp : s.adds k = .idle) :
      Step window s () (s.setAdd k (.load bytes))
  | addLoad {s : SharedCredit} {k bytes : Nat} (hp : s.adds k = .load bytes) :
      Step window s () (s.setAdd k (.update bytes s.cells.credit))
  | addGrant {s : SharedCredit} {k bytes : Nat} {cur next : Int} (hp : s.adds k = .update bytes cur)
      (hn : SendCredit.granted s.cells.max cur bytes = some next) (hc : s.cells.credit = cur) :
      Step window s () { (s.setAdd k .notify).setCredit next with grants := s.grants + bytes }
  | addRetry {s : SharedCredit} {k bytes : Nat} {cur next : Int} (hp : s.adds k = .update bytes cur)
      (hn : SendCredit.granted s.cells.max cur bytes = some next) :
      Step window s () (s.setAdd k (.update bytes s.cells.credit))
  | addNothing {s : SharedCredit} {k bytes : Nat} {cur : Int} (hp : s.adds k = .update bytes cur)
      (hn : SendCredit.granted s.cells.max cur bytes = none) :
      Step window s () (s.setAdd k .notify)
  | addNotify {s : SharedCredit} {k : Nat} (hp : s.adds k = .notify) :
      Step window s () (s.notifyWaiters.setAdd k .done)
  | closeCall {s : SharedCredit} {k : Nat} (hp : s.closes k = .idle) :
      Step window s () (s.setClose k .store)
  | closeStore {s : SharedCredit} {k : Nat} (hp : s.closes k = .store) :
      Step window s () { s.setClose k .notify with cells := s.cells.close }
  | closeNotify {s : SharedCredit} {k : Nat} (hp : s.closes k = .notify) :
      Step window s () { s.notifyWaiters.setClose k .done with closeDone := true }

/-- From `SendCredit::new`. -/
def system (window : Nat) : LTS SharedCredit Unit where
  Init s := s = { cells := .new window }
  Tr := Step window

theorem forall_setAcquire {P : Acquire → Prop} {a : Acquire} (h : ∀ j, P (s.acquires j)) (ha : P a) :
    ∀ j, P ((s.setAcquire i a).acquires j) := by
  intro j
  by_cases hj : j = i
  · subst hj
    simpa [setAcquire] using ha
  · simpa [setAcquire, hj] using h j

/-- The credit is never more than the window nor less than nothing, and what has been reserved is
covered by the window and the grants. -/
structure Bounded (window : Nat) (s : SharedCredit) : Prop where
  max : s.cells.max = window
  nonneg : 0 ≤ s.cells.credit
  credit : s.cells.credit ≤ window
  total : s.reserved + s.cells.credit ≤ window + s.grants
  asked : ∀ i, (s.acquires i).bytes ≤ window

theorem bounded_step (hw : window < 2 ^ 63) (hs : Bounded window s) (h : Step window s () t) :
    Bounded window t := by
  have hset : ∀ i a, a.bytes ≤ window → Bounded window (s.setAcquire i a) := fun i a ha =>
    ⟨hs.max, hs.nonneg, hs.credit, hs.total,
      forall_setAcquire (P := fun a => a.bytes ≤ window) hs.asked ha⟩
  have hwoken : ∀ i, (s.notifyWaiters.acquires i).bytes ≤ window := by
    intro i
    change (s.acquires i).notified.bytes ≤ window
    unfold Acquire.notified
    split <;> exact hs.asked i
  cases h with
  | call hp hb => exact hset _ _ hb
  | @reserve i cur hp hn hc =>
    have hb := hs.asked i
    rw [asI64_of_lt (by omega)] at hn
    have htotal := hs.total
    have hcredit := hs.credit
    have hgone : Bounded window (s.goto i (.returned true)) := hset _ _ hb
    refine ⟨hs.max, ?_, ?_, ?_, hgone.asked⟩
    all_goals
      simp only [setCredit, goto, setAcquire, asI64_of_lt (show (s.acquires i).bytes < 2 ^ 63 by omega)]
      omega
  | @addGrant k bytes cur next hp hn hc =>
    obtain ⟨h1, h2, h3⟩ := SendCredit.granted_bounds hn
    have hmax := hs.max
    have hnonneg := hs.nonneg
    have htotal := hs.total
    have hnext := h3 (by omega)
    refine ⟨hs.max, ?_, ?_, ?_, hs.asked⟩
    all_goals
      simp only [setCredit, setAdd]
      omega
  | addNotify => exact ⟨hs.max, hs.nonneg, hs.credit, hs.total, hwoken⟩
  | closeNotify => exact ⟨hs.max, hs.nonneg, hs.credit, hs.total, hwoken⟩
  | closeStore => exact ⟨hs.max, hs.nonneg, hs.credit, hs.total, hs.asked⟩
  | addCall | addLoad | addRetry | addNothing | closeCall =>
    exact ⟨hs.max, hs.nonneg, hs.credit, hs.total, hs.asked⟩
  | _ => exact hset _ _ (hs.asked _)

/-- To the cells, every step is nothing or one operation of `SendCredit`. -/
theorem step_cells (hw : window < 2 ^ 63) (hs : Bounded window s) (h : Step window s () t) :
    t.cells = s.cells ∨ t.cells = s.cells.close ∨ (∃ n, s.cells.tryReserve n = some t.cells) ∨
      ∃ n, t.cells = s.cells.add n := by
  cases h with
  | @reserve i cur hp hn hc =>
    have hi := hs.asked i
    rw [asI64_of_lt (by omega), ← hc] at hn
    refine .inr (.inr (.inl ⟨(s.acquires i).bytes, ?_⟩))
    rw [SendCredit.tryReserve, if_pos hn, ← hc, asI64_of_lt (by omega)]
    rfl
  | @addGrant k bytes cur next hp hn hc =>
    refine .inr (.inr (.inr ⟨bytes, ?_⟩))
    rw [SendCredit.add, hc, hn]
    rfl
  | closeStore => exact .inr (.inl rfl)
  | _ => exact .inl rfl

/-- A call that finds the credit closed at once. -/
def Refused (s : SharedCredit) (a : Acquire) : Prop :=
  a.late = true → s.cells.closed = true ∧ (a.pc = .loadClosed ∨ a.pc = .returned false)

/-- Once a `close` has stored its flag it stays, and calls that come later see it. -/
structure Shut (s : SharedCredit) : Prop where
  stored : ∀ k, s.closes k = .notify → s.cells.closed = true
  done : s.closeDone = true → s.cells.closed = true
  late : ∀ i, Refused s (s.acquires i)

theorem shut_step (hs : Shut s) (h : Step window s () t) : Shut t := by
  -- A call in its turn: nothing but its own place changes.
  have hset : ∀ i a, Refused s a → Shut (s.setAcquire i a) := fun i a ha =>
    ⟨hs.stored, hs.done, forall_setAcquire (P := Refused s) hs.late ha⟩
  have hpast : ∀ {i : Nat} (woken : Bool) (pc : AcquirePc), (s.acquires i).pc ≠ .loadClosed →
      (s.acquires i).pc ≠ .returned false →
      Refused s { s.acquires i with woken, pc } := by
    intro i woken pc h1 h2 hl
    rcases (hs.late i hl).2 with hp | hp
    · exact absurd hp h1
    · exact absurd hp h2
  have hwoken : ∀ i, Refused s (s.notifyWaiters.acquires i) := by
    intro i
    change Refused s (s.acquires i).notified
    unfold Acquire.notified
    split
    · exact hs.late i
    · exact hs.late i
  cases h with
  | call hp hb => exact hset _ _ fun hl => ⟨hs.done hl, .inl rfl⟩
  | loadClosed hp hc => exact hset _ _ fun _ => ⟨hc, .inr rfl⟩
  | @loadOpen i hp hc =>
    refine hset _ _ fun hl => ?_
    have := (hs.late i hl).1
    simp [hc] at this
  | @reserve i cur hp hn hc =>
    have hgone : Shut (s.goto i (.returned true)) :=
      hset _ _ (hpast _ _ (by simp [hp]) (by simp [hp]))
    exact ⟨hgone.stored, hgone.done, hgone.late⟩
  | addGrant => exact ⟨hs.stored, hs.done, hs.late⟩
  | addNotify => exact ⟨hs.stored, hs.done, hwoken⟩
  | @closeCall k hp =>
    refine ⟨fun k' hk => ?_, hs.done, hs.late⟩
    by_cases he : k' = k
    · subst he
      simp [setClose] at hk
    · exact hs.stored k' (by simpa [setClose, he] using hk)
  | closeStore => exact ⟨fun _ _ => rfl, fun _ => rfl, fun i hl => ⟨rfl, (hs.late i hl).2⟩⟩
  | @closeNotify k hp => exact ⟨fun _ _ => hs.stored k hp, fun _ => hs.stored k hp, hwoken⟩
  | addCall | addLoad | addRetry | addNothing => exact ⟨hs.stored, hs.done, hs.late⟩
  | loadCredit hp | reserveRetry hp | reserveShort hp | enable hp | recheckClosed hp
  | recheckOpen hp | recheckEnough hp | park hp | wake hp | drop hp =>
    exact hset _ _ (hpast _ _ (by simp [hp]) (by simp [hp]))

/-- A registered waiter that has not been woken, and has seen the credit open: if it is closed by
now, or if there is enough by now, whoever made it so has still to notify. -/
structure Watched (s : SharedCredit) (a : Acquire) : Prop where
  closed : a.woken = false → a.pc = .recheckCredit ∨ a.pc = .parked → s.cells.closed = true →
    ∃ k, s.closes k = .notify
  credit : a.woken = false → a.pc = .parked → asI64 a.bytes ≤ s.cells.credit →
    ∃ k, s.adds k = .notify

theorem watched_notified (s : SharedCredit) (a : Acquire) : Watched s a.notified := by
  unfold Acquire.notified
  split
  · exact ⟨by simp, by simp⟩
  · rename_i h
    refine ⟨fun _ hp => absurd ?_ h, fun _ hp => absurd ?_ h⟩
    · rcases hp with hp | hp <;> simp [hp, AcquirePc.registered]
    · simp [hp, AcquirePc.registered]

theorem watched_of_ne {a : Acquire} (h1 : a.pc ≠ .recheckCredit) (h2 : a.pc ≠ .parked) :
    Watched s a :=
  ⟨fun _ hp => (hp.elim h1 h2).elim, fun _ hp => (h2 hp).elim⟩

theorem notify_setAdd {pc : AddPc} (hk : s.adds k ≠ .notify) (h : ∃ k, s.adds k = .notify) :
    ∃ k', (s.setAdd k pc).adds k' = .notify := by
  obtain ⟨k', hk'⟩ := h
  have hne : k' ≠ k := by
    rintro rfl
    exact hk hk'
  exact ⟨k', by simpa [setAdd, hne] using hk'⟩

theorem notify_setClose {pc : ClosePc} (hk : s.closes k ≠ .notify) (h : ∃ k, s.closes k = .notify) :
    ∃ k', (s.setClose k pc).closes k' = .notify := by
  obtain ⟨k', hk'⟩ := h
  have hne : k' ≠ k := by
    rintro rfl
    exact hk hk'
  exact ⟨k', by simpa [setClose, hne] using hk'⟩

theorem watched_step (hw : window < 2 ^ 63) (hb : Bounded window s)
    (hs : ∀ i, Watched s (s.acquires i)) (h : Step window s () t) :
    ∀ i, Watched t (t.acquires i) := by
  have hset : ∀ i a, Watched s a →
      ∀ j, Watched (s.setAcquire i a) ((s.setAcquire i a).acquires j) := by
    intro i a ha j
    have h := forall_setAcquire (P := Watched s) (i := i) hs ha j
    exact ⟨h.closed, h.credit⟩
  have hadd : ∀ {k : Nat} (pc : AddPc), s.adds k ≠ .notify →
      ∀ i, Watched (s.setAdd k pc) (s.acquires i) := by
    intro k pc hk i
    exact ⟨(hs i).closed, fun hw hp hc => notify_setAdd hk ((hs i).credit hw hp hc)⟩
  cases h with
  | @reserve i cur hp hn hc =>
    -- Less credit than before: nobody waits for that.
    have hi := hb.asked i
    have hpos := asI64_of_lt (n := (s.acquires i).bytes) (by omega)
    have hgone : ∀ j, Watched (s.goto i (.returned true)) ((s.goto i (.returned true)).acquires j) :=
      hset i _ (watched_of_ne (by simp) (by simp))
    intro j
    refine ⟨(hgone j).closed, fun hw hp hle => (hgone j).credit hw hp ?_⟩
    simp only [setCredit] at hle
    change _ ≤ s.cells.credit
    exact hle.trans (by omega)
  | @recheckOpen i hp hc => exact hset i _ ⟨by simp [hc], by simp⟩
  | @park i hp hn =>
    refine hset i _ ⟨fun hw _ => (hs i).closed hw (.inl hp), fun _ _ hle => ?_⟩
    exact absurd hle (not_le.mpr hn)
  | addCall hp | addLoad hp | addRetry hp | addNothing hp => exact hadd _ (by simp [hp])
  | @addGrant k bytes cur next hp hn hc =>
    intro i
    exact ⟨(hs i).closed, fun _ _ _ => ⟨k, by simp [setCredit, setAdd]⟩⟩
  | addNotify => exact fun i => watched_notified _ (s.acquires i)
  | @closeCall k hp =>
    intro i
    have hk : s.closes k ≠ .notify := by simp [hp]
    exact ⟨fun hw hp hc => notify_setClose hk ((hs i).closed hw hp hc), (hs i).credit⟩
  | @closeStore k hp =>
    intro i
    exact ⟨fun _ _ _ => ⟨k, by simp [setClose]⟩, (hs i).credit⟩
  | closeNotify => exact fun i => watched_notified _ (s.acquires i)
  | _ => exact hset _ _ (watched_of_ne (by simp) (by simp))

theorem bounded (hw : window < 2 ^ 63) (h : (system window).Reachable s) : Bounded window s := by
  refine h.invariant ?_ fun _ _ _ => bounded_step hw
  rintro s rfl
  have := asI64_of_lt hw
  exact ⟨this, by simp [SendCredit.new, this], by simp [SendCredit.new, this], by simp [SendCredit.new, this], by simp⟩

theorem shut (h : (system window).Reachable s) : Shut s := by
  refine h.invariant ?_ fun _ _ _ => shut_step
  rintro s rfl
  exact ⟨by simp, by simp, by simp [Refused]⟩

theorem watched (hw : window < 2 ^ 63) (h : (system window).Reachable s) :
    ∀ i, Watched s (s.acquires i) := by
  refine h.invariant_of (fun _ => bounded hw) ?_ fun _ _ _ hb _ => watched_step hw hb
  rintro s rfl i
  exact watched_of_ne (by simp) (by simp)

/-- The credit keeps within its window, pays out no more than it has been given, refuses whoever
comes after it was closed, and nobody waits for what has come already. -/
theorem credit_sound (window : Nat) (hw : window < 2 ^ 63) {s : SharedCredit}
    (h : (system window).Reachable s) :
    (s.cells.max = window ∧ 0 ≤ s.cells.credit ∧ s.cells.credit ≤ s.cells.max) ∧
    s.reserved ≤ window + s.grants ∧
    (∀ i, (s.acquires i).late = true → (s.acquires i).pc ≠ .returned true) ∧
    ((∀ k, (s.adds k).inProgress = false) → (∀ k, (s.closes k).inProgress = false) →
      ∀ i, (s.acquires i).pc = .parked → (s.acquires i).woken = false →
        s.cells.credit < (s.acquires i).bytes ∧ s.cells.closed = false) := by
  have hb := bounded hw h
  have hmax := hb.max
  have hcredit := hb.credit
  have htotal := hb.total
  have hnonneg := hb.nonneg
  refine ⟨⟨hmax, hnonneg, by omega⟩, by omega, fun i hl hp => ?_, fun hadds hcloses i hp hwoken => ?_⟩
  · rcases ((shut h).late i hl).2 with hp' | hp' <;> simp [hp] at hp'
  · have hi := hb.asked i
    have hwatched := watched hw h i
    constructor
    · by_contra hle
      obtain ⟨k, hk⟩ := hwatched.credit hwoken hp (by rw [asI64_of_lt] <;> omega)
      simpa [hk, AddPc.inProgress] using hadds k
    · by_contra hc
      obtain ⟨k, hk⟩ := hwatched.closed hwoken (.inr hp) (by simpa using hc)
      simpa [hk, ClosePc.inProgress] using hcloses k

/-- One call has taken the whole window of ten, and the next one waits for five. -/
theorem credit_sound_parked : ∃ s, (system 10).Reachable s ∧ (s.acquires 0).pc = .returned true ∧
    (s.acquires 1).pc = .parked ∧ s.reserved = 10 ∧ s.cells.credit < 5 := by
  have h0 : (system 10).Reachable _ := .init rfl
  have h1 := h0.step (@Step.call 10 _ 0 10 rfl (by decide))
  have h2 := h1.step (@Step.loadOpen 10 _ 0 rfl rfl)
  have h3 := h2.step (@Step.loadCredit 10 _ 0 rfl)
  have h4 := h3.step (@Step.reserve 10 _ 0 10 rfl (by decide) rfl)
  have h5 := h4.step (@Step.call 10 _ 1 5 rfl (by decide))
  have h6 := h5.step (@Step.loadOpen 10 _ 1 rfl rfl)
  have h7 := h6.step (@Step.loadCredit 10 _ 1 rfl)
  have h8 := h7.step (@Step.reserveShort 10 _ 1 0 rfl (by decide))
  have h9 := h8.step (@Step.enable 10 _ 1 rfl)
  have h10 := h9.step (@Step.recheckOpen 10 _ 1 rfl rfl)
  have h11 := h10.step (@Step.park 10 _ 1 rfl (by decide))
  obtain ⟨-, -, -, hwait⟩ := credit_sound 10 (by decide) h11
  exact ⟨_, h11, rfl, rfl, rfl, (hwait (fun _ => rfl) (fun _ => rfl) 1 rfl rfl).1⟩

end SharedCredit

end X2rp.Proto
