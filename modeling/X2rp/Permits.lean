import Mathlib.Algebra.BigOperators.Group.Finset.Piecewise
import Mathlib.Data.Finset.Card
import Mathlib.Data.Finset.Range
import X2rp.Lts

/-! A capped pool of permits: each one is reserved by a task, entered in a table, taken out
again by whoever ends the task, and given back. -/
namespace Permits

/-- How far a task's permit has come. -/
inductive Stage
  | idle
  | reserved
  | listed
  | leaving
  | freed
deriving DecidableEq, Repr

/-- The permit is out: it counts against the cap. -/
def Stage.out : Stage → Bool
  | .reserved | .listed | .leaving => true
  | .idle | .freed => false

/-- Tasks are numbered as they are admitted; `inUse` is the counter compared with the cap. -/
structure Ledger where
  started : Nat := 0
  stage : Nat → Stage := fun _ => .idle
  inUse : Nat := 0

namespace Ledger

variable {L L' : Ledger} {cap t : Nat}

/-- Move the permit of `t` on to another stage. -/
def move (L : Ledger) (t : Nat) (σ : Stage) : Ledger :=
  { L with stage := Function.update L.stage t σ }

@[simp] theorem move_stage {σ : Stage} {u : Nat} :
    (L.move t σ).stage u = if u = t then σ else L.stage u :=
  Function.update_apply ..

@[simp] theorem move_fields {σ : Stage} :
    (L.move t σ).started = L.started ∧ (L.move t σ).inUse = L.inUse := ⟨rfl, rfl⟩

inductive Step (cap : Nat) : Ledger → Unit → Ledger → Prop
  | reserve {L : Ledger} (h : L.inUse < cap) :
      Step cap L () { L.move L.started .reserved with started := L.started + 1, inUse := L.inUse + 1 }
  | enter {L : Ledger} {t : Nat} (h : L.stage t = .reserved) : Step cap L () (L.move t .listed)
  | take {L : Ledger} {t : Nat} (h : L.stage t = .listed) : Step cap L () (L.move t .leaving)
  | free {L : Ledger} {t : Nat} (h : L.stage t = .leaving) :
      Step cap L () { L.move t .freed with inUse := L.inUse - 1 }

def lts (cap : Nat) : LTS Ledger Unit where
  Init L := L = {}
  Tr := Step cap

/-- The tasks whose permit is at a given stage. -/
def atStage (L : Ledger) (σ : Stage) : Finset Nat := (Finset.range L.started).filter (L.stage · = σ)

/-- The tasks whose permit is out. -/
def holders (L : Ledger) : Finset Nat := (Finset.range L.started).filter fun t => (L.stage t).out

@[simp] theorem mem_atStage {σ : Stage} :
    t ∈ L.atStage σ ↔ t < L.started ∧ L.stage t = σ := by
  rw [atStage, Finset.mem_filter, Finset.mem_range]

@[simp] theorem mem_holders : t ∈ L.holders ↔ t < L.started ∧ (L.stage t).out = true := by
  rw [holders, Finset.mem_filter, Finset.mem_range]

/-- Every admitted task has a permit, and the counter counts those that are out. -/
structure Counted (cap : Nat) (L : Ledger) : Prop where
  idle : ∀ t, L.stage t = .idle ↔ L.started ≤ t
  inUse : L.inUse = L.holders.card
  capped : L.inUse ≤ cap

theorem Counted.lt (h : L.Counted cap) (ht : L.stage t ≠ .idle) : t < L.started := by
  have := (h.idle t).not.mp ht
  omega

theorem holders_move_out {σ : Stage} (h : (L.stage t).out = true) (hσ : σ.out = true) :
    (L.move t σ).holders = L.holders := by
  apply Finset.filter_congr
  intro u _
  by_cases hu : u = t
  · subst u
    simp [move, h, hσ]
  · simp [move, hu]

theorem holders_move_freed : (L.move t .freed).holders = L.holders.erase t := by
  ext u
  by_cases hu : u = t
  · subst u
    simp [move, Stage.out]
  · simp [move, hu]

theorem holders_reserve (n : Nat) :
    Ledger.holders { L.move L.started .reserved with started := L.started + 1, inUse := n } =
      insert L.started L.holders := by
  ext u
  rcases lt_trichotomy u L.started with hu | hu | hu
  · simp [move, hu.ne, hu, Nat.lt_succ_of_lt hu]
  · subst u
    simp [move, Stage.out]
  · have h1 : ¬ u < L.started + 1 := by omega
    have h2 : ¬ u < L.started := by omega
    simp [h1, h2, hu.ne']

theorem Counted.move (h : L.Counted cap) {σ : Stage} (ht : (L.stage t).out = true)
    (hσ : σ.out = true) : (L.move t σ).Counted cap where
  idle u := by
    by_cases hu : u = t
    · subst u
      have hs : L.stage t ≠ .idle := by rintro he; simp [he, Stage.out] at ht
      have hσ' : σ ≠ .idle := by rintro he; simp [he, Stage.out] at hσ
      have := h.lt hs
      simp [Ledger.move, hσ', this]
    · simpa [Ledger.move, hu] using h.idle u
  inUse := by
    rw [holders_move_out ht hσ]
    exact h.inUse
  capped := h.capped

theorem Counted.step {u : Unit} (h : L.Counted cap) (hs : Step cap L u L') : L'.Counted cap := by
  cases hs with
  | reserve hc =>
    refine ⟨fun u => ?_, ?_, hc⟩
    · by_cases hu : u = L.started
      · subst u
        simp [Ledger.move]
      · have := h.idle u
        simp only [Ledger.move, Function.update_of_ne hu, this]
        omega
    · have hn : L.started ∉ L.holders := by simp
      rw [holders_reserve, Finset.card_insert_of_notMem hn, h.inUse]
  | enter ht => exact h.move (by simp [ht, Stage.out]) rfl
  | take ht => exact h.move (by simp [ht, Stage.out]) rfl
  | @free t ht =>
    have hlt : t < L.started := h.lt (by simp [ht])
    have hm : t ∈ L.holders := by simp [hlt, ht, Stage.out]
    refine ⟨fun u => ?_, ?_, ?_⟩
    · by_cases hu : u = t
      · subst u
        simp [Ledger.move, hlt]
      · simpa [Ledger.move, hu] using h.idle u
    · change L.inUse - 1 = (L.move t .freed).holders.card
      rw [holders_move_freed, Finset.card_erase_of_mem hm, h.inUse]
    · have := h.capped
      dsimp only
      omega

theorem counted_of_reachable (h : (lts cap).Reachable L) : L.Counted cap := by
  refine h.invariant ?_ fun _ _ _ hL hs => hL.step hs
  rintro _ rfl
  exact ⟨by simp, rfl, Nat.zero_le _⟩

/-- The permits out are those reserved, those listed and those on their way back. -/
theorem card_holders : L.holders.card =
    (L.atStage .reserved).card + (L.atStage .listed).card + (L.atStage .leaving).card := by
  simp only [holders, atStage, Finset.card_filter, ← Finset.sum_add_distrib]
  refine Finset.sum_congr rfl fun t _ => ?_
  cases L.stage t <;> rfl

end Ledger

end Permits
