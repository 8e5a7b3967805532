import Mathlib.Data.BitVec
import X2rp.Proto.Message

/-! The send-side credit of one stream direction, operation by operation. -/
namespace X2rp.Proto

/-- `n as i64`, of a `usize`. -/
def asI64 (n : Nat) : Int := (BitVec.ofNat 64 n).toInt

theorem asI64_of_lt {n : Nat} (h : n < 2 ^ 63) : asI64 n = n := by
  rw [asI64, BitVec.toInt_ofNat', Int.bmod_eq_of_le] <;> omega

theorem asI64_le (n : Nat) : asI64 n ≤ n := by
  rw [asI64, BitVec.toInt_ofNat', Int.bmod_def]
  split <;> omega

@[simp] theorem asI64_streamRecvWindow : asI64 streamRecvWindow = streamRecvWindow :=
  asI64_of_lt (by decide)

/-- The atomic cells of a `SendCredit`; `max` is its initial window. -/
structure SendCredit where
  credit : Int
  max : Int
  closed : Bool
deriving DecidableEq, Repr

namespace SendCredit

variable {c : SendCredit} {n : Nat}

def new (initial : Nat) : SendCredit := ⟨asI64 initial, asI64 initial, false⟩

def i64Max : Int := 2 ^ 63 - 1

def i64Min : Int := -2 ^ 63

/-- The closure of `add`: the credit that `bytes` more come to, unless that is no more than there
is. -/
def granted (max cur : Int) (bytes : Nat) : Option Int :=
  let next := Min.min (Max.max i64Min (Min.min (cur + asI64 bytes) i64Max)) max
  if cur < next then some next else none

theorem granted_bounds {max cur next : Int} {bytes : Nat} (h : granted max cur bytes = some next) :
    cur < next ∧ next ≤ max ∧ (0 ≤ cur → next ≤ cur + bytes) := by
  unfold granted at h
  dsimp only at h
  split at h
  · cases h
    have := asI64_le bytes
    have hmin : i64Min = -2 ^ 63 := rfl
    omega
  · cases h

/-- Grant `bytes`, never past the initial window. -/
def add (c : SendCredit) (bytes : Nat) : SendCredit :=
  { c with credit := (granted c.max c.credit bytes).getD c.credit }

def close (c : SendCredit) : SendCredit := { c with closed := true }

/-- The `try_update` of one `acquire` round: all of `need`, or nothing. A payload's length is the
same as an `i64`. -/
def tryReserve (c : SendCredit) (need : Nat) : Option SendCredit :=
  if (need : Int) ≤ c.credit then some { c with credit := c.credit - need } else none

@[simp] theorem add_max : (c.add n).max = c.max := rfl

@[simp] theorem add_closed : (c.add n).closed = c.closed := rfl

/-- A grant that fits under the cap arrives in full. -/
theorem add_credit (h0 : 0 ≤ c.credit) (hm : c.max ≤ i64Max) (h : c.credit + n ≤ c.max) :
    (c.add n).credit = c.credit + n := by
  have hmax : i64Max = 2 ^ 63 - 1 := rfl
  have hmin : i64Min = -2 ^ 63 := rfl
  have hn : Min.min (Max.max i64Min (Min.min (c.credit + n) i64Max)) c.max = c.credit + n := by omega
  unfold add granted
  dsimp only
  rw [asI64_of_lt (by omega), hn]
  split
  · rfl
  · simp only [Option.getD_none]
    omega

/-- A grant never takes credit away. -/
theorem le_add : c.credit ≤ (c.add n).credit := by
  change c.credit ≤ (granted c.max c.credit n).getD c.credit
  cases h : granted c.max c.credit n with
  | none => exact le_refl _
  | some next => exact le_of_lt (granted_bounds h).1

@[simp] theorem close_credit : c.close.credit = c.credit := rfl

@[simp] theorem close_max : c.close.max = c.max := rfl

end SendCredit

end X2rp.Proto
