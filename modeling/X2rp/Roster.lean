import Mathlib.Data.Finset.Card

/-! A set of members behind a queue of notices: who will be present when the queue has been
read, and whether everybody who joins on the way finds room. -/

inductive Notice (α : Type*)
  | join (a : α)
  | leave (a : α)
deriving DecidableEq

namespace Roster

variable {α : Type*} [DecidableEq α] {S T : Finset α} {q : List (Notice α)} {x : Notice α} {a : α}
  {n : Nat}

/-- Who is present when the notices in `q` have been read. -/
def after (S : Finset α) : List (Notice α) → Finset α
  | [] => S
  | .join a :: q => after (insert a S) q
  | .leave a :: q => after (S.erase a) q

/-- Whoever joins finds fewer than `n` others present. -/
def Fits (n : Nat) (S : Finset α) : List (Notice α) → Prop
  | [] => True
  | .join a :: q => (S.erase a).card < n ∧ Fits n (insert a S) q
  | .leave a :: q => Fits n (S.erase a) q

theorem Fits.mono (h : Fits n T q) (hs : S ⊆ T) : Fits n S q := by
  induction q generalizing S T with
  | nil => trivial
  | cons x q ih =>
    cases x with
    | join a =>
      exact ⟨(Finset.card_le_card (Finset.erase_subset_erase a hs)).trans_lt h.1,
        ih h.2 (Finset.insert_subset_insert a hs)⟩
    | leave a => exact ih h (Finset.erase_subset_erase a hs)

/-- A notice at the end of the queue is read by whoever is present then. -/
theorem Fits.concat (h : Fits n S q) (hx : Fits n (after S q) [x]) : Fits n S (q ++ [x]) := by
  induction q generalizing S with
  | nil => exact hx
  | cons y q ih =>
    cases y with
    | join a => exact ⟨h.1, ih h.2 hx⟩
    | leave a => exact ih h hx

theorem Fits.first (h : Fits n S (x :: q)) : Fits n S [x] := by
  cases x with
  | join a => exact ⟨h.1, trivial⟩
  | leave a => trivial

/-- Reading the first notice. -/
theorem Fits.rest (h : Fits n S (x :: q)) (ht : T ⊆ after S [x]) : Fits n T q := by
  cases x with
  | join a => exact Fits.mono h.2 ht
  | leave a => exact Fits.mono h ht

/-- Nobody is present in the end who has not been there all the time, or joined last. -/
theorem mem_after (h : a ∈ after S q) : a ∈ S ∧ .leave a ∉ q ∨
    ∃ q₁ q₂, q = q₁ ++ .join a :: q₂ ∧ .leave a ∉ q₂ := by
  induction q generalizing S with
  | nil => exact .inl ⟨h, List.not_mem_nil⟩
  | cons x q ih =>
    rcases x with b | b <;> rcases ih h with ⟨hS, hq⟩ | ⟨q₁, q₂, rfl, hq⟩
    · rcases Finset.mem_insert.mp hS with rfl | hS
      · exact .inr ⟨[], q, rfl, hq⟩
      · exact .inl ⟨hS, by simpa using hq⟩
    · exact .inr ⟨.join b :: q₁, q₂, rfl, hq⟩
    · have hb := Finset.mem_erase.mp hS
      exact .inl ⟨hb.2, by simpa [hb.1] using hq⟩
    · exact .inr ⟨.leave b :: q₁, q₂, rfl, hq⟩

end Roster
