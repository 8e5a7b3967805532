import Mathlib.Data.List.Basic
import Mathlib.Order.Lattice

/-! Cutting a list into pieces of one size, the last one of what is left. -/
namespace Chunks

variable {α β : Type*} {n m : Nat} {l p : List α} {ps qs : List (List α)}

def chunks (n : Nat) (l : List α) : List (List α) :=
  if n = 0 ∨ l = [] then [] else l.take n :: chunks n (l.drop n)
termination_by l.length
decreasing_by
  rename_i h
  have := List.length_pos_iff.mpr (not_or.mp h).2
  simp only [List.length_drop]
  omega

/-- All pieces have the size, but for the last one, which may be smaller. None is empty. -/
def IsCut (n : Nat) : List (List α) → Prop
  | [] => True
  | [p] => 0 < p.length ∧ p.length ≤ n
  | p :: ps => p.length = n ∧ IsCut n ps

theorem isCut_cons_cons {q : List α} :
    IsCut n (p :: q :: ps) ↔ p.length = n ∧ IsCut n (q :: ps) := Iff.rfl

theorem IsCut.tail (h : IsCut n (p :: ps)) : IsCut n ps := by
  cases ps with
  | nil => trivial
  | cons q ps => exact h.2

theorem IsCut.length_le (h : IsCut n (p :: ps)) : p.length ≤ n := by
  cases ps with
  | nil => exact h.2
  | cons q ps => exact h.1.le

theorem IsCut.pos (h : IsCut n ps) (hn : 0 < n) (hp : p ∈ ps) : 0 < p.length := by
  induction ps with
  | nil => cases hp
  | cons q ps ih =>
    rcases List.mem_cons.mp hp with rfl | hp
    · cases ps with
      | nil => exact h.1
      | cons r ps => exact h.1 ▸ hn
    · exact ih h.tail hp

theorem IsCut.append_left (h : IsCut n (ps ++ qs)) (hn : 0 < n) : IsCut n ps := by
  induction ps with
  | nil => trivial
  | cons p ps ih =>
    cases ps with
    | nil => exact ⟨h.pos hn List.mem_cons_self, h.length_le⟩
    | cons q ps => exact ⟨h.1, ih h.tail⟩

theorem IsCut.append_right (h : IsCut n (ps ++ qs)) : IsCut n qs := by
  induction ps with
  | nil => exact h
  | cons p ps ih => exact ih h.tail

/-- Pieces are also cut to the size of the first of them. -/
theorem IsCut.head (h : IsCut n (p :: ps)) (hn : 0 < n) : IsCut p.length (p :: ps) := by
  cases ps with
  | nil => exact ⟨h.pos hn List.mem_cons_self, le_rfl⟩
  | cons q ps => exact h.1.symm ▸ h

/-- Pieces that all grow by the same amount stay cut. -/
theorem isCut_add {k : Nat} {qs : List (List β)}
    (h : qs.map List.length = ps.map fun p => p.length + k) (hp : ∀ p ∈ ps, 0 < p.length) :
    IsCut (n + k) qs ↔ IsCut n ps := by
  induction ps generalizing qs with
  | nil =>
    obtain rfl : qs = [] := by simpa using h
    exact Iff.rfl
  | cons p ps ih =>
    obtain ⟨q, qs, rfl, hq, hqs⟩ := List.map_eq_cons_iff.mp h
    have ih := ih hqs fun p' hp' => hp p' (List.mem_cons_of_mem p hp')
    have hpos := hp p List.mem_cons_self
    dsimp only at hq
    cases ps with
    | nil =>
      obtain rfl : qs = [] := by simpa using hqs
      simp only [IsCut]
      omega
    | cons p' ps =>
      obtain ⟨q', qs, rfl, -⟩ := List.map_eq_cons_iff.mp hqs
      rw [isCut_cons_cons, isCut_cons_cons, ih, hq, Nat.add_left_inj]

theorem chunks_nil : chunks n ([] : List α) = [] := by
  rw [chunks]
  simp

theorem chunks_of_ne_nil (hn : 0 < n) (hl : l ≠ []) :
    chunks n l = l.take n :: chunks n (l.drop n) := by
  rw [chunks, if_neg (by simp [hn.ne', hl])]

theorem chunks_of_length_le (hn : l.length ≤ n) (hl : l ≠ []) : chunks n l = [l] := by
  have hpos := List.length_pos_iff.mpr hl
  rw [chunks_of_ne_nil (by omega) hl, List.take_of_length_le hn, List.drop_of_length_le hn,
    chunks_nil]

/-- A list is cut in one way only. -/
theorem chunks_flatten (h : IsCut n ps) (hn : 0 < n) : chunks n ps.flatten = ps := by
  induction ps with
  | nil => exact chunks_nil
  | cons p ps ih =>
    have hp : p ≠ [] := List.length_pos_iff.mp (h.pos hn List.mem_cons_self)
    cases ps with
    | nil => simpa using chunks_of_length_le h.2 hp
    | cons q ps =>
      rw [List.flatten_cons, chunks_of_ne_nil hn (by simp [hp]), List.take_left' h.1,
        List.drop_left' h.1, ih h.2]

theorem isCut_chunks (hn : 0 < n) : IsCut n (chunks n l) := by
  fun_induction chunks n l with
  | case1 l h => trivial
  | case2 l h ih =>
    have hpos := List.length_pos_iff.mpr (not_or.mp h).2
    by_cases hle : l.length ≤ n
    · rw [List.drop_of_length_le hle, chunks_nil]
      exact ⟨by simp; omega, by simp⟩
    · have hd : l.drop n ≠ [] := by simpa using hle
      rw [chunks_of_ne_nil hn hd] at ih ⊢
      exact ⟨by simp; omega, ih⟩

theorem flatten_chunks (hn : 0 < n) : (chunks n l).flatten = l := by
  fun_induction chunks n l with
  | case1 l h =>
    obtain rfl : l = [] := h.resolve_left hn.ne'
    rfl
  | case2 l h ih => rw [List.flatten_cons, ih, List.take_append_drop]

/-- All pieces are longer than `k` if the last one is. -/
theorem lt_length_chunks_iff {k : Nat} (hk : k < n) :
    (∀ p ∈ chunks n l, k < p.length) ↔ l.length % n = 0 ∨ k < l.length % n := by
  fun_induction chunks n l with
  | case1 l h =>
    obtain rfl : l = [] := h.resolve_left (by omega)
    simp
  | case2 l h ih =>
    have hpos := List.length_pos_iff.mpr (not_or.mp h).2
    rw [List.forall_mem_cons, ih, List.length_take, List.length_drop]
    by_cases hlt : l.length < n
    · rw [Nat.mod_eq_of_lt hlt, Nat.sub_eq_zero_of_le hlt.le, Nat.zero_mod]
      omega
    · rw [← Nat.mod_eq_sub_mod (by omega)]
      omega

end Chunks
