import Mathlib.Data.Finset.Max

/-! Rate bounds on the times at which something was let through: a burst, and so many per unit of
time in every window. -/
namespace Budget

variable {burst rate unit gap a d : Nat} {l l₁ l₂ : List Nat}

/-- How many of the times are in the window of length `d` that starts at `a`. -/
def inWindow (l : List Nat) (a d : Nat) : Nat := l.countP fun x => a ≤ x ∧ x ≤ a + d

/-- In every window, at most the burst and what the rate yields over the window. -/
def Bounded (burst rate unit : Nat) (l : List Nat) : Prop :=
  ∀ a d, inWindow l a d * unit ≤ burst * unit + rate * d

@[simp] theorem inWindow_nil : inWindow [] a d = 0 := rfl

theorem inWindow_append : inWindow (l₁ ++ l₂) a d = inWindow l₁ a d + inWindow l₂ a d :=
  List.countP_append

/-- A window counts only times that it has. -/
theorem inWindow_mono {a' d' : Nat} (h : ∀ x ∈ l, a ≤ x → x ≤ a + d → a' ≤ x ∧ x ≤ a' + d') :
    inWindow l a d ≤ inWindow l a' d' := by
  refine List.countP_mono_left fun x hx hw => ?_
  simp only [decide_eq_true_eq] at hw ⊢
  exact h x hx hw.1 hw.2

theorem inWindow_eq_zero (h : ∀ x ∈ l, x < a ∨ a + d < x) : inWindow l a d = 0 := by
  refine List.countP_eq_zero.mpr fun x hx hw => ?_
  simp only [decide_eq_true_eq] at hw
  have := h x hx
  omega

theorem inWindow_le_length : inWindow l a d ≤ l.length := List.countP_le_length

theorem bounded_of_length (h : l.length ≤ burst) : Bounded burst rate unit l := by
  intro a d
  have hle : inWindow l a d ≤ burst := inWindow_le_length.trans h
  exact (Nat.mul_le_mul_right unit hle).trans (Nat.le_add_right _ _)

/-- Up to the cut, and from the cut and the gap on. -/
theorem Bounded.append_of_cut (cut : Nat) (h₁ : Bounded burst rate unit l₁)
    (h₂ : Bounded burst rate unit l₂) (hcut : ∀ x ∈ l₁, x ≤ cut) (hgap : ∀ y ∈ l₂, cut + gap ≤ y)
    (hrefill : burst * unit ≤ rate * gap) : Bounded burst rate unit (l₁ ++ l₂) := by
  intro a d
  rw [inWindow_append]
  by_cases hbefore : cut < a
  · -- The window begins after the cut.
    have hzero : inWindow l₁ a d = 0 := by
      refine inWindow_eq_zero fun x hx => ?_
      have := hcut x hx
      omega
    rw [hzero, Nat.zero_add]
    exact h₂ a d
  · by_cases hafter : a + d < cut + gap
    · have hzero : inWindow l₂ a d = 0 := by
        refine inWindow_eq_zero fun y hy => ?_
        have := hgap y hy
        omega
      rw [hzero, Nat.add_zero]
      exact h₁ a d
    · -- Each list is left with its part of the window, and the gap pays for the second burst.
      have hleft : inWindow l₁ a d ≤ inWindow l₁ a (cut - a) := by
        refine inWindow_mono fun x hx hax _ => ?_
        have := hcut x hx
        omega
      have hright : inWindow l₂ a d ≤ inWindow l₂ (cut + gap) (a + d - (cut + gap)) := by
        refine inWindow_mono fun y hy _ hyd => ?_
        have := hgap y hy
        omega
      have hb₁ := h₁ a (cut - a)
      have hb₂ := h₂ (cut + gap) (a + d - (cut + gap))
      have hd : d = (cut - a) + gap + (a + d - (cut + gap)) := by omega
      calc (inWindow l₁ a d + inWindow l₂ a d) * unit
          ≤ inWindow l₁ a (cut - a) * unit +
              inWindow l₂ (cut + gap) (a + d - (cut + gap)) * unit := by
            rw [Nat.add_mul]
            exact Nat.add_le_add (Nat.mul_le_mul_right unit hleft) (Nat.mul_le_mul_right unit hright)
        _ ≤ burst * unit + rate * (cut - a) + (rate * gap + rate * (a + d - (cut + gap))) := by
            omega
        _ = burst * unit + rate * d := by
            conv_rhs => rw [hd]
            rw [Nat.mul_add, Nat.mul_add]
            omega

/-- Two bounded lists are bounded together if the time between them refills the burst. -/
theorem Bounded.append (h₁ : Bounded burst rate unit l₁) (h₂ : Bounded burst rate unit l₂)
    (hgap : ∀ x ∈ l₁, ∀ y ∈ l₂, x + gap ≤ y) (hrefill : burst * unit ≤ rate * gap) :
    Bounded burst rate unit (l₁ ++ l₂) := by
  by_cases hnil : l₁ = []
  · rw [hnil]
    exact h₂
  · have hne : l₁.toFinset.Nonempty := List.toFinset_nonempty_iff l₁ |>.mpr hnil
    obtain ⟨cut, hmem, hmax⟩ := l₁.toFinset.exists_max_image id hne
    refine h₁.append_of_cut cut h₂ ?_ ?_ hrefill
    · intro x hx
      exact hmax x (List.mem_toFinset.mpr hx)
    · exact hgap cut (List.mem_toFinset.mp hmem)

/-- How many of the times are not before `a`. -/
def since (l : List Nat) (a : Nat) : Nat := l.countP fun x => a ≤ x

theorem inWindow_le_since : inWindow l a d ≤ since l a := by
  refine List.countP_mono_left fun x _ hw => ?_
  simp only [decide_eq_true_eq] at hw ⊢
  exact hw.1

theorem since_append : since (l₁ ++ l₂) a = since l₁ a + since l₂ a := List.countP_append

theorem since_singleton {x : Nat} (h : a ≤ x) : since [x] a = 1 := by simp [since, h]

theorem since_eq_zero (h : ∀ x ∈ l, x < a) : since l a = 0 := by
  refine List.countP_eq_zero.mpr fun x hx hle => ?_
  have := h x hx
  simp only [decide_eq_true_eq] at hle
  omega

/-- One more time keeps the bound on every window if it keeps it on those that end with it. -/
theorem window_snoc {x c : Nat} (hl : ∀ a d, inWindow l a d * unit ≤ c + d)
    (hx : ∀ a, a ≤ x → (since l a + 1) * unit ≤ c + (x - a)) (a d : Nat) :
    inWindow (l ++ [x]) a d * unit ≤ c + d := by
  rw [inWindow_append]
  by_cases hin : a ≤ x ∧ x ≤ a + d
  · have hone : inWindow [x] a d = 1 := by simp [inWindow, hin]
    have hle : inWindow l a d + 1 ≤ since l a + 1 := Nat.succ_le_succ inWindow_le_since
    have := hx a hin.1
    rw [hone]
    calc (inWindow l a d + 1) * unit ≤ (since l a + 1) * unit := Nat.mul_le_mul_right unit hle
      _ ≤ c + d := by omega
  · have hzero : inWindow [x] a d = 0 := inWindow_eq_zero (by simp; omega)
    rw [hzero, Nat.add_zero]
    exact hl a d

end Budget
