import Mathlib.Data.List.Basic
import Mathlib.Logic.Function.Basic

/-! Tables whose entries are good for a limited time. -/
namespace Expiry

variable {κ ν : Type*}

/-- For each key the time of its entry and what was entered. -/
abbrev Table (κ ν : Type*) := κ → Option (Nat × ν)

namespace Table

variable {c : Table κ ν} {log : List (κ × Nat × ν)} {ttl now now' : Nat} {k : κ} {v : ν}

/-- The entry of a key while it is good. -/
def get (c : Table κ ν) (ttl now : Nat) (k : κ) : Option ν :=
  ((c k).filter fun entry => decide (now - entry.1 < ttl)).map Prod.snd

/-- Drop what is no longer good. -/
def retain (c : Table κ ν) (ttl now : Nat) : Table κ ν :=
  fun k => (c k).filter fun entry => decide (now - entry.1 < ttl)

def insert [DecidableEq κ] (c : Table κ ν) (now : Nat) (k : κ) (v : ν) : Table κ ν :=
  Function.update c k (some (now, v))

/-- Every entry is one of those that have been made. -/
def From (c : Table κ ν) (log : List (κ × Nat × ν)) (now : Nat) : Prop :=
  ∀ k t v, c k = some (t, v) → (k, t, v) ∈ log ∧ t ≤ now

theorem From.mono (h : c.From log now) (hn : now ≤ now') : c.From log now' := by
  intro k t v hk
  obtain ⟨hmem, hle⟩ := h k t v hk
  exact ⟨hmem, Nat.le_trans hle hn⟩

theorem From.retain (h : c.From log now) : (c.retain ttl now).From log now := by
  intro k t v hk
  exact h k t v (Option.filter_eq_some_iff.mp hk).1

theorem From.insert [DecidableEq κ] (h : c.From log now) :
    (c.insert now k v).From (log ++ [(k, now, v)]) now := by
  intro k' t v' hk
  by_cases he : k' = k
  · subst he
    rw [Table.insert, Function.update_self, Option.some_inj, Prod.mk.injEq] at hk
    obtain ⟨rfl, rfl⟩ := hk
    exact ⟨List.mem_append_right _ (List.mem_singleton_self _), Nat.le_refl _⟩
  · rw [Table.insert, Function.update_of_ne he] at hk
    obtain ⟨hmem, hle⟩ := h k' t v' hk
    exact ⟨List.mem_append_left _ hmem, hle⟩

/-- What is found has been entered less than the time to live ago. -/
theorem From.get (h : c.From log now) (hk : c.get ttl now k = some v) :
    ∃ t, (k, t, v) ∈ log ∧ t ≤ now ∧ now < t + ttl := by
  obtain ⟨⟨t, v'⟩, he, rfl⟩ := Option.map_eq_some_iff.mp hk
  obtain ⟨he, hlt⟩ := Option.filter_eq_some_iff.mp he
  obtain ⟨hmem, hle⟩ := h k t v' he
  have hlt : now - t < ttl := by simpa using hlt
  exact ⟨t, hmem, hle, by omega⟩

end Table

end Expiry
