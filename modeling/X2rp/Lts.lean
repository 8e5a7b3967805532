import Mathlib.Logic.Relation

/-! Labelled transition systems: reachability, invariants, and runs with their traffic. -/

/-- Which states a system may start in and which labelled steps it may take. -/
structure LTS (σ ε : Type*) where
  Init : σ → Prop
  Tr : σ → ε → σ → Prop

namespace LTS

variable {σ τ ε δ : Type*} {L : LTS σ ε} {s t : σ} {e : ε} {P Q : σ → Prop}

/-- States at the end of some finite run from an initial state. -/
inductive Reachable (L : LTS σ ε) : σ → Prop
  | init {s : σ} (h : L.Init s) : Reachable L s
  | step {s t : σ} {e : ε} (h : Reachable L s) (ht : L.Tr s e t) : Reachable L t

/-- Finite runs with their labels, oldest first. -/
inductive MTr (L : LTS σ ε) : σ → List ε → σ → Prop
  | refl {s : σ} : MTr L s [] s
  | stepL {s t u : σ} {e : ε} {es : List ε} (h : L.Tr s e t) (ht : MTr L t es u) :
      MTr L s (e :: es) u

theorem Reachable.trans {es : List ε} (h : L.Reachable s) (ht : L.MTr s es t) :
    L.Reachable t := by
  induction ht with
  | refl => exact h
  | stepL hs _ ih => exact ih (h.step hs)

theorem MTr.trans {u : σ} {es es' : List ε} (h : L.MTr s es t) (h' : L.MTr t es' u) :
    L.MTr s (es ++ es') u := by
  induction h with
  | refl => exact h'
  | stepL hs _ ih => exact .stepL hs (ih h')

/-- What holds initially and survives every step holds of every reachable state. -/
theorem Reachable.invariant (h : L.Reachable s) (h0 : ∀ s, L.Init s → P s)
    (hs : ∀ s e t, P s → L.Tr s e t → P t) : P s := by
  induction h with
  | init h => exact h0 _ h
  | step _ ht ih => exact hs _ _ _ ih ht

/-- An invariant may lean on another one that is already established. -/
theorem Reachable.invariant_of (h : L.Reachable s) (hQ : ∀ s, L.Reachable s → Q s)
    (h0 : ∀ s, L.Init s → P s)
    (hs : ∀ s e t, Q s → Q t → P s → L.Tr s e t → P t) : P s := by
  induction h with
  | init h => exact h0 _ h
  | step h ht ih => exact hs _ _ _ (hQ _ h) (hQ _ (h.step ht)) ih ht

/-- The runs of `L` whose every step meets the condition `C`. -/
def restrict (L : LTS σ ε) (C : σ → ε → σ → Prop) : LTS σ ε where
  Init := L.Init
  Tr s e t := L.Tr s e t ∧ C s e t

theorem Reachable.of_restrict {C : σ → ε → σ → Prop} (h : (L.restrict C).Reachable s) :
    L.Reachable s := by
  induction h with
  | init h => exact .init h
  | step _ ht ih => exact ih.step ht.1

theorem Reachable.restrict_mono {C D : σ → ε → σ → Prop} (h : (L.restrict C).Reachable s)
    (hC : ∀ s e t, C s e t → D s e t) : (L.restrict D).Reachable s := by
  induction h with
  | init h => exact .init h
  | step _ ht ih => exact ih.step ⟨ht.1, hC _ _ _ ht.2⟩

/-- A run whose steps all lower a measure is no longer than the measure. -/
theorem MTr.length_le {m : σ → Nat} {es : List ε} (h : L.MTr s es t)
    (hm : ∀ s e t, L.Tr s e t → m t < m s) : es.length + m t ≤ m s := by
  induction h with
  | refl => simp
  | stepL hs _ ih =>
    have := hm _ _ _ hs
    simp only [List.length_cons]
    omega

/-- How a step of a component shows on its channels. -/
inductive Port (α : Type*)
  | internal
  | output (a : α)
  | input (a : α)
deriving DecidableEq

section Run

variable {α : Type*} {K : LTS σ (Port α)} {ins outs : List α}

/-- The finite runs of a component, with what it has taken in and sent, oldest first. -/
inductive Run (K : LTS σ (Port α)) : List α → List α → σ → Prop
  | init {s : σ} (h : K.Init s) : Run K [] [] s
  | internal {ins outs : List α} {s t : σ} (h : Run K ins outs s) (ht : K.Tr s .internal t) :
      Run K ins outs t
  | output {ins outs : List α} {s t : σ} {a : α} (h : Run K ins outs s)
      (ht : K.Tr s (.output a) t) : Run K ins (outs ++ [a]) t
  | input {ins outs : List α} {s t : σ} {a : α} (h : Run K ins outs s)
      (ht : K.Tr s (.input a) t) : Run K (ins ++ [a]) outs t

/-- The invariant rule for what does not depend on the traffic. -/
theorem Run.invariant (h : K.Run ins outs s) (h0 : ∀ s, K.Init s → P s)
    (hs : ∀ s q t, P s → K.Tr s q t → P t) : P s := by
  induction h with
  | init h => exact h0 _ h
  | internal _ ht ih => exact hs _ _ _ ih ht
  | output _ ht ih => exact hs _ _ _ ih ht
  | input _ ht ih => exact hs _ _ _ ih ht

end Run

theorem MTr.of_restrict {C : σ → ε → σ → Prop} {es : List ε} (h : (L.restrict C).MTr s es t) :
    L.MTr s es t := by
  induction h with
  | refl => exact .refl
  | stepL hs _ ih => exact .stepL hs.1 ih

theorem MTr.restrict {C : ε → Prop} {es : List ε} (h : L.MTr s es t) (hC : ∀ e ∈ es, C e) :
    (L.restrict fun _ e _ => C e).MTr s es t := by
  induction h with
  | refl => exact .refl
  | stepL hs _ ih =>
    rw [List.forall_mem_cons] at hC
    exact .stepL ⟨hs, hC.1⟩ (ih hC.2)

end LTS
