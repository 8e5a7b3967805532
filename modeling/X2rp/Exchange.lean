import Mathlib.Data.List.Infix

/-! Two parties joined by a channel each way. The amounts they trade are conserved, and what
one of them sends the other keeps in order, until it stops taking its mail. -/
namespace Exchange

/-- What a party holds, and whether it still takes what is sent to it. -/
structure Account where
  value : Int
  live : Bool

/-- One step of a party that takes `inp` in and sends `out`: it creates nothing, and loses
nothing while it is live. -/
structure Account.Step (a : Account) (inp out : Nat) (a' : Account) : Prop where
  live : a'.live = true → a.live = true
  nonneg : 0 ≤ a'.value
  le : a'.value + out ≤ a.value + inp
  eq : a'.live = true → a'.value + out = a.value + inp

theorem Account.Step.of_eq {a a' : Account} {inp out : Nat}
    (hl : a'.live = true → a.live = true) (hn : 0 ≤ a'.value)
    (he : a'.value + out = a.value + inp) : a.Step inp out a' :=
  ⟨hl, hn, Int.le_of_eq he, fun _ => he⟩

/-- An account that is closed may drop what it takes in. -/
theorem Account.Step.of_closed {a a' : Account} {inp out : Nat} (hl : a'.live = false)
    (hn : 0 ≤ a'.value) (he : a'.value + out ≤ a.value + inp) : a.Step inp out a' :=
  ⟨by simp [hl], hn, he, by simp [hl]⟩

/-- Two accounts and the amounts on their way from each to the other. -/
structure Balanced (cap : Nat) (a b : Account) (ab ba : Nat) : Prop where
  left : 0 ≤ a.value
  right : 0 ≤ b.value
  le : a.value + ab + b.value + ba ≤ cap
  eq : a.live = true → b.live = true → a.value + ab + b.value + ba = cap

namespace Balanced

variable {cap ab ba inp out : Nat} {a a' b : Account}

theorem symm (h : Balanced cap a b ab ba) : Balanced cap b a ba ab where
  left := h.right
  right := h.left
  le := by have := h.le; omega
  eq hb ha := by have := h.eq ha hb; omega

theorem le_left (h : Balanced cap a b ab ba) : a.value ≤ cap := by
  have := h.le
  have := h.right
  omega

/-- The bound that a party may rely on when it takes something in. -/
theorem take_le (h : Balanced cap a b ab (inp + ba)) : a.value + inp ≤ cap := by
  have := h.le
  have := h.right
  omega

theorem send (h : Balanced cap a b ab ba) (hs : a.Step 0 out a') :
    Balanced cap a' b (ab + out) ba where
  left := hs.nonneg
  right := h.right
  le := by have := h.le; have := hs.le; omega
  eq ha hb := by have := h.eq (hs.live ha) hb; have := hs.eq ha; omega

theorem recv (h : Balanced cap a b ab (inp + ba)) (hs : a.Step inp 0 a') :
    Balanced cap a' b ab ba where
  left := hs.nonneg
  right := h.right
  le := by have := h.le; have := hs.le; omega
  eq ha hb := by have := h.eq (hs.live ha) hb; have := hs.eq ha; omega

end Balanced

/-- A receiver of the messages `ins` that has kept `got` of their contents. It keeps all of them
in order while it is live. Once it is not, it stopped at a message that says so, unless it has
another reason. -/
structure Reception {α β : Type*} (content : α → List β) (stop : α → Prop) (ins : List α)
    (got : List β) (live excused : Prop) : Prop where
  le : got <+: ins.flatMap content
  eq : live → got = ins.flatMap content
  cut : ¬ live → excused ∨ ∃ before b after, ins = before ++ b :: after ∧ stop b ∧
    got = before.flatMap content

namespace Reception

variable {α β : Type*} {content : α → List β} {stop : α → Prop} {ins rest : List α}
  {got got' : List β} {live live' excused excused' : Prop} {b : α}

theorem init : Reception content stop [] [] True excused := ⟨by simp, by simp, by simp⟩

/-- A live receiver keeps what the next message brings. -/
theorem take (h : Reception content stop ins got live excused) (hl : live) :
    Reception content stop (ins ++ [b]) (got ++ content b) live excused := by
  have he : got ++ content b = (ins ++ [b]).flatMap content := by simp [h.eq hl]
  exact ⟨he ▸ List.prefix_rfl, fun _ => he, fun hn => absurd hl hn⟩

/-- A receiver that has stopped drops the next message. -/
theorem skip (h : Reception content stop ins got live excused) (hl : ¬ live) :
    Reception content stop (ins ++ [b]) got live excused where
  le := by
    rw [List.flatMap_append]
    exact h.le.trans (List.prefix_append ..)
  eq hl' := absurd hl' hl
  cut _ := by
    refine (h.cut hl).imp_right ?_
    rintro ⟨before, c, after, rfl, hc, he⟩
    exact ⟨before, c, after ++ [b], by simp, hc, he⟩

/-- A message without content changes nothing. -/
theorem pass (h : Reception content stop ins got live excused) (hb : content b = []) :
    Reception content stop (ins ++ [b]) got live excused := by
  by_cases hl : live
  · simpa [hb] using h.take (b := b) hl
  · exact h.skip hl

/-- A receiver may stop at a message that says so. -/
theorem halt (h : Reception content stop ins got live excused) (hb : stop b)
    (hc : content b = []) (hl : ¬ live') :
    Reception content stop (ins ++ [b]) got live' excused where
  le := (h.pass hc).le
  eq hl' := absurd hl' hl
  cut _ := by
    by_cases hlive : live
    · exact .inr ⟨ins, b, [], rfl, hb, h.eq hlive⟩
    · exact (h.skip hlive).cut hlive

/-- Nothing is received and nothing lost. -/
theorem congr (h : Reception content stop ins got live excused) (hg : got' = got)
    (hl : live' → live) (hs : live → ¬ live' → excused') (he : excused → excused') :
    Reception content stop ins got' live' excused' where
  le := hg ▸ h.le
  eq hlive := hg.trans (h.eq (hl hlive))
  cut hn := by
    by_cases hlive : live
    · exact .inl (hs hlive hn)
    · exact (h.cut hlive).imp he fun ⟨before, b, after, hi, hb, hg'⟩ =>
        ⟨before, b, after, hi, hb, hg.trans hg'⟩

/-- A receiver with an excuse may lose what it has got last. -/
theorem lose (h : Reception content stop ins got live excused) (hg : got' <+: got)
    (hl : ¬ live') (he : excused') : Reception content stop ins got' live' excused' :=
  ⟨hg.trans h.le, fun hlive => absurd hlive hl, fun _ => .inl he⟩

theorem stopped (h : Reception content stop ins got live excused) (hl : ¬ live)
    (he : ¬ excused) : ∃ b ∈ ins, stop b := by
  obtain ⟨before, b, after, rfl, hb, -⟩ := (h.cut hl).resolve_left he
  exact ⟨b, by simp, hb⟩

/-- A receiver that has stopped, and not for its own reasons, has all there is, if the sender
sends no content after a message that says stop. -/
theorem complete (h : Reception content stop ins got live excused) (hl : ¬ live)
    (he : ¬ excused) (hstop : ∀ b, stop b → content b = [])
    (hlast : (ins ++ rest).Pairwise fun a b => stop a → content b = []) :
    got = (ins ++ rest).flatMap content := by
  obtain ⟨before, b, after, rfl, hb, rfl⟩ := (h.cut hl).resolve_left he
  rw [List.append_assoc, List.cons_append] at hlast ⊢
  have hnil : ∀ c ∈ b :: (after ++ rest), content c = [] := by
    refine List.forall_mem_cons.mpr ⟨hstop b hb, fun c hc => ?_⟩
    exact (List.pairwise_cons.mp (List.pairwise_append.mp hlast).2.1).1 c hc hb
  rw [List.flatMap_append, List.flatMap_eq_nil_iff.mpr hnil, List.append_nil]

end Reception

end Exchange
