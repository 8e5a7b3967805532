import Mathlib.Data.List.Induction
import Mathlib.Data.List.Nodup
import Mathlib.Data.List.Perm.Basic
import Mathlib.Logic.Function.Basic

/-! A table that shows a list of records: filled from scratch, or kept in step with the list one
change at a time. -/
namespace View

section Distinct

variable {α κ : Type*} {f : α → κ} {l : List α} {a : α} {i : Nat}

theorem nodup_map_push (h : (l.map f).Nodup) (hn : ∀ b ∈ l, f b ≠ f a) :
    ((l ++ [a]).map f).Nodup := by
  rw [((List.perm_append_singleton a l).map f).nodup_iff, List.map_cons, List.nodup_cons]
  exact ⟨by simpa using hn, h⟩

theorem nodup_map_eraseIdx (h : (l.map f).Nodup) : ((l.eraseIdx i).map f).Nodup :=
  h.sublist ((List.eraseIdx_sublist l i).map f)

theorem nodup_map_set (h : (l.map f).Nodup) (hn : ∀ b ∈ l.eraseIdx i, f b ≠ f a) :
    ((l.set i a).map f).Nodup := by
  by_cases hi : i < l.length
  · rw [((List.set_perm_cons_eraseIdx hi a).map f).nodup_iff, List.map_cons, List.nodup_cons]
    exact ⟨by simpa using hn, nodup_map_eraseIdx h⟩
  · rwa [List.set_eq_of_length_le (Nat.le_of_not_lt hi)]

/-- The record at a place is the only one with its key. -/
theorem ne_of_mem_eraseIdx {b : α} (h : (l.map f).Nodup) (hi : l[i]? = some a)
    (hb : b ∈ l.eraseIdx i) : f b ≠ f a := by
  obtain ⟨hlt, rfl⟩ := List.getElem?_eq_some_iff.mp hi
  rw [← ((List.getElem_cons_eraseIdx_perm hlt).map f).nodup_iff, List.map_cons,
    List.nodup_cons] at h
  exact fun he => h.1 (he ▸ List.mem_map_of_mem hb)

/-- All records but the one at a place stay when it is taken out. -/
theorem mem_eraseIdx_of_ne {b : α} (hb : b ∈ l) (hi : l[i]? = some a) (hne : b ≠ a) :
    b ∈ l.eraseIdx i := by
  obtain ⟨hlt, rfl⟩ := List.getElem?_eq_some_iff.mp hi
  have hmem := (List.getElem_cons_eraseIdx_perm hlt).mem_iff.mpr hb
  exact (List.mem_cons.mp hmem).resolve_left hne

theorem mem_set_of_ne {b c : α} (hb : b ∈ l) (hi : l[i]? = some a) (hne : b ≠ a) :
    b ∈ l.set i c := by
  have hlt := (List.getElem?_eq_some_iff.mp hi).1
  exact (List.set_perm_cons_eraseIdx hlt c).mem_iff.mpr
    (List.mem_cons_of_mem c (mem_eraseIdx_of_ne hb hi hne))

end Distinct

/-- How records become entries: under which key, with which value, and whether at all. -/
structure Schema (α κ β : Type*) where
  key : α → κ
  keep : α → Bool
  val : α → β

namespace Schema

variable {α κ β : Type*} {S : Schema α κ β} {l l' : List α} {a b : α} {t t' : κ → Option β}
  {full : Prop} {k : κ} {v : β}

/-- Every entry is that of a record, and if the table is full, every record that is kept has its
entry. -/
structure Shows (S : Schema α κ β) (full : Prop) (t : κ → Option β) (l : List α) : Prop where
  sound : ∀ k v, t k = some v → ∃ a ∈ l, S.keep a = true ∧ S.key a = k ∧ S.val a = v
  complete : full → ∀ a ∈ l, S.keep a = true → t (S.key a) = some (S.val a)

/-- No two records compete for a key, kept or not. -/
def Keyed (S : Schema α κ β) (l : List α) : Prop := (l.map S.key).Nodup

theorem keyed_cons : S.Keyed (a :: l) ↔ (∀ b ∈ l, S.key b ≠ S.key a) ∧ S.Keyed l := by
  simp [Keyed]

theorem Keyed.perm (h : S.Keyed l) (hp : l.Perm l') : S.Keyed l' := (hp.map S.key).nodup_iff.mp h

/-- A full table holds exactly the entries of the records. -/
theorem Shows.eq_some_iff (h : S.Shows full t l) (hf : full) :
    t k = some v ↔ ∃ a ∈ l, S.keep a = true ∧ S.key a = k ∧ S.val a = v := by
  refine ⟨h.sound k v, ?_⟩
  rintro ⟨a, ha, hk, rfl, rfl⟩
  exact h.complete hf a ha hk

/-- What a full table says at the place of a record. -/
theorem Shows.apply_key (h : S.Shows full t l) (hl : S.Keyed l) (hf : full) (ha : a ∈ l) :
    t (S.key a) = if S.keep a then some (S.val a) else none := by
  cases hk : S.keep a with
  | true => simpa using h.complete hf a ha hk
  | false =>
    rw [if_neg (by simp), Option.eq_none_iff_forall_ne_some]
    intro v hv
    obtain ⟨b, hb, hkeep, hkey, -⟩ := h.sound _ v hv
    obtain rfl := List.inj_on_of_nodup_map hl hb ha hkey
    simp [hk] at hkeep

/-- Full tables of the same records are the same. -/
theorem Shows.unique (h : S.Shows full t l) (h' : S.Shows full t' l) (hf : full) : t = t' := by
  funext k
  exact Option.ext fun v => (h.eq_some_iff hf).trans (h'.eq_some_iff hf).symm

/-- Nobody expects anything of a table that is not full. -/
theorem shows_nothing (hf : ¬ full) : S.Shows full (fun _ => none) l :=
  ⟨by simp, fun h => absurd h hf⟩

theorem Shows.perm (h : S.Shows full t l) (hp : l.Perm l') : S.Shows full t l' where
  sound k v hk := by
    obtain ⟨a, ha, hv⟩ := h.sound k v hk
    exact ⟨a, hp.mem_iff.mp ha, hv⟩
  complete hf a ha := h.complete hf a (hp.mem_iff.mpr ha)

variable [DecidableEq κ]

/-- Enter a record that is kept, and clear the place of one that is not. -/
def put (S : Schema α κ β) (t : κ → Option β) (a : α) : κ → Option β :=
  Function.update t (S.key a) (if S.keep a then some (S.val a) else none)

def remove (S : Schema α κ β) (t : κ → Option β) (a : α) : κ → Option β :=
  Function.update t (S.key a) none

/-- Enter all the records that are kept. -/
def fill (S : Schema α κ β) (t : κ → Option β) (l : List α) : κ → Option β :=
  (l.filter S.keep).foldl (fun t a => Function.update t (S.key a) (some (S.val a))) t

theorem Shows.put (h : S.Shows full t l) (hn : ∀ b ∈ l, S.key b ≠ S.key a) :
    S.Shows full (S.put t a) (a :: l) where
  sound k v hk := by
    by_cases he : k = S.key a
    · subst he
      cases ha : S.keep a <;> simp_all [Schema.put]
    · rw [Schema.put, Function.update_of_ne he] at hk
      obtain ⟨b, hb, hv⟩ := h.sound k v hk
      exact ⟨b, List.mem_cons_of_mem a hb, hv⟩
  complete hf b hb hk := by
    rcases List.mem_cons.mp hb with rfl | hb
    · simp [Schema.put, hk]
    · rw [Schema.put, Function.update_of_ne (hn b hb)]
      exact h.complete hf b hb hk

theorem Shows.remove (h : S.Shows full t (a :: l)) (hn : ∀ b ∈ l, S.key b ≠ S.key a) :
    S.Shows full (S.remove t a) l where
  sound k v hk := by
    by_cases he : k = S.key a
    · subst he
      simp [Schema.remove] at hk
    · rw [Schema.remove, Function.update_of_ne he] at hk
      obtain ⟨b, hb, hkeep, rfl, hv⟩ := h.sound k v hk
      rcases List.mem_cons.mp hb with rfl | hb
      · exact absurd rfl he
      · exact ⟨b, hb, hkeep, rfl, hv⟩
  complete hf b hb hk := by
    rw [Schema.remove, Function.update_of_ne (hn b hb)]
    exact h.complete hf b (List.mem_cons_of_mem a hb) hk

theorem fill_cons :
    S.fill t (a :: l) =
      S.fill (if S.keep a then Function.update t (S.key a) (some (S.val a)) else t) l := by
  cases ha : S.keep a <;> simp [fill, ha]

theorem fill_of_ne (hn : ∀ b ∈ l, S.key b ≠ k) : S.fill t l k = t k := by
  induction l generalizing t with
  | nil => rfl
  | cons a l ih =>
    rw [fill_cons, ih fun b hb => hn b (List.mem_cons_of_mem a hb)]
    split
    · exact Function.update_of_ne (hn a List.mem_cons_self).symm _ _
    · rfl

/-- An entry of a filled table was there before or is that of a record. -/
theorem fill_sound (hk : S.fill t l k = some v) :
    t k = some v ∨ ∃ a ∈ l, S.keep a = true ∧ S.key a = k ∧ S.val a = v := by
  induction l generalizing t with
  | nil => exact .inl hk
  | cons a l ih =>
    rw [fill_cons] at hk
    rcases ih hk with hk | ⟨b, hb, hv⟩
    · by_cases he : S.keep a = true ∧ S.key a = k
      · obtain ⟨ha, rfl⟩ := he
        rw [if_pos ha, Function.update_self, Option.some_inj] at hk
        exact .inr ⟨a, List.mem_cons_self, ha, rfl, hk⟩
      · refine .inl ?_
        split at hk
        · rwa [Function.update_of_ne fun h => he ⟨‹_›, h.symm⟩] at hk
        · exact hk
    · exact .inr ⟨b, List.mem_cons_of_mem a hb, hv⟩

theorem fill_complete (hl : S.Keyed l) (ha : a ∈ l) (hk : S.keep a = true) :
    S.fill t l (S.key a) = some (S.val a) := by
  induction l generalizing t with
  | nil => cases ha
  | cons b l ih =>
    obtain ⟨hn, hl⟩ := keyed_cons.mp hl
    rw [fill_cons]
    rcases List.mem_cons.mp ha with rfl | ha
    · rw [fill_of_ne hn, if_pos hk, Function.update_self]
    · exact ih hl ha

/-- Filling a table completes it. -/
theorem Shows.fill {full' : Prop} (h : S.Shows full t l) (hl : S.Keyed l) :
    S.Shows full' (S.fill t l) l where
  sound k v hk := (fill_sound hk).elim (h.sound k v) id
  complete _ _ ha hk := fill_complete hl ha hk

/-- A record is added. -/
theorem Shows.push (h : S.Shows full t l) (hk : S.Keyed (l ++ [a])) :
    S.Shows full (S.put t a) (l ++ [a]) :=
  (h.put (keyed_cons.mp (hk.perm (List.perm_append_singleton a l))).1).perm
    (List.perm_append_singleton a l).symm

section

variable {i : Nat} (hi : l[i]? = some a) (hl : S.Keyed l)
include hi hl

/-- A record is taken out. -/
theorem Shows.eraseIdx (h : S.Shows full t l) : S.Shows full (S.remove t a) (l.eraseIdx i) := by
  obtain ⟨hlt, rfl⟩ := List.getElem?_eq_some_iff.mp hi
  have hp := List.getElem_cons_eraseIdx_perm hlt
  exact (h.perm hp.symm).remove (keyed_cons.mp (hl.perm hp.symm)).1

/-- A record takes another one's place: the old entry goes before the new one comes. -/
theorem Shows.set (h : S.Shows full t l) (hk : S.Keyed (l.set i b)) :
    S.Shows full (S.put (S.remove t a) b) (l.set i b) := by
  have hlt := (List.getElem?_eq_some_iff.mp hi).1
  have hp := List.set_perm_cons_eraseIdx hlt b
  exact ((h.eraseIdx hi hl).put (keyed_cons.mp (hk.perm hp)).1).perm hp.symm

end

end Schema

end View
