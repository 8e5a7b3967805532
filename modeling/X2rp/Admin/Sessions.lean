import Mathlib.Data.List.Nodup
import Mathlib.Data.List.Sort
import X2rp.Admin.Auth

/-! The map of admin sessions: what it holds for each id, and who has to go when it is full. -/
namespace X2rp.Admin

variable {t t' : Nat} {sid sid' token : String} {a : AdminSession}

theorem expired_eq_false : adminSessionExpired t a = false ↔
    elapsedSecsSince t a.lastAccess ≤ sessionIdleTtlSecs ∧
      elapsedSecsSince t a.createdAt ≤ sessionAbsoluteTtlSecs := by
  simp only [adminSessionExpired, Bool.or_eq_false_iff, decide_eq_false_iff_not, Nat.not_lt]

theorem expired_mono (ht : t ≤ t') (h : adminSessionExpired t a = true) :
    adminSessionExpired t' a = true := by
  have hmono : ∀ at', elapsedSecsSince t at' ≤ elapsedSecsSince t' at' := by
    intro at'
    exact Nat.div_le_div_right (by omega)
  have h1 := hmono a.lastAccess
  have h2 := hmono a.createdAt
  simp only [adminSessionExpired, Bool.or_eq_true, decide_eq_true_eq] at h ⊢
  omega

theorem elapsedSecsSince_self : elapsedSecsSince t t = 0 := by
  simp [elapsedSecsSince]

theorem not_expired_new : adminSessionExpired t ⟨token, t, t⟩ = false := by
  rw [expired_eq_false, elapsedSecsSince_self]
  exact ⟨Nat.zero_le _, Nat.zero_le _⟩

theorem not_expired_touch (h : adminSessionExpired t a = false) :
    adminSessionExpired t { a with lastAccess := t } = false := by
  rw [expired_eq_false] at h ⊢
  rw [elapsedSecsSince_self]
  exact ⟨Nat.zero_le _, h.2⟩

/-- What a session is worth to each id. -/
abbrev Lives := String → Option AdminSession

namespace Lives

variable (f : Lives)

/-- The sessions that are good at a time. -/
def live (t : Nat) : Lives := fun sid => (f sid).filter fun a => !adminSessionExpired t a

def drop (ids : List String) : Lives := fun sid => if sid ∈ ids then none else f sid

variable {f}

theorem live_eq_some : f.live t sid = some a ↔ f sid = some a ∧ adminSessionExpired t a = false := by
  simp [live, Option.filter_eq_some_iff]

/-- What is good later is good now. -/
theorem live_live (ht : t ≤ t') : (f.live t).live t' = f.live t' := by
  funext sid
  refine Option.ext fun a => ?_
  rw [live_eq_some, live_eq_some, live_eq_some, and_assoc, and_congr_right_iff]
  intro _
  refine ⟨And.right, fun h => ⟨?_, h⟩⟩
  rw [Bool.eq_false_iff] at h ⊢
  exact fun hx => h (expired_mono ht hx)

theorem live_congr {g : Lives} (ht : t ≤ t') (h : f.live t = g.live t) : f.live t' = g.live t' := by
  rw [← live_live ht, h, live_live ht]

theorem live_drop (ids : List String) : (f.drop ids).live t = (f.live t).drop ids := by
  funext sid
  simp only [live, drop]
  split <;> rfl

theorem live_update (h : adminSessionExpired t a = false) :
    Lives.live (Function.update f sid (some a)) t = Function.update (f.live t) sid (some a) := by
  funext sid'
  by_cases hs : sid' = sid
  · subst hs
    simp [live, h]
  · simp [live, hs]

end Lives

namespace Sessions

variable {s s' : Sessions}

/-- No two entries have the same id. -/
def Keyed (s : Sessions) : Prop := (s.map Prod.fst).Nodup

theorem get_eq_some (hk : s.Keyed) : s.get sid = some a ↔ (sid, a) ∈ s := by
  induction s with
  | nil => simp [get]
  | cons entry s ih =>
    obtain ⟨k, b⟩ := entry
    obtain ⟨hnot, hk⟩ := List.nodup_cons.mp hk
    by_cases hs : k = sid
    · subst hs
      have hmem : (k, a) ∉ s := fun h => hnot (List.mem_map.mpr ⟨_, h, rfl⟩)
      simp [get, hmem, eq_comm]
    · have hne : (sid, a) ≠ (k, b) := fun h => hs (congrArg Prod.fst h).symm
      rw [List.mem_cons, or_iff_right hne, ← ih hk]
      simp [get, hs]

theorem Keyed.perm (hk : s.Keyed) (hp : s'.Perm s) : s'.Keyed := (hp.map _).nodup_iff.mpr hk

theorem Keyed.remove (hk : s.Keyed) : (s.remove sid).Keyed :=
  hk.sublist (List.filter_sublist.map _)

theorem Keyed.cleanupExpired (hk : s.Keyed) : (s.cleanupExpired t).Keyed :=
  hk.sublist (List.filter_sublist.map _)

theorem get_perm (hk : s.Keyed) (hp : s'.Perm s) : s'.get = s.get := by
  funext sid
  refine Option.ext fun a => ?_
  rw [get_eq_some (hk.perm hp), get_eq_some hk, hp.mem_iff]

/-- Two maps with the same entries hold them in some order each. -/
theorem Keyed.perm_of_get (hk : s.Keyed) (hk' : s'.Keyed) (h : s.get = s'.get) : s.Perm s' := by
  refine (List.perm_ext_iff_of_nodup hk.of_map hk'.of_map).mpr fun entry => ?_
  rw [← get_eq_some hk, ← get_eq_some hk', h]

theorem get_remove (hk : s.Keyed) : (s.remove sid).get = Lives.drop s.get [sid] := by
  funext sid'
  refine Option.ext fun a => ?_
  rw [get_eq_some hk.remove]
  by_cases hs : sid' = sid
  · simp [remove, Lives.drop, hs]
  · simp [remove, Lives.drop, hs, get_eq_some hk]

theorem get_cleanupExpired (hk : s.Keyed) : (s.cleanupExpired t).get = Lives.live s.get t := by
  funext sid
  refine Option.ext fun a => ?_
  rw [get_eq_some hk.cleanupExpired, Lives.live_eq_some, get_eq_some hk]
  simp [cleanupExpired]

theorem keyed_insert (hk : s.Keyed) : (s.insert sid a).Keyed := by
  unfold Keyed insert
  rw [List.map_append, List.nodup_append]
  refine ⟨hk.remove, by simp, ?_⟩
  intro k hk' k' hs
  obtain ⟨entry, hmem, rfl⟩ := List.mem_map.mp hk'
  simp only [List.map_cons, List.map_nil, List.mem_singleton] at hs
  subst hs
  simpa using (List.mem_filter.mp hmem).2

theorem get_insert (hk : s.Keyed) : (s.insert sid a).get = Function.update s.get sid (some a) := by
  funext sid'
  refine Option.ext fun b => ?_
  rw [get_eq_some (keyed_insert hk)]
  by_cases hs : sid' = sid
  · subst hs
    simp [insert, remove, eq_comm]
  · simp [insert, remove, hs, get_eq_some hk]

/-- The session has just been used. -/
def touch (s : Sessions) (t : Nat) (sid : String) : Sessions :=
  s.map fun entry => if entry.1 = sid then (sid, { entry.2 with lastAccess := t }) else entry

theorem keyed_touch (hk : s.Keyed) : (s.touch t sid).Keyed := by
  have hkeys : (s.touch t sid).map Prod.fst = s.map Prod.fst := by
    rw [touch, List.map_map]
    refine List.map_congr_left fun entry _ => ?_
    simp only [Function.comp]
    split
    · exact Eq.symm ‹_›
    · rfl
  rw [Keyed, hkeys]
  exact hk

theorem get_touch (hk : s.Keyed) (ha : s.get sid = some a) :
    (s.touch t sid).get = Function.update s.get sid (some { a with lastAccess := t }) := by
  funext sid'
  refine Option.ext fun b => ?_
  rw [get_eq_some (keyed_touch hk), touch, List.mem_map]
  by_cases hs : sid' = sid
  · subst hs
    rw [Function.update_self, Option.some_inj]
    constructor
    · rintro ⟨⟨k, c⟩, hmem, he⟩
      by_cases hkey : k = sid'
      · subst hkey
        rw [← get_eq_some hk, ha] at hmem
        cases hmem
        simpa using he
      · simp [hkey] at he
    · rintro rfl
      exact ⟨(sid', a), (get_eq_some hk).mp ha, by simp⟩
  · rw [Function.update_of_ne hs, get_eq_some hk]
    constructor
    · rintro ⟨⟨k, c⟩, hmem, he⟩
      by_cases hkey : k = sid
      · simp [hkey, Ne.symm hs] at he
      · simp only [hkey, if_false] at he
        exact he ▸ hmem
    · intro hmem
      exact ⟨_, hmem, by simp [hs]⟩

/-- The ids that `make_room` takes away although they are good. -/
def evicted (s : Sessions) (t : Nat) : List String :=
  if s.length < maxAdminSessions then []
  else
    let kept := s.cleanupExpired t
    let excess := kept.length + 1 - maxAdminSessions
    ((kept.mergeSort fun a b => decide (a.2.lastAccess ≤ b.2.lastAccess)).take excess).map Prod.fst

/-- Who may have to go when there is to be room: nobody, or if all places are taken by good
sessions, one that has not been used for the longest time. -/
inductive Evicts (good : Sessions) : List String → Prop
  | nobody (hl : good.length < maxAdminSessions) : Evicts good []
  | oldest {entry : String × AdminSession} (hl : good.length = maxAdminSessions)
      (he : entry ∈ good) (hold : ∀ other ∈ good, entry.2.lastAccess ≤ other.2.lastAccess) :
      Evicts good [entry.1]

theorem Evicts.perm {ids : List String} (h : Evicts s ids) (hp : s.Perm s') : Evicts s' ids := by
  cases h with
  | nobody hl => exact .nobody (hp.length_eq ▸ hl)
  | oldest hl he hold =>
    exact .oldest (hp.length_eq ▸ hl) (hp.mem_iff.mp he)
      fun other ho => hold other (hp.mem_iff.mpr ho)

theorem Evicts.least {ids : List String} (h : Evicts s ids) (hk : s.Keyed) (hs : sid ∈ ids) :
    s.length = maxAdminSessions ∧ ∃ a, s.get sid = some a ∧
      ∀ sid' b, s.get sid' = some b → a.lastAccess ≤ b.lastAccess := by
  cases h with
  | nobody => exact absurd hs List.not_mem_nil
  | oldest hl he hold =>
    rw [List.mem_singleton] at hs
    subst hs
    refine ⟨hl, _, (get_eq_some hk).mpr he, fun sid' b hb => ?_⟩
    exact hold (sid', b) ((get_eq_some hk).mp hb)

/-- A list in order of last use, for `make_room`. -/
abbrev byLastAccess (a b : String × AdminSession) : Bool := decide (a.2.lastAccess ≤ b.2.lastAccess)

theorem pairwise_byLastAccess (s : Sessions) :
    (s.mergeSort byLastAccess).Pairwise fun a b => byLastAccess a b = true := by
  refine List.pairwise_mergeSort (fun a b c hab hbc => ?_) (fun a b => ?_) s
  · simp only [decide_eq_true_eq] at hab hbc ⊢
    omega
  · simp only [Bool.or_eq_true, decide_eq_true_eq]
    omega

/-- How `make_room` goes as long as the map is within its limit. -/
theorem makeRoom_cases (s : Sessions) (t : Nat) (hl : s.length ≤ maxAdminSessions) :
    (s.cleanupExpired t).length < maxAdminSessions ∧ s.evicted t = [] ∧
        (s.length < maxAdminSessions ∧ s.makeRoom t = s ∨ s.makeRoom t = s.cleanupExpired t) ∨
      (s.cleanupExpired t).length = maxAdminSessions ∧ ∃ entry ∈ s.cleanupExpired t,
        (∀ other ∈ s.cleanupExpired t, entry.2.lastAccess ≤ other.2.lastAccess) ∧
        s.evicted t = [entry.1] ∧ s.makeRoom t = (s.cleanupExpired t).remove entry.1 := by
  have hle : (s.cleanupExpired t).length ≤ s.length := List.length_filter_le _ _
  unfold evicted makeRoom
  by_cases hlt : s.length < maxAdminSessions
  · rw [if_pos hlt, if_pos hlt]
    exact .inl ⟨by omega, rfl, .inl ⟨hlt, rfl⟩⟩
  · rw [if_neg hlt, if_neg hlt]
    simp only
    by_cases hfree : (s.cleanupExpired t).length < maxAdminSessions
    · rw [show (s.cleanupExpired t).length + 1 - maxAdminSessions = 0 by omega]
      exact .inl ⟨hfree, rfl, .inr rfl⟩
    · rw [show (s.cleanupExpired t).length + 1 - maxAdminSessions = 1 by omega]
      have hperm := List.mergeSort_perm (s.cleanupExpired t) byLastAccess
      have hsorted := pairwise_byLastAccess (s.cleanupExpired t)
      cases hsort : (s.cleanupExpired t).mergeSort byLastAccess with
      | nil =>
        have := hperm.length_eq
        rw [hsort, List.length_nil] at this
        simp only [maxAdminSessions] at hfree
        omega
      | cons entry rest =>
        rw [hsort] at hperm hsorted
        refine .inr ⟨by omega, entry, hperm.mem_iff.mp List.mem_cons_self, fun other ho => ?_, ?_, ?_⟩
        · rcases List.mem_cons.mp (hperm.mem_iff.mpr ho) with rfl | hmem
          · exact le_rfl
          · simpa using (List.pairwise_cons.mp hsorted).1 other hmem
        · rfl
        · rfl

theorem evicts_evicted (hl : s.length ≤ maxAdminSessions) :
    Evicts (s.cleanupExpired t) (s.evicted t) := by
  rcases makeRoom_cases s t hl with ⟨hlt, he, -⟩ | ⟨hfull, entry, hmem, hold, he, -⟩
  · rw [he]
    exact .nobody hlt
  · rw [he]
    exact .oldest hfull hmem hold

/-- Whoever may have to go does in some order of the map. -/
theorem exists_order (hl : s.length ≤ maxAdminSessions) {ids : List String}
    (h : Evicts (s.cleanupExpired t) ids) : ∃ order : Sessions, order.Perm s ∧ order.evicted t = ids := by
  cases h with
  | nobody hlt =>
    rcases makeRoom_cases s t hl with ⟨-, he, -⟩ | ⟨hfull, -⟩
    · exact ⟨s, .refl s, he⟩
    · omega
  | @oldest entry hfull hmem hold =>
    -- All are good, and the one to go comes first.
    have hall : s.cleanupExpired t = s :=
      List.filter_sublist.eq_of_length_le (by
        change s.length ≤ (s.cleanupExpired t).length
        omega)
    rw [hall] at hfull hmem hold
    obtain ⟨before, after, hs⟩ := List.append_of_mem hmem
    let order : Sessions := entry :: (before ++ after).mergeSort byLastAccess
    have hperm : order.Perm s := by
      rw [hs]
      exact ((List.mergeSort_perm _ _).cons entry).trans List.perm_middle.symm
    have hsorted : order.Pairwise fun a b => byLastAccess a b = true := by
      refine List.pairwise_cons.mpr ⟨fun other ho => ?_, pairwise_byLastAccess _⟩
      exact decide_eq_true (hold other (hperm.mem_iff.mp (List.mem_cons_of_mem entry ho)))
    have hgood : order.cleanupExpired t = order := by
      rw [cleanupExpired, List.filter_eq_self]
      intro other ho
      rw [cleanupExpired, List.filter_eq_self] at hall
      exact hall other (hperm.mem_iff.mp ho)
    refine ⟨order, hperm, ?_⟩
    have hlen := hperm.length_eq
    rw [evicted, if_neg (by omega)]
    simp only [hgood]
    rw [List.mergeSort_of_pairwise hsorted,
      show order.length + 1 - maxAdminSessions = 1 by omega]
    rfl

theorem length_remove_lt {entry : String × AdminSession} (h : entry ∈ s) :
    (s.remove entry.1).length < s.length := by
  refine List.length_filter_lt_length_iff_exists.mpr ⟨entry, h, by simp⟩

/-- What `make_room` leaves: room for one more, and all good sessions but the evicted. -/
theorem makeRoom_spec (hk : s.Keyed) (hl : s.length ≤ maxAdminSessions) :
    (s.makeRoom t).Keyed ∧ (s.makeRoom t).length < maxAdminSessions ∧
      Lives.live (s.makeRoom t).get t = (Lives.live s.get t).drop (s.evicted t) ∧
      ∀ sid ∈ s.evicted t, (s.makeRoom t).get sid = none := by
  have hdrop : ∀ f : Lives, f.drop [] = f := fun f => funext fun _ => by simp [Lives.drop]
  rcases makeRoom_cases s t hl with ⟨hlt, he, ⟨hs, hm⟩ | hm⟩ | ⟨hfull, entry, hmem, -, he, hm⟩
  · rw [hm, he, hdrop]
    exact ⟨hk, hs, rfl, by simp⟩
  · rw [hm, he, hdrop, get_cleanupExpired hk, Lives.live_live le_rfl]
    exact ⟨hk.cleanupExpired, hlt, rfl, by simp⟩
  · rw [hm, he, get_remove hk.cleanupExpired, get_cleanupExpired hk, Lives.live_drop,
      Lives.live_live le_rfl]
    exact ⟨hk.cleanupExpired.remove, hfull ▸ length_remove_lt hmem, rfl,
      fun sid hs => by simp [Lives.drop, hs]⟩

end Sessions

end X2rp.Admin
