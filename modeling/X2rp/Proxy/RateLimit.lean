import Mathlib.Data.Finset.Card
import Mathlib.Data.Fintype.Basic
import X2rp.Lts

/-! The map of a rate limit tier, under any number of worker threads. -/
namespace X2rp.Proxy

def maxLimiterEntries : Nat := 2000

def maxLimiterIdleSecs : Nat := 900

namespace RateTier

/-- An entry of the map: which one it is, and when its key was last seen. -/
structure Entry where
  number : Nat
  lastSeenEpoch : Nat
deriving DecidableEq, Repr

/-- Where a worker is in `check`, from one map operation to the next. -/
inductive Check
  | idle
  /-- At the lookup of the key. -/
  | get (key : String)
  /-- `make_room`, at its first look at the length. -/
  | makeRoom (key : String)
  | cleanupStale (key : String)
  /-- At the second look at the length. -/
  | again (key : String)
  | scan (key : String)
  | remove (key : String) (oldest : Option String)
  | insert (key : String)
  /-- It has the entry with this number. -/
  | store (key : String) (number : Nat)
deriving DecidableEq, Repr

/-- Between a lookup that has failed and the insertion. -/
def Check.inserts : Check → Bool
  | .makeRoom _ | .cleanupStale _ | .again _ | .scan _ | .remove _ _ | .insert _ => true
  | .idle | .get _ | .store _ _ => false

end RateTier

open RateTier

/-- The keys of the map, the entry of each, and what each of `n` workers is at. -/
structure RateTier (n : Nat) where
  clients : Finset String := ∅
  entry : String → Entry := fun _ => ⟨0, 0⟩
  created : Nat := 0
  checks : Fin n → Check := fun _ => .idle

namespace RateTier

variable {n : Nat}

/-- How a step shows. -/
inductive Event (n : Nat)
  | internal
  /-- The lookup of a worker fails. -/
  | missed (i : Fin n)
  /-- A worker is done; what the limiter says does not depend on the map. -/
  | answered (i : Fin n) (allowed : Bool)
deriving DecidableEq

def set (s : RateTier n) (i : Fin n) (check : Check) : RateTier n :=
  { s with checks := Function.update s.checks i check }

/-- `cleanup_stale` at some time. -/
def retain (s : RateTier n) (now : Nat) : RateTier n :=
  { s with clients := s.clients.filter fun key =>
      now - (s.entry key).lastSeenEpoch ≤ maxLimiterIdleSecs }

/-- What `min_by_key` may find: the order of the map is not known. -/
def Oldest (s : RateTier n) : Option String → Prop
  | none => s.clients = ∅
  | some key => key ∈ s.clients ∧
      ∀ key' ∈ s.clients, (s.entry key).lastSeenEpoch ≤ (s.entry key').lastSeenEpoch

def eraseOldest (s : RateTier n) (oldest : Option String) : RateTier n :=
  { s with clients := oldest.elim s.clients s.clients.erase }

/-- `entry(..).or_insert_with(..)` for a key that is not there. -/
def add (s : RateTier n) (key : String) : RateTier n :=
  { s with
    clients := insert key s.clients
    entry := Function.update s.entry key ⟨s.created, 0⟩
    created := s.created + 1 }

/-- The worker's entry is marked as seen. It need not be in the map any more. -/
def touch (s : RateTier n) (key : String) (number now : Nat) : RateTier n :=
  if (s.entry key).number = number then
    { s with entry := Function.update s.entry key ⟨number, now⟩ }
  else s

/-- Any interleaving of the workers' map operations, and of the maintenance tick. -/
inductive Step : RateTier n → Event n → RateTier n → Prop
  | call {s : RateTier n} {i : Fin n} {key : String} (hp : s.checks i = .idle) :
      Step s .internal (s.set i (.get key))
  | hit {s : RateTier n} {i : Fin n} {key : String} (hp : s.checks i = .get key)
      (hk : key ∈ s.clients) : Step s .internal (s.set i (.store key (s.entry key).number))
  | miss {s : RateTier n} {i : Fin n} {key : String} (hp : s.checks i = .get key)
      (hk : key ∉ s.clients) : Step s (.missed i) (s.set i (.makeRoom key))
  | room {s : RateTier n} {i : Fin n} {key : String} (hp : s.checks i = .makeRoom key)
      (hl : s.clients.card < maxLimiterEntries) : Step s .internal (s.set i (.insert key))
  | full {s : RateTier n} {i : Fin n} {key : String} (hp : s.checks i = .makeRoom key)
      (hl : maxLimiterEntries ≤ s.clients.card) : Step s .internal (s.set i (.cleanupStale key))
  | cleanupStale {s : RateTier n} {i : Fin n} {key : String} {now : Nat}
      (hp : s.checks i = .cleanupStale key) : Step s .internal ((s.retain now).set i (.again key))
  | roomNow {s : RateTier n} {i : Fin n} {key : String} (hp : s.checks i = .again key)
      (hl : s.clients.card < maxLimiterEntries) : Step s .internal (s.set i (.insert key))
  | stillFull {s : RateTier n} {i : Fin n} {key : String} (hp : s.checks i = .again key)
      (hl : maxLimiterEntries ≤ s.clients.card) : Step s .internal (s.set i (.scan key))
  | scan {s : RateTier n} {i : Fin n} {key : String} {oldest : Option String}
      (hp : s.checks i = .scan key) (ho : s.Oldest oldest) :
      Step s .internal (s.set i (.remove key oldest))
  | remove {s : RateTier n} {i : Fin n} {key : String} {oldest : Option String}
      (hp : s.checks i = .remove key oldest) :
      Step s .internal ((s.eraseOldest oldest).set i (.insert key))
  | insert {s : RateTier n} {i : Fin n} {key : String} (hp : s.checks i = .insert key)
      (hk : key ∉ s.clients) : Step s .internal ((s.add key).set i (.store key s.created))
  -- Another worker has put it there.
  | found {s : RateTier n} {i : Fin n} {key : String} (hp : s.checks i = .insert key)
      (hk : key ∈ s.clients) : Step s .internal (s.set i (.store key (s.entry key).number))
  | store {s : RateTier n} {i : Fin n} {key : String} {number now : Nat} {allowed : Bool}
      (hp : s.checks i = .store key number) :
      Step s (.answered i allowed) ((s.touch key number now).set i .idle)
  | maintain {s : RateTier n} {now : Nat} : Step s .internal (s.retain now)

/-- From `RateTier::new`, before any worker calls. -/
def system (n : Nat) : LTS (RateTier n) (Event n) := ⟨fun s => s = {}, Step⟩

/-- How many calls of `check` are in progress. -/
def inProgress (s : RateTier n) : Nat :=
  (Finset.univ.filter fun i => s.checks i ≠ .idle).card

variable {s t : RateTier n} {e : Event n} {i j : Fin n} {check : Check} {key : String}

section Fields

variable (s i check)

@[simp] theorem set_clients : (s.set i check).clients = s.clients := rfl
@[simp] theorem set_self : (s.set i check).checks i = check := by simp [set]

theorem set_other (h : j ≠ i) : (s.set i check).checks j = s.checks j := by simp [set, h]

@[simp] theorem touch_clients (number now : Nat) : (s.touch key number now).clients = s.clients := by
  unfold touch
  split <;> rfl

@[simp] theorem touch_checks (number now : Nat) : (s.touch key number now).checks = s.checks := by
  unfold touch
  split <;> rfl

end Fields

/-- The workers between a lookup that has failed and their insertion. -/
def inserting (s : RateTier n) : Finset (Fin n) :=
  Finset.univ.filter fun i => (s.checks i).inserts = true

theorem mem_inserting : i ∈ s.inserting ↔ (s.checks i).inserts = true := by simp [inserting]

theorem inserting_set_true (hc : check.inserts = true) :
    (s.set i check).inserting = insert i s.inserting := by
  ext j
  rw [Finset.mem_insert, mem_inserting, mem_inserting]
  by_cases hj : j = i
  · simp [hj, hc]
  · simp [set_other _ _ _ hj, hj]

theorem inserting_set_false (hc : check.inserts = false) :
    (s.set i check).inserting = s.inserting.erase i := by
  ext j
  rw [Finset.mem_erase, mem_inserting, mem_inserting]
  by_cases hj : j = i
  · simp [hj, hc]
  · simp [set_other _ _ _ hj, hj]

/-- A worker at this point makes room before it inserts, if the map is full. -/
def Check.Clears (clients : Finset String) : Check → Prop
  | .makeRoom _ | .cleanupStale _ | .again _ | .scan _ => True
  | .remove _ oldest => ∃ k ∈ clients, oldest = some k
  | _ => False

/-- There is a place for each worker that is on its way to an insertion, or there is only one such
worker, and it makes room. -/
structure Capped (s : RateTier n) : Prop where
  size : s.clients.card ≤ maxLimiterEntries
  places : s.clients.card + s.inserting.card ≤ maxLimiterEntries ∨
    ∃ i, s.inserting = {i} ∧ (s.checks i).Clears s.clients

namespace Capped

/-- A worker that is on its way to an insertion goes on. -/
theorem advance (h : Capped s) (hs : (s.checks i).inserts = true) (hc : check.inserts = true)
    (hr : s.clients.card < maxLimiterEntries ∨ check.Clears s.clients) :
    Capped (s.set i check) := by
  have hmem : i ∈ s.inserting := mem_inserting.mpr hs
  have hset : (s.set i check).inserting = s.inserting := by
    rw [inserting_set_true hc, Finset.insert_eq_of_mem hmem]
  refine ⟨h.size, ?_⟩
  rw [hset, set_clients]
  rcases h.places with hp | ⟨j, hj, -⟩
  · exact .inl hp
  · -- It is the only one.
    obtain rfl : i = j := by simpa [hj] using hmem
    rcases hr with hlt | hclears
    · left
      rw [hj, Finset.card_singleton]
      omega
    · exact .inr ⟨i, hj, by rwa [set_self]⟩

/-- A worker that is not, or is no longer, on its way to an insertion. -/
theorem settle (h : Capped s) (hc : check.inserts = false) : Capped (s.set i check) := by
  refine ⟨h.size, ?_⟩
  rw [inserting_set_false hc, set_clients]
  rcases h.places with hp | ⟨j, hj, hclears⟩
  · have := Finset.card_erase_le (s := s.inserting) (a := i)
    exact .inl (by omega)
  · by_cases hij : j = i
    · subst hij
      exact .inl (by simpa [hj] using h.size)
    · refine .inr ⟨j, ?_, by rwa [set_other _ _ _ hij]⟩
      rw [hj, Finset.erase_eq_of_notMem (by simpa using Ne.symm hij)]

/-- Entries go. If it is the one that a worker is about to remove, there is room already. -/
theorem shrink (h : Capped s) {clients : Finset String} (hsub : clients ⊆ s.clients) :
    Capped { s with clients } := by
  have hle := Finset.card_le_card hsub
  have hsize := h.size
  refine ⟨hle.trans h.size, ?_⟩
  change clients.card + s.inserting.card ≤ _ ∨ ∃ i, s.inserting = {i} ∧ (s.checks i).Clears clients
  rcases h.places with hp | ⟨i, hi, hclears⟩
  · exact .inl (by omega)
  · by_cases hgone : ∃ k ∈ s.clients, k ∉ clients
    · obtain ⟨k, hk, hn⟩ := hgone
      have hlt := Finset.card_lt_card ⟨hsub, fun hsup => hn (hsup hk)⟩
      left
      rw [hi, Finset.card_singleton]
      omega
    · refine .inr ⟨i, hi, ?_⟩
      have hsup : s.clients ⊆ clients := fun k hk => by
        by_contra hn
        exact hgone ⟨k, hk, hn⟩
      rwa [Finset.Subset.antisymm hsub hsup]

end Capped

/-- The condition on a step: a lookup that fails while others are on their way to an insertion leaves
a place for each of them and for its own. -/
def PlacesLeft (s : RateTier n) (e : Event n) (_ : RateTier n) : Prop :=
  ∀ i, e = .missed i → s.inserting = ∅ ∨ s.clients.card + s.inserting.card < maxLimiterEntries

theorem capped_miss (h : Capped s)
    (hc : s.inserting = ∅ ∨ s.clients.card + s.inserting.card < maxLimiterEntries) :
    Capped (s.set i (.makeRoom key)) := by
  refine ⟨h.size, ?_⟩
  rw [inserting_set_true rfl, set_clients]
  rcases hc with hnone | hlt
  · exact .inr ⟨i, by rw [hnone]; rfl, by simp [Check.Clears]⟩
  · have := Finset.card_insert_le i s.inserting
    exact .inl (by omega)

theorem capped_remove {oldest : Option String} (h : Capped s)
    (hp : s.checks i = .remove key oldest) :
    Capped ((s.eraseOldest oldest).set i (.insert key)) := by
  have hins : (s.checks i).inserts = true := by simp [hp, Check.inserts]
  have hsub : (s.eraseOldest oldest).clients ⊆ s.clients := by
    cases oldest with
    | none => exact Finset.Subset.refl _
    | some k => exact Finset.erase_subset _ _
  refine (h.shrink hsub).advance hins rfl (.inl ?_)
  change (s.eraseOldest oldest).clients.card < maxLimiterEntries
  have hle := Finset.card_le_card hsub
  have hsize := h.size
  rcases h.places with hroom | ⟨j, hj, hclears⟩
  · have : 0 < s.inserting.card := Finset.card_pos.mpr ⟨i, mem_inserting.mpr hins⟩
    omega
  · obtain rfl : i = j := by simpa [hj] using mem_inserting.mpr hins
    rw [hp] at hclears
    obtain ⟨k, hk, rfl⟩ := hclears
    have := Finset.card_erase_lt_of_mem hk
    change (s.clients.erase k).card < _
    omega

theorem capped_insert (h : Capped s) (hp : s.checks i = .insert key) :
    Capped ((s.add key).set i (.store key s.created)) := by
  have hmem : i ∈ s.inserting := mem_inserting.mpr (by simp [hp, Check.inserts])
  have hset : ((s.add key).set i (.store key s.created)).inserting = s.inserting.erase i :=
    inserting_set_false (s := s.add key) rfl
  have hcard := Finset.card_insert_le key s.clients
  have hpos : 0 < s.inserting.card := Finset.card_pos.mpr ⟨i, hmem⟩
  have hplaces : s.clients.card + s.inserting.card ≤ maxLimiterEntries := by
    rcases h.places with hroom | ⟨j, hj, hclears⟩
    · exact hroom
    · obtain rfl : i = j := by simpa [hj] using hmem
      rw [hp] at hclears
      exact absurd hclears not_false
  refine ⟨?_, .inl ?_⟩
  · change (insert key s.clients).card ≤ _
    omega
  · rw [hset, Finset.card_erase_of_mem hmem]
    change (insert key s.clients).card + _ ≤ _
    omega

theorem capped_step (h : Capped s) (hs : Step s e t) (hc : PlacesLeft s e t) : Capped t := by
  cases hs with
  | call => exact h.settle rfl
  | hit => exact h.settle rfl
  | miss => exact capped_miss h (hc _ rfl)
  | room hp hl => exact h.advance (by simp [hp, Check.inserts]) rfl (.inl hl)
  | full hp => exact h.advance (by simp [hp, Check.inserts]) rfl (.inr trivial)
  | cleanupStale hp =>
    refine (h.shrink (Finset.filter_subset _ _)).advance ?_ rfl (.inr trivial)
    simp [hp, Check.inserts]
  | roomNow hp hl => exact h.advance (by simp [hp, Check.inserts]) rfl (.inl hl)
  | stillFull hp => exact h.advance (by simp [hp, Check.inserts]) rfl (.inr trivial)
  | @scan i key oldest hp ho =>
    refine h.advance (by simp [hp, Check.inserts]) rfl ?_
    cases oldest with
    | none =>
      rw [show s.clients = ∅ from ho]
      exact .inl (by decide)
    | some k => exact .inr ⟨k, ho.1, rfl⟩
  | remove hp => exact capped_remove h hp
  | insert hp hk => exact capped_insert h hp
  | found => exact h.settle rfl
  | @store i key number now allowed hp =>
    refine Capped.settle ?_ rfl
    exact ⟨by simpa using h.size, by simpa [inserting] using h.places⟩
  | maintain => exact h.shrink (Finset.filter_subset _ _)

theorem capped (h : ((system n).restrict PlacesLeft).Reachable s) : Capped s := by
  refine h.invariant ?_ fun s e t hs ht => capped_step hs ht.1 ht.2
  rintro s rfl
  exact ⟨by simp, .inl (by simp [inserting, Check.inserts])⟩

/-- As long as there is a place for every check between its failed lookup and its insertion, or only
one of them at a time, the map stays within its limit, and so with any number of checks in progress. -/
theorem clients_capped (n : Nat) {s : RateTier n}
    (h : ((system n).restrict PlacesLeft).Reachable s) :
    s.clients.card ≤ maxLimiterEntries + s.inProgress ∧
      (s.inProgress = 0 → s.clients.card ≤ maxLimiterEntries) :=
  ⟨(capped h).size.trans (Nat.le_add_right _ _), fun _ => (capped h).size⟩

section Runs

/-- Any number of different keys. -/
def name (m : Nat) : String := .ofList (List.replicate m 'a')

theorem name_injective : Function.Injective name := by
  intro a b h
  have := congrArg (fun s => s.toList.length) h
  simpa [name] using this

theorem name_notMem {m k : Nat} (h : m ≤ k) : name k ∉ (Finset.range m).image name := by
  intro hmem
  obtain ⟨a, ha, he⟩ := Finset.mem_image.mp hmem
  rw [name_injective he, Finset.mem_range] at ha
  omega

theorem inserting_idle (h : ∀ i, s.checks i = .idle) : s.inserting = ∅ := by
  simp [inserting, h, Check.inserts]

/-- A worker comes back with a new entry while there is room. -/
theorem insert_run {s : RateTier 2} (h : ((system 2).restrict PlacesLeft).Reachable s)
    (hidle : ∀ i, s.checks i = .idle) (hk : key ∉ s.clients)
    (hl : s.clients.card < maxLimiterEntries) :
    ∃ t, ((system 2).restrict PlacesLeft).Reachable t ∧ (∀ i, t.checks i = .idle) ∧
      t.clients = insert key s.clients := by
  have hnone : (s.set 0 (.get key)).inserting = ∅ := by
    rw [inserting_set_false rfl, inserting_idle hidle, Finset.erase_empty]
  have h₁ := (h.step ⟨@Step.call _ _ 0 key (hidle 0), nofun⟩).step
    ⟨.miss (set_self ..) hk, fun _ _ => .inl hnone⟩
  have h₂ := (h₁.step ⟨.room (set_self ..) hl, nofun⟩).step ⟨.insert (set_self ..) hk, nofun⟩
  have h₃ := h₂.step ⟨@Step.store _ _ 0 key _ 0 true (set_self ..), nofun⟩
  refine ⟨_, h₃, fun i => ?_, by simp [add]⟩
  by_cases hi : i = 0
  · simp [hi]
  · simp [set, add, hi, hidle]

theorem filled (m : Nat) (hm : m ≤ maxLimiterEntries) : ∃ s : RateTier 2,
    ((system 2).restrict PlacesLeft).Reachable s ∧ (∀ i, s.checks i = .idle) ∧
      s.clients = (Finset.range m).image name := by
  induction m with
  | zero => exact ⟨{}, .init rfl, fun _ => rfl, rfl⟩
  | succ m ih =>
    obtain ⟨s, hs, hidle, hclients⟩ := ih (by omega)
    have hcard : s.clients.card = m := by
      rw [hclients, Finset.card_image_of_injective _ name_injective, Finset.card_range]
    obtain ⟨t, ht, hidle', hclients'⟩ := insert_run hs hidle
      (hclients ▸ name_notMem (le_refl m)) (by omega)
    refine ⟨t, ht, hidle', ?_⟩
    rw [hclients', hclients, Finset.range_add_one, Finset.image_insert]

/-- Two workers see that there is room for one more, and both insert. The second lookup fails while
the first worker is on its way to its insertion. -/
theorem insert_twice {C : RateTier 2 → Event 2 → RateTier 2 → Prop} {s : RateTier 2} {a b : String}
    (hC : ∀ s' e t', (∀ i, e = .missed i → s'.clients = s.clients ∧ s'.inserting.card ≤ 1) →
      C s' e t')
    (hs : ((system 2).restrict C).Reachable s) (hidle : ∀ i, s.checks i = .idle)
    (hroom : s.clients.card < maxLimiterEntries) (ha : a ∉ s.clients)
    (hb : b ∉ insert a s.clients) :
    ∃ t, ((system 2).restrict C).Reachable t ∧ (∀ i, t.checks i = .idle) ∧
      t.clients = insert b (insert a s.clients) := by
  have hb' : b ∉ s.clients := fun h => hb (Finset.mem_insert_of_mem h)
  have hquiet : ∀ {s' t'}, C s' .internal t' := fun {s' t'} => hC s' _ t' nofun
  have hcalls : ((s.set 0 (.get a)).set 1 (.get b)).inserting = ∅ := by
    rw [inserting_set_false rfl, inserting_set_false rfl, inserting_idle hidle]
    rfl
  have hmissed : (((s.set 0 (.get a)).set 1 (.get b)).set 0 (.makeRoom a)).inserting = {0} := by
    rw [inserting_set_true rfl, hcalls]
    rfl
  have h₁ := (hs.step ⟨@Step.call _ _ 0 a (hidle 0), hquiet⟩).step
    ⟨@Step.call _ _ 1 b (by simp [set, hidle]), hquiet⟩
  have h₂ := (h₁.step ⟨@Step.miss _ _ 0 a (by simp [set]) ha,
      hC _ _ _ fun _ _ => ⟨rfl, by simp [hcalls]⟩⟩).step
    ⟨@Step.miss _ _ 1 b (by simp [set]) hb', hC _ _ _ fun _ _ => ⟨rfl, by simp [hmissed]⟩⟩
  have h₃ := (h₂.step ⟨@Step.room _ _ 0 a (by simp [set]) hroom, hquiet⟩).step
    ⟨@Step.room _ _ 1 b (by simp [set]) hroom, hquiet⟩
  have h₄ := (h₃.step ⟨@Step.insert _ _ 0 a (by simp [set]) ha, hquiet⟩).step
    ⟨@Step.insert _ _ 1 b (by simp [set, add]) hb, hquiet⟩
  have h₅ := (h₄.step ⟨@Step.store _ _ 0 a s.created 0 true (by simp [set, add]),
      hC _ _ _ nofun⟩).step
    ⟨@Step.store _ _ 1 b (s.created + 1) 0 true (by simp [set, add]), hC _ _ _ nofun⟩
  refine ⟨_, h₅, fun i => ?_, by simp [add]⟩
  match i with
  | 0 => simp [set]
  | 1 => simp [set]

/-- From `m` entries, two workers at once go on to `m + 2`. -/
theorem filled_twice {C : RateTier 2 → Event 2 → RateTier 2 → Prop} {m : Nat}
    (hm : m < maxLimiterEntries) (hle : ∀ s e t, PlacesLeft s e t → C s e t)
    (hC : ∀ s e t, (∀ i, e = .missed i → s.clients.card = m ∧ s.inserting.card ≤ 1) → C s e t) :
    ∃ s, ((system 2).restrict C).Reachable s ∧ s.inProgress = 0 ∧ s.clients.card = m + 2 := by
  obtain ⟨s, hs, hidle, hclients⟩ := filled m hm.le
  have hcard : s.clients.card = m := by
    rw [hclients, Finset.card_image_of_injective _ name_injective, Finset.card_range]
  have ha : name m ∉ s.clients := hclients ▸ name_notMem le_rfl
  have hb : name (m + 1) ∉ insert (name m) s.clients := by
    rw [Finset.mem_insert, not_or]
    exact ⟨name_injective.ne (by omega), hclients ▸ name_notMem (Nat.le_succ m)⟩
  have hC' : ∀ s' e t', (∀ i, e = .missed i → s'.clients = s.clients ∧ s'.inserting.card ≤ 1) →
      C s' e t' := by
    intro s' e t' h
    refine hC s' e t' fun i hi => ?_
    rw [(h i hi).1]
    exact ⟨hcard, (h i hi).2⟩
  obtain ⟨t, ht, hidle', hclients'⟩ := insert_twice hC' (hs.restrict_mono hle) hidle
    (by omega) ha hb
  refine ⟨t, ht, by simp [inProgress, hidle'], ?_⟩
  rw [hclients', Finset.card_insert_of_notMem hb, Finset.card_insert_of_notMem ha, hcard]

/-- Two below the limit, two workers at once fill the map, which is then within its limit. -/
theorem clients_capped_full : ∃ s : RateTier 2, ((system 2).restrict PlacesLeft).Reachable s ∧
    s.clients.card = maxLimiterEntries ∧ s.inProgress = 0 ∧
    s.clients.card ≤ maxLimiterEntries + s.inProgress := by
  obtain ⟨m, hm⟩ : ∃ m, maxLimiterEntries = m + 2 := ⟨1998, rfl⟩
  obtain ⟨s, hs, hidle, hcard⟩ := filled_twice (C := PlacesLeft) (m := m) (by omega)
    (fun _ _ _ h => h) fun s e t h i hi => by
      have := h i hi
      exact .inr (by omega)
  exact ⟨s, hs, by rw [hcard, hm], hidle, (clients_capped 2 hs).1⟩

/-- One below the limit, two workers at once take the map past it. -/
theorem clients_past_limit : ∃ s : RateTier 2, (system 2).Reachable s ∧ s.inProgress = 0 ∧
    s.clients.card = maxLimiterEntries + 1 := by
  obtain ⟨m, hm⟩ : ∃ m, maxLimiterEntries = m + 1 := ⟨1999, rfl⟩
  obtain ⟨s, hs, hidle, hcard⟩ := filled_twice (C := fun _ _ _ => True) (m := m) (by omega)
    (fun _ _ _ _ => trivial) fun _ _ _ _ => trivial
  exact ⟨s, hs.of_restrict, hidle, by rw [hcard, hm]⟩

end Runs

end RateTier

end X2rp.Proxy
