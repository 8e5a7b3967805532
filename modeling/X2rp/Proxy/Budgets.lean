import X2rp.Budget
import X2rp.Proxy.RateLimit

/-! What a rate limit tier admits for one key, over all the limiters that the key has had. -/
namespace X2rp.Proxy

open Budget

structure Quota where
  perMinute : Nat
  burst : Nat
deriving DecidableEq, Repr

/-- The quota of `RateTier::new`. -/
def Quota.new (perMinute burst : Nat) : Quota := ⟨max perMinute 1, max burst 1⟩

/-- The tier for every request. -/
def generalQuota : Quota := .new 500 220

/-- The tier for the admin login. -/
def authQuota : Quota := .new 40 15

/-- Times are in nanoseconds. -/
def second : Nat := 10 ^ 9

def minute : Nat := 60 * second

/-- `now_epoch_secs`. -/
def epochSecs (now : Nat) : Nat := now / second

/-- A direct rate limiter of the `governor` crate. -/
structure Governor (L : Type) where
  direct : Quota → L
  check : L → Nat → Bool × L

variable {L : Type}

namespace Governor

variable {G : Governor L} {q : Quota} {l : L} {last now : Nat} {admitted : List Nat}

/-- The limiters that checks at rising times lead to, the time of the last check, and the times
that were admitted. -/
inductive Used (G : Governor L) (q : Quota) : L → Nat → List Nat → Prop
  | direct : Used G q (G.direct q) 0 []
  | check {l : L} {last now : Nat} {admitted : List Nat} (h : Used G q l last admitted)
      (hn : last ≤ now) : Used G q (G.check l now).2 now
        (if (G.check l now).1 then admitted ++ [now] else admitted)

/-- What is relied on of the crate: a limiter admits at most one request more than its burst, and
what its rate yields. -/
def Lawful (G : Governor L) : Prop :=
  ∀ q l last admitted, Used G q l last admitted →
    Bounded (q.burst + 1) q.perMinute minute admitted

theorem Used.le_last (h : Used G q l last admitted) : ∀ x ∈ admitted, x ≤ last := by
  induction h with
  | direct => simp
  | @check l last now admitted _ hn ih =>
    have hle : ∀ x ∈ admitted, x ≤ now := fun x hx => (ih x hx).trans hn
    split
    · intro x hx
      rcases List.mem_append.mp hx with hx | hx
      · exact hle x hx
      · exact (List.mem_singleton.mp hx).le
    · exact hle

end Governor

/-- An entry with its limiter. -/
structure BudgetEntry (L : Type) where
  limiter : L
  lastSeenEpoch : Nat

/-- A tier with one call at a time: its map, the time of the last call, and for each key the times
at which it has been admitted. -/
structure Budgets (L : Type) where
  clients : Finset String := ∅
  entry : String → BudgetEntry L
  now : Nat := 0
  admitted : String → List Nat := fun _ => []

namespace Budgets

variable (G : Governor L) (q : Quota) (s : Budgets L)

def cleanupStale (now : Nat) : Budgets L :=
  { s with clients := s.clients.filter fun key =>
      epochSecs now - (s.entry key).lastSeenEpoch ≤ maxLimiterIdleSecs }

/-- What `min_by_key` may find. -/
def Oldest : Option String → Prop
  | none => s.clients = ∅
  | some key => key ∈ s.clients ∧
      ∀ key' ∈ s.clients, (s.entry key).lastSeenEpoch ≤ (s.entry key').lastSeenEpoch

/-- `make_room`, and whether it has come to the eviction. -/
inductive MakeRoom (now : Nat) : Bool → Budgets L → Prop
  | room (hl : s.clients.card < maxLimiterEntries) : MakeRoom now false s
  | cleaned (hl : maxLimiterEntries ≤ s.clients.card)
      (hl' : (s.cleanupStale now).clients.card < maxLimiterEntries) :
      MakeRoom now false (s.cleanupStale now)
  | evicted {oldest : Option String} (hl : maxLimiterEntries ≤ s.clients.card)
      (hl' : maxLimiterEntries ≤ (s.cleanupStale now).clients.card)
      (ho : (s.cleanupStale now).Oldest oldest) :
      MakeRoom now true { s.cleanupStale now with
        clients := oldest.elim (s.cleanupStale now).clients (s.cleanupStale now).clients.erase }

/-- `or_insert_with`, for a key that is not there. -/
def add (key : String) : Budgets L :=
  { s with
    clients := insert key s.clients
    entry := Function.update s.entry key ⟨G.direct q, 0⟩ }

/-- What `check` does with the entry it has. -/
def spend (key : String) (now : Nat) : Budgets L :=
  let answer := G.check (s.entry key).limiter now
  { s with
    entry := Function.update s.entry key ⟨answer.2, epochSecs now⟩
    now
    admitted := if answer.1 then Function.update s.admitted key (s.admitted key ++ [now])
      else s.admitted }

/-- The two calls; a check says whether it has evicted an entry for its own. -/
inductive Call
  | check (key : String) (evicted : Bool)
  | cleanupStale
deriving DecidableEq

/-- Calls one after the other, by one clock. -/
inductive Step (G : Governor L) (q : Quota) : Budgets L → Call → Budgets L → Prop
  | hit {s : Budgets L} {key : String} {now : Nat} (hn : s.now ≤ now) (hk : key ∈ s.clients) :
      Step G q s (.check key false) (s.spend G key now)
  | miss {s room : Budgets L} {key : String} {now : Nat} {evicted : Bool} (hn : s.now ≤ now)
      (hk : key ∉ s.clients) (hm : s.MakeRoom now evicted room) :
      Step G q s (.check key evicted) ((room.add G q key).spend G key now)
  | cleanupStale {s : Budgets L} {now : Nat} (hn : s.now ≤ now) :
      Step G q s .cleanupStale { s.cleanupStale now with now }

/-- From an empty map. -/
def system (G : Governor L) (q : Quota) : LTS (Budgets L) Call where
  Init s := s.clients = ∅ ∧ s.admitted = fun _ => []
  Tr := Step G q

/-- The runs in which no entry is evicted for want of room. -/
def roomy (G : Governor L) (q : Quota) : LTS (Budgets L) Call :=
  (system G q).restrict fun _ call _ => ∀ key, call ≠ .check key true

variable {G q s} {room : Budgets L} {key : String} {now last : Nat} {old cur : List Nat}

theorem makeRoom_subset {evicted : Bool} (hm : s.MakeRoom now evicted room) :
    room.clients ⊆ s.clients := by
  have hclean : (s.cleanupStale now).clients ⊆ s.clients := Finset.filter_subset _ _
  cases hm with
  | room => exact Finset.Subset.refl _
  | cleaned => exact hclean
  | @evicted oldest _ _ _ =>
    cases oldest with
    | none => exact hclean
    | some key => exact (Finset.erase_subset _ _).trans hclean

section Mirrors

variable {t : Budgets L} {R : RateTier 1} {call : Call} {evicted : Bool}

/-- The map of a tier that a single worker calls. -/
structure Mirrors (s : Budgets L) (R : RateTier 1) : Prop where
  clients : R.clients = s.clients
  seen : ∀ key ∈ s.clients, (R.entry key).lastSeenEpoch = (s.entry key).lastSeenEpoch

theorem Mirrors.card (h : Mirrors s R) : R.clients.card = s.clients.card :=
  congrArg Finset.card h.clients

theorem Mirrors.set {check : RateTier.Check} (h : Mirrors s R) : Mirrors s (R.set 0 check) :=
  ⟨h.clients, h.seen⟩

theorem Mirrors.retain (h : Mirrors s R) : Mirrors (s.cleanupStale now) (R.retain (epochSecs now)) := by
  constructor
  · simp only [RateTier.retain, cleanupStale, h.clients]
    refine Finset.filter_congr fun key hk => ?_
    rw [h.seen key hk]
  · intro key hk
    exact h.seen key (Finset.mem_of_mem_filter key hk)

theorem Mirrors.oldest {oldest : Option String} (h : Mirrors s R) (ho : s.Oldest oldest) :
    R.Oldest oldest := by
  cases oldest with
  | none => exact h.clients.trans ho
  | some key =>
    refine ⟨h.clients ▸ ho.1, fun key' hk' => ?_⟩
    have hk' : key' ∈ s.clients := h.clients ▸ hk'
    rw [h.seen key ho.1, h.seen key' hk']
    exact ho.2 key' hk'

theorem Mirrors.eraseOldest {oldest : Option String} (h : Mirrors s R) :
    Mirrors { s with clients := oldest.elim s.clients s.clients.erase } (R.eraseOldest oldest) := by
  constructor
  · simp only [RateTier.eraseOldest, h.clients]
  · intro key hk
    refine h.seen key ?_
    cases oldest with
    | none => exact hk
    | some key' => exact Finset.mem_of_mem_erase hk

/-- `make_room` in the steps of the map. -/
theorem mirrors_makeRoom (hm : s.MakeRoom now evicted room) (h : Mirrors s R)
    (hc : R.checks 0 = .makeRoom key) : ∃ es R', (RateTier.system 1).MTr R es R' ∧
      Mirrors room R' ∧ R'.checks 0 = .insert key := by
  have hcard := h.card
  have hclean : maxLimiterEntries ≤ s.clients.card → ∃ R₁,
      (RateTier.system 1).MTr R [.internal, .internal] R₁ ∧ Mirrors (s.cleanupStale now) R₁ ∧
        R₁.checks 0 = .again key := by
    intro hl
    exact ⟨_, .stepL (.full hc (hcard ▸ hl)) (.stepL (.cleanupStale (RateTier.set_self ..)) .refl),
      h.set.retain.set, RateTier.set_self ..⟩
  cases hm with
  | room hl => exact ⟨_, _, .stepL (.room hc (hcard ▸ hl)) .refl, h.set, RateTier.set_self ..⟩
  | cleaned hl hl' =>
    obtain ⟨R₁, hrun, h₁, hc₁⟩ := hclean hl
    exact ⟨_, _, hrun.trans (.stepL (.roomNow hc₁ (h₁.card ▸ hl')) .refl), h₁.set,
      RateTier.set_self ..⟩
  | @evicted oldest hl hl' ho =>
    obtain ⟨R₁, hrun, h₁, hc₁⟩ := hclean hl
    have hscan : RateTier.Step (R₁.set 0 (.scan key)) .internal
        ((R₁.set 0 (.scan key)).set 0 (.remove key oldest)) :=
      .scan (RateTier.set_self ..) (h₁.set.oldest ho)
    exact ⟨_, _, hrun.trans (.stepL (.stillFull hc₁ (h₁.card ▸ hl')) (.stepL hscan
      (.stepL (.remove (RateTier.set_self ..)) .refl))), h₁.set.set.eraseOldest.set,
      RateTier.set_self ..⟩

/-- What `check` does once it has its entry. -/
theorem mirrors_spend {number : Nat} (h : Mirrors s R) (hnum : (R.entry key).number = number) :
    ∃ e R', RateTier.Step (R.set 0 (.store key number)) e R' ∧ Mirrors (s.spend G key now) R' ∧
      R'.checks 0 = .idle := by
  have htouch : (R.set 0 (.store key number)).touch key number (epochSecs now) =
      { R.set 0 (.store key number) with
        entry := Function.update R.entry key ⟨number, epochSecs now⟩ } := if_pos hnum
  refine ⟨.answered 0 (G.check (s.entry key).limiter now).1,
    ((R.set 0 (.store key number)).touch key number (epochSecs now)).set 0 .idle,
    .store (RateTier.set_self ..), ?_, RateTier.set_self ..⟩
  rw [htouch]
  refine Mirrors.set ⟨h.clients, fun key' hk' => ?_⟩
  by_cases hne : key' = key
  · subst hne
    simp [spend]
  · simpa [spend, hne] using h.seen key' hk'

theorem Mirrors.add (h : Mirrors s R) : Mirrors (s.add G q key) (R.add key) := by
  refine ⟨congrArg (insert key) h.clients, fun key' hk' => ?_⟩
  by_cases hne : key' = key
  · subst hne
    simp [Budgets.add, RateTier.add]
  · simpa [Budgets.add, RateTier.add, hne] using h.seen key' (Finset.mem_of_mem_insert_of_ne hk' hne)

/-- Every call is a run of the map with one worker. -/
theorem mirrors_step (hs : Step G q s call t) (h : Mirrors s R) (hc : R.checks 0 = .idle) :
    ∃ es R', (RateTier.system 1).MTr R es R' ∧ Mirrors t R' ∧ R'.checks 0 = .idle := by
  cases hs with
  | @hit key now hn hk =>
    have hhit : RateTier.Step (R.set 0 (.get key)) .internal
        ((R.set 0 (.get key)).set 0 (.store key (R.entry key).number)) :=
      .hit (RateTier.set_self ..) (h.clients ▸ hk)
    obtain ⟨e, R', hspend, hR', hidle⟩ := mirrors_spend h.set rfl
    exact ⟨_, R', .stepL (.call hc) (.stepL hhit (.stepL hspend .refl)), hR', hidle⟩
  | @miss room key now evicted hn hk hm =>
    have hmiss : RateTier.Step (R.set 0 (.get key)) (.missed 0)
        ((R.set 0 (.get key)).set 0 (.makeRoom key)) := .miss (RateTier.set_self ..) (h.clients ▸ hk)
    obtain ⟨es, R₁, hrun, h₁, hc₁⟩ := mirrors_makeRoom hm h.set.set (RateTier.set_self ..)
    have hinsert : RateTier.Step R₁ .internal ((R₁.add key).set 0 (.store key R₁.created)) :=
      .insert hc₁ (h₁.clients ▸ fun hmem => hk (makeRoom_subset hm hmem))
    have hnum : ((R₁.add key).entry key).number = R₁.created := by simp [RateTier.add]
    obtain ⟨e, R', hspend, hR', hidle⟩ := mirrors_spend h₁.add hnum
    exact ⟨_, R', .stepL (.call hc) (.stepL hmiss (hrun.trans (.stepL hinsert (.stepL hspend .refl)))),
      hR', hidle⟩
  | @cleanupStale now hn =>
    exact ⟨_, _, .stepL .maintain .refl, ⟨h.retain.clients, h.retain.seen⟩, hc⟩

/-- Whatever the tier does with its limiters, its map is one that the workers can bring about. -/
theorem mirrors_of_reachable (h : (system G q).Reachable s) :
    ∃ R, (RateTier.system 1).Reachable R ∧ Mirrors s R ∧ R.checks 0 = .idle := by
  induction h with
  | init h => exact ⟨{}, .init rfl, ⟨h.1.symm, by simp [h.1]⟩, rfl⟩
  | step _ hs ih =>
    obtain ⟨R, hR, hm, hc⟩ := ih
    obtain ⟨es, R', hrun, hm', hc'⟩ := mirrors_step hs hm hc
    exact ⟨R', hR.trans hrun, hm', hc'⟩

end Mirrors

/-- How long an entry is kept after the last check of its key. -/
def idle : Nat := maxLimiterIdleSecs * second

theorem idle_of_stale (h : ¬ epochSecs now - epochSecs last ≤ maxLimiterIdleSecs) :
    last + idle ≤ now := by
  simp only [epochSecs, idle, maxLimiterIdleSecs, second] at h ⊢
  omega

def Affordable (q : Quota) (times : List Nat) : Prop := Bounded (q.burst + 1) q.perMinute minute times

/-- A quota whose burst is back after the time that an entry is kept. -/
def Refills (q : Quota) : Prop := (q.burst + 1) * minute ≤ q.perMinute * idle

instance (q : Quota) : Decidable (Refills q) := inferInstanceAs (Decidable (_ ≤ _))

/-- The key has no entry, and all that it was admitted for is long past. -/
structure Lapsed (q : Quota) (s : Budgets L) (key : String) : Prop where
  bounded : Affordable q (s.admitted key)
  past : ∀ x ∈ s.admitted key, x + idle ≤ s.now

/-- The key has an entry, which has admitted it at the times `cur`; what it was admitted for before
that, by entries that are gone, is long past. -/
structure Current (G : Governor L) (q : Quota) (s : Budgets L) (key : String) (old cur : List Nat)
    (last : Nat) : Prop where
  split : s.admitted key = old ++ cur
  used : G.Used q (s.entry key).limiter last cur
  seen : (s.entry key).lastSeenEpoch = epochSecs last
  clock : last ≤ s.now
  bounded : Affordable q old
  past : ∀ x ∈ old, x + idle ≤ s.now
  apart : ∀ x ∈ old, ∀ y ∈ cur, x + idle ≤ y

structure Accounted (G : Governor L) (q : Quota) (s : Budgets L) : Prop where
  absent : ∀ key, key ∉ s.clients → Lapsed q s key
  present : ∀ key ∈ s.clients, ∃ old cur last, Current G q s key old cur last

section Key

theorem Current.affordable (hG : G.Lawful) (hq : Refills q) (h : Current G q s key old cur last) :
    Affordable q (s.admitted key) := by
  rw [h.split]
  exact h.bounded.append (hG q _ last cur h.used) h.apart hq

/-- What is dropped as stale has admitted nothing for as long as it is kept. -/
theorem Current.lapse (hG : G.Lawful) (hq : Refills q) (h : Current G q s key old cur last)
    (hn : s.now ≤ now)
    (hstale : ¬ epochSecs now - (s.entry key).lastSeenEpoch ≤ maxLimiterIdleSecs) :
    Lapsed q { s with now } key := by
  have hbounded := h.affordable hG hq
  refine ⟨hbounded, fun x hx => ?_⟩
  have hx : x ∈ old ++ cur := h.split ▸ hx
  have hlast : last + idle ≤ now := idle_of_stale (h.seen ▸ hstale)
  rcases List.mem_append.mp hx with hx | hx
  · exact (h.past x hx).trans hn
  · have := h.used.le_last x hx
    show x + idle ≤ now
    omega

theorem Current.later (h : Current G q s key old cur last) (hn : s.now ≤ now) :
    Current G q { s with now } key old cur last :=
  ⟨h.split, h.used, h.seen, h.clock.trans hn, h.bounded, fun x hx => (h.past x hx).trans hn, h.apart⟩

theorem Current.spend (h : Current G q s key old cur last) (hn : s.now ≤ now) :
    Current G q (s.spend G key now) key old
      (if (G.check (s.entry key).limiter now).1 then cur ++ [now] else cur) now := by
  have hused := h.used.check (h.clock.trans hn)
  refine ⟨?_, ?_, ?_, le_rfl, h.bounded, fun x hx => (h.past x hx).trans hn, ?_⟩
  · simp only [Budgets.spend]
    split <;> simp [h.split]
  · simpa [Budgets.spend] using hused
  · simp [Budgets.spend]
  · intro x hx y hy
    split at hy
    · rcases List.mem_append.mp hy with hy | hy
      · exact h.apart x hx y hy
      · rw [List.mem_singleton.mp hy]
        exact (h.past x hx).trans hn
    · exact h.apart x hx y hy

end Key

section Step

theorem spend_of_ne (G : Governor L) (s : Budgets L) (now : Nat) {key' : String} (hne : key' ≠ key) :
    (s.spend G key now).entry key' = s.entry key' ∧
      (s.spend G key now).admitted key' = s.admitted key' := by
  simp only [spend]
  split <;> simp [hne]

theorem accounted_spend (h : Accounted G q s) (hn : s.now ≤ now) (hk : key ∈ s.clients) :
    Accounted G q (s.spend G key now) := by
  constructor
  · intro key' hk'
    have hne : key' ≠ key := by
      rintro rfl
      exact hk' hk
    obtain ⟨hb, hpast⟩ := h.absent key' hk'
    rw [← (spend_of_ne G s now hne).2] at hb hpast
    exact ⟨hb, fun x hx => (hpast x hx).trans hn⟩
  · intro key' hk'
    by_cases hne : key' = key
    · subst hne
      obtain ⟨old, cur, last, hc⟩ := h.present key' hk
      exact ⟨old, _, now, hc.spend hn⟩
    · obtain ⟨old, cur, last, hc⟩ := h.present key' hk'
      obtain ⟨hentry, hadmitted⟩ := spend_of_ne G s now hne
      have hc := hc.later hn
      refine ⟨old, cur, last, ?_⟩
      refine ⟨?_, ?_, ?_, hc.clock, hc.bounded, hc.past, hc.apart⟩
      · rw [hadmitted]
        exact hc.split
      · rw [hentry]
        exact hc.used
      · rw [hentry]
        exact hc.seen

theorem accounted_add (h : Accounted G q s) (hk : key ∉ s.clients) :
    Accounted G q (s.add G q key) := by
  obtain ⟨hb, hpast⟩ := h.absent key hk
  constructor
  · intro key' hk'
    obtain ⟨-, hk'⟩ := not_or.mp (mt Finset.mem_insert.mpr hk')
    exact ⟨(h.absent key' hk').bounded, (h.absent key' hk').past⟩
  · intro key' hk'
    by_cases hne : key' = key
    · subst hne
      refine ⟨s.admitted key', [], 0, ?_⟩
      refine ⟨(List.append_nil _).symm, ?_, ?_, Nat.zero_le _, hb, hpast, by simp⟩
      · simpa [add] using Governor.Used.direct
      · simp [add, epochSecs]
    · obtain ⟨old, cur, last, hc⟩ := h.present key' (Finset.mem_of_mem_insert_of_ne hk' hne)
      have hentry : (s.add G q key).entry key' = s.entry key' := Function.update_of_ne hne _ _
      refine ⟨old, cur, last, hc.split, ?_, ?_, hc.clock, hc.bounded, hc.past, hc.apart⟩
      · rw [hentry]
        exact hc.used
      · rw [hentry]
        exact hc.seen

theorem accounted_later (h : Accounted G q s) (hn : s.now ≤ now) : Accounted G q { s with now } := by
  constructor
  · intro key hk
    have hl := h.absent key hk
    exact ⟨hl.bounded, fun x hx => (hl.past x hx).trans hn⟩
  · intro key hk
    obtain ⟨old, cur, last, hc⟩ := h.present key hk
    exact ⟨old, cur, last, hc.later hn⟩

theorem accounted_cleanupStale (hG : G.Lawful) (hq : Refills q) (h : Accounted G q s)
    (hn : s.now ≤ now) : Accounted G q { s.cleanupStale now with now } := by
  have hlater := accounted_later h hn
  constructor
  · intro key hk
    by_cases hmem : key ∈ s.clients
    · obtain ⟨old, cur, last, hc⟩ := h.present key hmem
      have hstale : ¬ epochSecs now - (s.entry key).lastSeenEpoch ≤ maxLimiterIdleSecs := by
        intro hfresh
        exact hk (Finset.mem_filter.mpr ⟨hmem, by simpa using hfresh⟩)
      have hl := hc.lapse hG hq hn hstale
      exact ⟨hl.bounded, hl.past⟩
    · have hl := hlater.absent key hmem
      exact ⟨hl.bounded, hl.past⟩
  · intro key hk
    obtain ⟨old, cur, last, hc⟩ := hlater.present key (Finset.mem_of_mem_filter key hk)
    exact ⟨old, cur, last, hc.split, hc.used, hc.seen, hc.clock, hc.bounded, hc.past, hc.apart⟩

theorem accounted_makeRoom (hG : G.Lawful) (hq : Refills q) (h : Accounted G q s)
    (hn : s.now ≤ now) (hm : s.MakeRoom now false room) : Accounted G q { room with now } := by
  cases hm with
  | room => exact accounted_later h hn
  | cleaned => exact accounted_cleanupStale hG hq h hn

theorem accounted_step {call : Call} (hG : G.Lawful) (hq : Refills q) (h : Accounted G q s)
    {t : Budgets L} (hs : Step G q s call t) (he : ∀ key, call ≠ .check key true) :
    Accounted G q t := by
  cases hs with
  | hit hn hk => exact accounted_spend h hn hk
  | @miss room key now evicted hn hk hm =>
    cases evicted with
    | true => exact absurd rfl (he key)
    | false =>
      have hroom := accounted_makeRoom hG hq h hn hm
      have hadd := accounted_add hroom fun hmem => hk (makeRoom_subset hm hmem)
      have hspend := accounted_spend hadd le_rfl (Finset.mem_insert_self key room.clients)
      exact hspend
  | cleanupStale hn => exact accounted_cleanupStale hG hq h hn

end Step

theorem accounted_of_reachable (hG : G.Lawful) (hq : Refills q) (h : (roomy G q).Reachable s) :
    Accounted G q s := by
  refine h.invariant ?_ fun s call t ih hs => accounted_step hG hq ih hs.1 hs.2
  rintro s ⟨hclients, hadmitted⟩
  constructor
  · intro key _
    constructor
    · rw [hadmitted]
      exact bounded_of_length (Nat.zero_le _)
    · simp [hadmitted]
  · simp [hclients]

/-- A key is admitted no more often by all the limiters it has had than by one: a new limiter comes
with a full burst only after the old one would have had it back. -/
theorem budget_kept (G : Governor L) (hG : G.Lawful) {q : Quota}
    (hq : q = generalQuota ∨ q = authQuota) {s : Budgets L} (h : (roomy G q).Reachable s)
    (key : String) (a d : Nat) :
    inWindow (s.admitted key) a d * minute ≤ (q.burst + 1) * minute + q.perMinute * d := by
  have hrefills : Refills q := by
    rcases hq with rfl | rfl <;> decide
  have hacc := accounted_of_reachable hG hrefills h
  by_cases hk : key ∈ s.clients
  · obtain ⟨old, cur, last, hc⟩ := hacc.present key hk
    exact hc.affordable hG hrefills a d
  · exact (hacc.absent key hk).bounded a d

/-- A limiter that never refills. -/
def spendthrift : Governor Nat := ⟨Quota.burst, fun left _ => (decide (0 < left), left - 1)⟩

theorem lawful_spendthrift : spendthrift.Lawful := by
  intro q left last admitted h
  have hlen : admitted.length + left ≤ q.burst := by
    induction h with
    | direct => exact (Nat.zero_add _).le
    | @check left last now admitted h hn ih =>
      by_cases hpos : 0 < left
      · simp only [spendthrift, hpos, decide_true, if_true, List.length_append, List.length_singleton]
        omega
      · simp only [spendthrift, hpos, decide_false, Bool.false_eq_true, if_false]
        omega
  exact bounded_of_length (by omega)

/-- A client that is admitted, goes away for a quarter of an hour and comes back to a new entry. -/
theorem budget_kept_return : ∃ s : Budgets Nat, (roomy spendthrift authQuota).Reachable s ∧
    s.admitted "203.0.113.9" = [0, 901 * second] ∧
    inWindow (s.admitted "203.0.113.9") 0 (901 * second) * minute ≤
      (authQuota.burst + 1) * minute + authQuota.perMinute * (901 * second) := by
  have h0 : (roomy spendthrift authQuota).Reachable { entry := fun _ => ⟨0, 0⟩ } := .init ⟨rfl, rfl⟩
  have h1 := h0.step ⟨@Step.miss _ _ _ _ _ "203.0.113.9" 0 _ le_rfl (by simp) (.room (by decide)),
    by simp⟩
  have h2 := h1.step ⟨@Step.cleanupStale _ _ _ _ (901 * second) (Nat.zero_le _), by simp⟩
  have h3 := h2.step ⟨@Step.miss _ _ _ _ _ "203.0.113.9" (901 * second) _ le_rfl (by decide)
    (.room (by decide)), by simp⟩
  exact ⟨_, h3, rfl, budget_kept spendthrift lawful_spendthrift (.inr rfl) h3 _ _ _⟩

end Budgets

end X2rp.Proxy
