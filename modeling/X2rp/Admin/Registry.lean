import Mathlib.Data.List.Basic
import Mathlib.Logic.Function.Basic
import X2rp.Lts

/-! The registry of connector sessions, and the three ways in which a manager leaves it. -/
namespace X2rp.Admin

/-- `ConnectorRegistry.managers`: for each connector, the session whose manager is entered. -/
abbrev Managers := String → Option Nat

namespace Managers

variable (managers : Managers) (id : String) (k : Nat)

/-- The map after `register`, and the manager that it replaces. -/
def register : Managers × Option Nat :=
  (Function.update managers id (some k), (managers id).filter (· ≠ k))

/-- The map after `unregister_manager`, and the manager that it removes: this very one, never a
replacement. -/
def unregisterManager : Managers × Option Nat :=
  if managers id = some k then (Function.update managers id none, some k) else (managers, none)

/-- The map after `unregister`, and the manager that it removes. -/
def unregister : Managers × Option Nat := (Function.update managers id none, managers id)

theorem unregisterManager_fst (id' : String) : (managers.unregisterManager id k).1 id' =
    if id' = id ∧ managers id = some k then none else managers id' := by
  unfold unregisterManager
  split
  · simp [Function.update_apply, *]
  · simp [*]

theorem unregisterManager_snd : (managers.unregisterManager id k).2 =
    if managers id = some k then some k else none := by
  unfold unregisterManager
  split <;> rfl

end Managers

/-- The calls on the registry: by sessions, once each, and forced ones. -/
inductive Call
  | register (k : Nat)
  | unregisterManager (k : Nat)
  | unregister
deriving DecidableEq, Repr

/-- A manager is up until a call removes it from the map, and then that call shuts it down. -/
inductive Life
  | up
  | removed (c : Call)
  | ending (c : Call)
  | down (c : Call)
deriving DecidableEq, Repr

/-- Where a call is once it has changed the map: before or in the `shutdown` of the manager that it
has taken out, or about to return. -/
inductive Pc
  | shutdown (k : Nat)
  | inShutdown (k : Nat)
  | ret
deriving DecidableEq, Repr

/-- Where a call goes on that has taken out this manager, or none. -/
def Pc.after : Option Nat → Pc
  | some k => .shutdown k
  | none => .ret

theorem Pc.after_eq_shutdown {removed : Option Nat} {k : Nat} :
    Pc.after removed = .shutdown k ↔ removed = some k := by
  cases removed <;> simp [Pc.after]

theorem Pc.after_ne_inShutdown (removed : Option Nat) (k : Nat) :
    Pc.after removed ≠ .inShutdown k := by
  cases removed <;> simp [Pc.after]

/-- How far a session is with its own calls. -/
inductive Phase
  | fresh
  | registering
  | live
  | left
deriving DecidableEq, Repr

/-- The calls in the order in which they took the lock. -/
inductive Entry
  | registered (id : String) (k : Nat)
  | unregisteredManager (id : String) (k : Nat)
  | unregistered (id : String)
deriving DecidableEq, Repr

/-- Session `k` is one of the connector `connectorId k`. The two kinds of `unregister` keep the
lock until they return, `register` only while it changes the map. `log` is newest first. -/
structure Registry where
  connectorId : Nat → String
  managers : Managers := fun _ => none
  lock : Option Call := none
  pc : Call → Option Pc := fun _ => none
  phase : Nat → Phase := fun _ => .fresh
  life : Nat → Life := fun _ => .up
  log : List Entry := []

inductive Action
  | call (c : Call)
  | ret (c : Call)
deriving DecidableEq, Repr

namespace Registry

def setPhase (r : Registry) (k : Nat) (phase : Phase) : Registry :=
  { r with phase := Function.update r.phase k phase }

/-- A call goes on with the shutdown of a manager. -/
def advance (r : Registry) (c : Call) (k : Nat) (life : Life) (pc : Pc) : Registry :=
  { r with
    life := Function.update r.life k life
    pc := Function.update r.pc c (some pc) }

def leave (r : Registry) (c : Call) : Registry := { r with pc := Function.update r.pc c none }

/-- What a call leaves of the registry with the map it returns and the manager it has removed. -/
def update (r : Registry) (c : Call) (e : Entry) (result : Managers × Option Nat) : Registry :=
  { r with
    managers := result.1
    life := result.2.elim r.life fun k => Function.update r.life k (.removed c)
    pc := Function.update r.pc c (some (.after result.2))
    log := e :: r.log }

/-- The manager has been removed by the call, which has yet to shut it down. -/
def Due (r : Registry) (c : Call) (k : Nat) : Prop := r.life k = .removed c ∨ r.life k = .ending c

inductive Step : Registry → Action → Registry → Prop
  | register {r : Registry} {k : Nat} (hp : r.phase k = .fresh) (hl : r.lock = none) :
      Step r (.call (.register k))
        ((r.update (.register k) (.registered (r.connectorId k) k)
          (r.managers.register (r.connectorId k) k)).setPhase k .registering)
  | unregisterManager {r : Registry} {k : Nat} (hp : r.phase k = .live) (hl : r.lock = none) :
      Step r (.call (.unregisterManager k))
        { (r.update (.unregisterManager k) (.unregisteredManager (r.connectorId k) k)
            (r.managers.unregisterManager (r.connectorId k) k)).setPhase k .left with
          lock := some (.unregisterManager k) }
  | unregister {r : Registry} {id : String} (hl : r.lock = none) :
      Step r (.call .unregister) { r.update .unregister (.unregistered id)
        (r.managers.unregister id) with lock := some .unregister }
  | shutdown {r : Registry} {c : Call} {k : Nat} (hc : r.pc c = some (.shutdown k)) :
      Step r (.call c) (r.advance c k (.ending c) (.inShutdown k))
  | shutdownDone {r : Registry} {c : Call} {k : Nat} (hc : r.pc c = some (.inShutdown k)) :
      Step r (.call c) (r.advance c k (.down c) .ret)
  | registered {r : Registry} {k : Nat} (hc : r.pc (.register k) = some .ret) :
      Step r (.ret (.register k)) ((r.leave (.register k)).setPhase k .live)
  | unlock {r : Registry} {c : Call} (hl : r.lock = some c) (hc : r.pc c = some .ret) :
      Step r (.ret c) { r.leave c with lock := none }

def lts : LTS Registry Action where
  Init r := ∃ connectorId, r = { connectorId }
  Tr := Step

/-- `get`, which waits while the lock is kept. -/
def get? (r : Registry) (id : String) : Option (Option Nat) :=
  if r.lock = none then some (r.managers id) else none

end Registry

/-- A later call after which `k` is no longer the manager that `id` got last. -/
def Entry.Ends (id : String) (k : Nat) : Entry → Prop
  | .registered id' _ => id' = id
  | .unregisteredManager id' k' => id' = id ∧ k' = k
  | .unregistered id' => id' = id

/-- The manager that was registered last for `id`, unless it has been unregistered since. -/
def Latest (log : List Entry) (id : String) (k : Nat) : Prop :=
  ∃ newer older, log = newer ++ .registered id k :: older ∧ ∀ e ∈ newer, ¬e.Ends id k

theorem latest_cons {e : Entry} {log : List Entry} {id : String} {k : Nat} :
    Latest (e :: log) id k ↔ e = .registered id k ∨ ¬e.Ends id k ∧ Latest log id k := by
  constructor
  · rintro ⟨newer, older, h, hn⟩
    cases newer with
    | nil =>
      cases h
      exact .inl rfl
    | cons e' newer =>
      cases h
      exact .inr ⟨hn e List.mem_cons_self, newer, older, rfl,
        fun e he => hn e (List.mem_cons_of_mem _ he)⟩
  · rintro (rfl | ⟨he, newer, older, rfl, hn⟩)
    · exact ⟨[], log, rfl, by simp⟩
    · exact ⟨e :: newer, older, rfl, List.forall_mem_cons.mpr ⟨he, hn⟩⟩

namespace Registry

variable {r t : Registry} {a : Action} {c : Call} {k : Nat} {id : String}

/-- A registered manager is in the map under its own id and up, or it is not in the map and the
call that removed it is its end. What is due of a manager is where that call is. -/
structure Sound (r : Registry) : Prop where
  current : ∀ id k, r.managers id = some k ↔ Latest r.log id k
  entered : ∀ id k, r.managers id = some k →
    r.connectorId k = id ∧ r.phase k ≠ .fresh ∧ r.life k = .up
  gone : ∀ k, r.phase k ≠ .fresh → r.managers (r.connectorId k) ≠ some k → r.life k ≠ .up
  fresh : ∀ k, r.phase k = .fresh → r.life k = .up ∧ r.pc (.register k) = none
  own : ∀ j k, r.life k = .removed (.unregisterManager j) ∨
    r.life k = .ending (.unregisterManager j) ∨ r.life k = .down (.unregisterManager j) → j = k
  removed : ∀ c k, r.life k = .removed c ↔ r.pc c = some (.shutdown k)
  ending : ∀ c k, r.life k = .ending c ↔ r.pc c = some (.inShutdown k)
  locked : ∀ c, r.pc c ≠ none → (∀ j, c ≠ .register j) → r.lock = some c

theorem sound_init (connectorId : Nat → String) : Sound { connectorId } where
  current := by simp [Latest]
  entered := by simp
  gone := by simp
  fresh := by simp
  own := by simp
  removed := by simp
  ending := by simp
  locked := by simp

theorem life_update (result : Managers × Option Nat) (e : Entry) :
    (r.update c e result).life k = if result.2 = some k then .removed c else r.life k := by
  obtain ⟨managers, _ | j⟩ := result
  · simp [update]
  · by_cases h : j = k
    · simp [update, h]
    · simp [update, h, Function.update_of_ne (Ne.symm h)]

/-- A call that was not in progress has changed the map, and has what it took out to shut down. -/
theorem Sound.update_due {e : Entry} {result : Managers × Option Nat} (h : Sound r)
    (hc : r.pc c = none) (hres : ∀ j, result.2 = some j → r.life j = .up) (c' : Call) (j : Nat) :
    ((r.update c e result).life j = .removed c' ↔
      (r.update c e result).pc c' = some (.shutdown j)) ∧
    ((r.update c e result).life j = .ending c' ↔
      (r.update c e result).pc c' = some (.inShutdown j)) := by
  have hremoved := h.removed c' j
  have hending := h.ending c' j
  have hup := hres j
  rw [life_update]
  by_cases he : c' = c
  · subst he
    simp only [update, Function.update_self, Option.some_inj, Pc.after_eq_shutdown,
      Pc.after_ne_inShutdown, iff_false]
    grind
  · simp only [update, Function.update_of_ne he]
    grind

theorem Sound.register (h : Sound r) (hp : r.phase k = .fresh) :
    Sound ((r.update (.register k) (.registered (r.connectorId k) k)
      (r.managers.register (r.connectorId k) k)).setPhase k .registering) := by
  have hup : ∀ j, (r.managers.register (r.connectorId k) k).2 = some j → r.life j = .up :=
    fun j hj => (h.entered _ j (Option.filter_eq_some_iff.mp hj).1).2.2
  have hdue := h.update_due (e := .registered (r.connectorId k) k) (h.fresh k hp).2 hup
  refine ⟨fun id j => ?_, fun id j => ?_, fun j => ?_, fun j => ?_, fun i j => ?_,
    fun c j => (hdue c j).1, fun c j => (hdue c j).2, fun c => ?_⟩
  · have := h.current id j
    simp only [setPhase, update, Managers.register, latest_cons, Entry.Ends, Function.update_apply,
      Entry.registered.injEq]
    grind
  · have := h.entered id j
    have := h.entered (r.connectorId k) j
    have := (h.fresh k hp).1
    simp only [setPhase, life_update, Managers.register, Option.filter_eq_some_iff]
    simp only [update, Function.update_apply]
    grind
  · have := h.gone j
    simp only [setPhase, life_update, Managers.register, Option.filter_eq_some_iff]
    simp only [update, Function.update_apply]
    grind
  · have := h.fresh j
    have := h.entered (r.connectorId k) j
    simp only [setPhase, life_update, Managers.register, Option.filter_eq_some_iff,
      Function.update_apply]
    simp only [update, Function.update_apply]
    grind
  · have := h.own i j
    simp only [setPhase, life_update]
    grind
  · have := h.locked c
    simp only [setPhase, update, Function.update_apply]
    grind

/-- A call that removes a manager, if anything, and does so under the manager's own id. -/
theorem Sound.remove {e : Entry} {result : Managers × Option Nat} {phase : Nat → Phase}
    (h : Sound r) (hl : r.lock = none) (hphase : ∀ j, phase j = .fresh ↔ r.phase j = .fresh)
    (hmap : ∀ id j, result.1 id = some j ↔ r.managers id = some j ∧ result.2 ≠ some j)
    (hres : ∀ j, result.2 = some j → r.managers (r.connectorId j) = some j)
    (he : ∀ id j, r.managers id = some j → (e.Ends id j ↔ result.2 = some j))
    (hne : ∀ id j, e ≠ .registered id j)
    (hown : ∀ i j, c = .unregisterManager i → result.2 = some j → i = j)
    (hc : ∀ j, c ≠ .register j) :
    Sound { r.update c e result with phase, lock := some c } := by
  have hidle : ∀ c', (∀ j, c' ≠ .register j) → r.pc c' = none := by
    intro c' hc'
    by_contra hn
    simpa [hl] using h.locked c' hn hc'
  have hdue := h.update_due (e := e) (hidle c hc) fun j hj => (h.entered _ j (hres j hj)).2.2
  refine ⟨fun id j => ?_, fun id j => ?_, fun j => ?_, fun j => ?_, fun i j => ?_,
    fun c j => (hdue c j).1, fun c j => (hdue c j).2, fun c' => ?_⟩
  · have := h.current id j
    have := he id j
    simp only [update, latest_cons, hmap, hne, false_or]
    grind
  · have := h.entered id j
    have := hphase j
    simp only [life_update]
    simp only [update, hmap]
    grind
  · have := h.gone j
    have := hphase j
    simp only [life_update]
    simp only [update]
    grind
  · have := h.fresh j
    have := hphase j
    have := h.entered (r.connectorId j) j
    have := hc j
    simp only [life_update]
    simp only [update, Function.update_apply]
    grind
  · have := h.own i j
    simp only [life_update]
    grind
  · have := hidle c'
    simp only [update, Function.update_apply]
    grind

/-- The call in charge takes the shutdown one step further. -/
theorem Sound.advance {life : Life} {pc : Pc} (h : Sound r) (hd : r.Due c k)
    (hl : life = .ending c ∧ pc = .inShutdown k ∨ life = .down c ∧ pc = .ret) :
    Sound (r.advance c k life pc) := by
  have hpc : r.pc c ≠ none := by
    have := h.removed c k
    have := h.ending c k
    grind [Due]
  have hsole : ∀ j, r.Due c j → j = k := by
    intro j hj
    have := h.removed c j
    have := h.ending c j
    have := h.removed c k
    have := h.ending c k
    grind [Due]
  refine ⟨h.current, fun id j hj => ?_, fun j => ?_, fun j => ?_, fun i j => ?_, fun c' j => ?_,
    fun c' j => ?_, fun c' => ?_⟩
  · obtain ⟨h1, h2, h3⟩ := h.entered id j hj
    have hne : j ≠ k := by
      rintro rfl
      simp [Due, h3] at hd
    exact ⟨h1, h2, (Function.update_of_ne hne _ _).trans h3⟩
  · have := h.gone j
    simp only [Registry.advance, Function.update_apply]
    grind
  · have := h.fresh j
    simp only [Registry.advance, Function.update_apply, Due] at *
    grind
  · have := h.own i j
    simp only [Registry.advance, Function.update_apply, Due] at *
    grind
  · have := h.removed c' j
    have := hsole j
    simp only [Registry.advance, Function.update_apply, Due] at *
    grind
  · have := h.ending c' j
    have := hsole j
    simp only [Registry.advance, Function.update_apply, Due] at *
    grind
  · have := h.locked c'
    simp only [Registry.advance, Function.update_apply]
    grind

/-- A call that is through with its shutdown is in charge of no manager. -/
theorem Sound.not_due (h : Sound r) (hc : r.pc c = some .ret) : ¬r.Due c k := by
  rintro (hd | hd)
  · simp [(h.removed c k).mp hd] at hc
  · simp [(h.ending c k).mp hd] at hc

/-- It returns. -/
theorem Sound.leave (h : Sound r) (hc : r.pc c = some .ret) : Sound (r.leave c) := by
  refine ⟨h.current, h.entered, h.gone, fun j hj => ⟨(h.fresh j hj).1, ?_⟩, h.own, fun c' j => ?_,
    fun c' j => ?_, fun c' => ?_⟩
  · have := (h.fresh j hj).2
    simp only [Registry.leave, Function.update_apply]
    grind
  · have := h.removed c' j
    simp only [Registry.leave, Function.update_apply]
    grind
  · have := h.ending c' j
    simp only [Registry.leave, Function.update_apply]
    grind
  · have := h.locked c'
    simp only [Registry.leave, Function.update_apply]
    grind

theorem update_eq_fresh (phase : Nat → Phase) {p : Phase} (hk : phase k ≠ .fresh)
    (hp : p ≠ .fresh) (j : Nat) : Function.update phase k p j = .fresh ↔ phase j = .fresh := by
  by_cases hj : j = k
  · simp [hj, hk, hp]
  · rw [Function.update_of_ne hj]

theorem Sound.step (h : Sound r) (hs : Step r a t) : Sound t := by
  cases hs with
  | register hp hl => exact h.register hp
  | @unregisterManager k hp hl =>
    have hphase := update_eq_fresh (k := k) r.phase (p := .left) (by simp [hp]) (by simp)
    have hent := h.entered
    refine h.remove hl hphase ?_ ?_ ?_ (by simp) ?_ (by simp)
    all_goals
      simp only [Managers.unregisterManager_fst, Managers.unregisterManager_snd, Entry.Ends]
      grind
  | @unregister id hl =>
    have hent := h.entered
    refine h.remove hl (fun _ => Iff.rfl) ?_ ?_ ?_ (by simp) (by simp) (by simp)
    all_goals
      simp only [Managers.unregister, Entry.Ends, Function.update_apply]
      grind
  | shutdown hc => exact h.advance (.inl ((h.removed _ _).mpr hc)) (.inl ⟨rfl, rfl⟩)
  | shutdownDone hc => exact h.advance (.inr ((h.ending _ _).mpr hc)) (.inr ⟨rfl, rfl⟩)
  | @registered k hc =>
    have hk : r.phase k ≠ .fresh := fun hp => by simp [(h.fresh k hp).2] at hc
    have hphase := update_eq_fresh r.phase (p := .live) hk (by simp)
    have h' := h.leave hc
    refine ⟨h'.current, fun id j hj => ?_, fun j hj => ?_, fun j hj => ?_, h'.own, h'.removed,
      h'.ending, h'.locked⟩
    · obtain ⟨h1, h2, h3⟩ := h'.entered id j hj
      exact ⟨h1, (hphase j).not.mpr h2, h3⟩
    · exact h'.gone j ((hphase j).not.mp hj)
    · exact h'.fresh j ((hphase j).mp hj)
  | @unlock c hl hc =>
    have h' := h.leave hc
    refine ⟨h'.current, h'.entered, h'.gone, h'.fresh, h'.own, h'.removed, h'.ending,
      fun c' hn hr => ?_⟩
    -- Only the call that has the lock can be in progress, and it has just returned.
    obtain rfl : c = c' := Option.some_inj.mp (hl.symm.trans (h'.locked c' hn hr))
    exact absurd (Function.update_self ..) hn

theorem sound_of_reachable (h : lts.Reachable r) : Sound r :=
  h.invariant (fun _ hi => hi.elim fun connectorId h => h ▸ sound_init connectorId)
    fun _ _ _ hs ht => hs.step ht

/-- A manager leaves the map by the hand of one call, which is then in charge of it. -/
theorem removed_of_step (hs : Step r a t) (h : r.managers id = some k)
    (ht : t.managers id ≠ some k) : ∃ c, a = .call c ∧ t.life k = .removed c := by
  cases hs with
  | @register j hp hl =>
    refine ⟨_, rfl, ?_⟩
    simp only [setPhase, life_update, Managers.register, Option.filter_eq_some_iff] at ht ⊢
    simp only [update, Function.update_apply] at ht
    grind
  | unregisterManager hp hl =>
    refine ⟨_, rfl, ?_⟩
    simp only [setPhase, life_update, Managers.unregisterManager_snd] at ht ⊢
    simp only [update, Managers.unregisterManager_fst] at ht
    grind
  | unregister hl =>
    refine ⟨_, rfl, ?_⟩
    simp only [life_update, Managers.unregister] at ht ⊢
    simp only [update, Function.update_apply] at ht
    grind
  | shutdown hc | shutdownDone hc | registered hc => exact absurd h ht
  | unlock hl hc => exact absurd h ht

/-- Only the call in charge of a manager goes on with its shutdown. -/
theorem due_step (hr : Sound r) (hs : Step r a t) (h : r.Due c k) :
    t.life k = r.life k ∨ a = .call c ∧ (t.life k = .ending c ∨ t.life k = .down c) := by
  have hup := hr.entered
  cases hs with
  | register hp hl =>
    simp only [setPhase, life_update, Managers.register, Option.filter_eq_some_iff, Due] at h ⊢
    grind
  | unregisterManager hp hl =>
    simp only [setPhase, life_update, Managers.unregisterManager_snd, Due] at h ⊢
    grind
  | unregister hl =>
    simp only [life_update, Managers.unregister, Due] at h ⊢
    grind
  | shutdown hc =>
    have := (hr.removed _ _).mpr hc
    simp only [advance, Function.update_apply, Due] at h ⊢
    grind
  | shutdownDone hc =>
    have := (hr.ending _ _).mpr hc
    simp only [advance, Function.update_apply, Due] at h ⊢
    grind
  | registered hc => exact .inl rfl
  | unlock hl hc => exact .inl rfl

/-- A call does not return before what it has removed is down. -/
theorem not_due_of_return (hr : Sound r) (hs : Step r (.ret c) t) : ¬r.Due c k := by
  cases hs with
  | registered hc => exact hr.not_due hc
  | unlock hl hc => exact hr.not_due hc

@[simp] theorem advance_advance (life life' : Life) (pc pc' : Pc) :
    (r.advance c k life pc).advance c k life' pc' = r.advance c k life' pc' := by
  simp [advance]

/-- The call in charge of a manager gets it down, in two steps at most. -/
theorem down_run (hr : Sound r) (h : r.Due c k) :
    ∃ calls, lts.MTr r calls (r.advance c k (.down c) .ret) ∧ ∀ a ∈ calls, a = .call c := by
  have hdone : ∀ {r : Registry}, r.pc c = some (.inShutdown k) →
      lts.MTr r [.call c] (r.advance c k (.down c) .ret) := fun hc => .stepL (.shutdownDone hc) .refl
  rcases h with hl | hl
  · have hrest := hdone (r := r.advance c k (.ending c) (.inShutdown k)) (Function.update_self ..)
    rw [advance_advance] at hrest
    exact ⟨_, .stepL (.shutdown ((hr.removed c k).mp hl)) hrest, by simp⟩
  · exact ⟨_, hdone ((hr.ending c k).mp hl), by simp⟩

/-- With that nothing is left for the call but to return. -/
theorem return_of_down (hr : Sound r) (h : r.Due c k) :
    ∃ t, Step (r.advance c k (.down c) .ret) (.ret c) t ∧ t.life k = .down c := by
  have hdown : (r.advance c k (.down c) .ret).life k = .down c := Function.update_self ..
  have hret : (r.advance c k (.down c) .ret).pc c = some .ret := Function.update_self ..
  by_cases hc : ∃ j, c = .register j
  · obtain ⟨j, rfl⟩ := hc
    exact ⟨_, .registered hret, hdown⟩
  · push Not at hc
    have hlock := (hr.advance h (.inr ⟨rfl, rfl⟩)).locked c (by simp [hret]) hc
    exact ⟨_, .unlock hlock hret, hdown⟩

/-- Whatever the call in charge does takes the shutdown one step further. -/
theorem own_step (hr : Sound r) (h : r.Due c k) (hs : Step r (.call c) t) :
    (r.life k = .removed c ∧ t.life k = .ending c) ∨ (r.life k = .ending c ∧ t.life k = .down c) := by
  have hpc : r.pc c = some (.shutdown k) ∨ r.pc c = some (.inShutdown k) :=
    h.imp (hr.removed c k).mp (hr.ending c k).mp
  have hlock : (∀ j, c ≠ .register j) → r.lock ≠ none := by
    intro hc
    rw [hr.locked c (by rcases hpc with hpc | hpc <;> simp [hpc]) hc]
    exact Option.some_ne_none c
  cases hs with
  | register hp hl => simp [(hr.fresh _ hp).2] at hpc
  | unregisterManager hp hl => exact absurd hl (hlock (by simp))
  | unregister hl => exact absurd hl (hlock (by simp))
  | @shutdown _ k' hc =>
    obtain rfl : k' = k := by simpa [hc] using hpc
    exact .inl ⟨(hr.removed _ _).mpr hc, Function.update_self ..⟩
  | @shutdownDone _ k' hc =>
    obtain rfl : k' = k := by simpa [hc] using hpc
    exact .inr ⟨(hr.ending _ _).mpr hc, Function.update_self ..⟩

/-- The last call of a session touches no other session's manager. -/
theorem unregisterManager_own (hr : Sound r) (hs : Step r (.call (.unregisterManager k)) t) :
    (∀ id, t.managers id ≠ r.managers id → r.managers id = some k) ∧
      ∀ j, t.life j ≠ r.life j → j = k := by
  have hown := hr.own
  cases hs with
  | unregisterManager hp hl =>
    simp only [setPhase, life_update, Managers.unregisterManager_snd]
    simp only [update, Managers.unregisterManager_fst]
    grind
  | shutdown hc =>
    have := (hr.removed _ _).mpr hc
    simp only [advance, Function.update_apply]
    grind
  | shutdownDone hc =>
    have := (hr.ending _ _).mpr hc
    simp only [advance, Function.update_apply]
    grind

/-- In any interleaving of sessions and forced calls: `get` finds the manager that was registered
last, unless it has been unregistered since, and never one whose shutdown has begun. The call that
takes a manager out of the map is in charge of it: nobody else touches it, each step of the call
takes the shutdown further, and by its own steps the call gets the manager down and returns, which
it does not do before. The last call of a session concerns its own manager only. -/
theorem session_replacement (h : lts.Reachable r) :
    (∀ id m, r.get? id = some m → ∀ k, m = some k ↔ Latest r.log id k) ∧
    (∀ id k, r.get? id = some (some k) → r.life k = .up) ∧
    (∀ k, r.phase k ≠ .fresh → r.managers (r.connectorId k) ≠ some k →
      ∃ c, r.Due c k ∨ r.life k = .down c) ∧
    (∀ c k, r.Due c k → ∃ calls r₁ r₂, lts.MTr r calls r₁ ∧ (∀ a ∈ calls, a = .call c) ∧
      r₁.life k = .down c ∧ Step r₁ (.ret c) r₂ ∧ r₂.life k = .down c) ∧
    ∀ a t, Step r a t →
      (∀ id k, r.managers id = some k → t.managers id ≠ some k →
        ∃ c, a = .call c ∧ t.life k = .removed c) ∧
      (∀ c k, r.Due c k →
        (t.life k = r.life k ∨ a = .call c ∧ (t.life k = .ending c ∨ t.life k = .down c)) ∧
        (a = .call c → (r.life k = .removed c ∧ t.life k = .ending c) ∨
          (r.life k = .ending c ∧ t.life k = .down c))) ∧
      (∀ c k, a = .ret c → ¬r.Due c k) ∧
      ∀ k, a = .call (.unregisterManager k) →
        (∀ id, t.managers id ≠ r.managers id → r.managers id = some k) ∧
          ∀ j, t.life j ≠ r.life j → j = k := by
  have hr := sound_of_reachable h
  have hget : ∀ id m, r.get? id = some m → r.managers id = m := by
    intro id m hm
    unfold get? at hm
    split at hm
    · exact Option.some_inj.mp hm
    · cases hm
  refine ⟨?_, ?_, ?_, ?_, ?_⟩
  · intro id m hm k
    rw [← hget id m hm]
    exact hr.current id k
  · intro id k hk
    exact (hr.entered id k (hget id _ hk)).2.2
  · intro k hp hm
    have := hr.gone k hp hm
    cases hl : r.life k with
    | up => exact absurd hl this
    | removed c => exact ⟨c, .inl (.inl hl)⟩
    | ending c => exact ⟨c, .inl (.inr hl)⟩
    | down c => exact ⟨c, .inr rfl⟩
  · intro c k hd
    obtain ⟨calls, hrun, hcalls⟩ := down_run hr hd
    obtain ⟨r₂, hret, hdown⟩ := return_of_down hr hd
    exact ⟨calls, _, r₂, hrun, hcalls, Function.update_self .., hret, hdown⟩
  · intro a t hs
    refine ⟨fun id k => removed_of_step hs, fun c k hd => ⟨due_step hr hs hd, ?_⟩, ?_, ?_⟩
    · rintro rfl
      exact own_step hr hd hs
    · rintro c k rfl
      exact not_due_of_return hr hs
    · rintro k rfl
      exact unregisterManager_own hr hs

/-- A connector that comes back before its old session has ended, up to the return of its
`register`. -/
theorem session_replacement_reconnect : ∃ r, lts.Reachable r ∧ r.get? "c" = some (some 1) ∧
    r.life 1 = .up ∧ r.phase 0 = .live ∧ r.phase 1 = .live ∧ r.life 0 = .down (.register 1) := by
  have h0 : lts.Reachable { connectorId := fun _ => "c" } := .init ⟨_, rfl⟩
  have h1 := (h0.step (.register (k := 0) rfl rfl)).step (.registered (k := 0) rfl)
  have h2 := h1.step (.register (k := 1) rfl rfl)
  have h3 := h2.step (.shutdown (c := .register 1) (k := 0) rfl)
  have h4 := h3.step (.shutdownDone (c := .register 1) (k := 0) rfl)
  have h5 := h4.step (.registered (k := 1) rfl)
  exact ⟨_, h5, rfl, (session_replacement h5).2.1 "c" 1 rfl, rfl, rfl, rfl⟩

end Registry

end X2rp.Admin
