import Mathlib.Data.List.Chain
import X2rp.Admin.Sessions
import X2rp.Lts

/-! How long an admin session is good, over whole traces of calls. -/
namespace X2rp.Admin

namespace AuthService

/-- A call with its answer; a creation with the sessions that had to make room. -/
inductive Call
  | create (sid token : String) (evicted : List String)
  | validate (sid : String) (answer : Bool)
  | csrf (sid token : String) (answer : Bool)
  | cleanup
deriving DecidableEq, Repr

/-- The calls so far and their times, oldest first. -/
abbrev History := List (Nat × Call)

/-- The id has not been drawn before. -/
def Fresh (h : History) (sid : String) : Prop := ∀ t token evicted, (t, .create sid token evicted) ∉ h

def Evicted (h : History) (sid : String) : Prop :=
  ∃ t sid' token evicted, (t, .create sid' token evicted) ∈ h ∧ sid ∈ evicted

/-- The times at which the session was validated. -/
def successes (h : History) (sid : String) : List Nat :=
  h.filterMap fun e =>
    match e.2 with
    | .validate sid' true => if sid' = sid then some e.1 else none
    | _ => none

/-- Two times that are no more than the idle limit apart. -/
def Gap (earlier later : Nat) : Prop := elapsedSecsSince later earlier ≤ sessionIdleTtlSecs

/-- The session with this token was created, had to make room for nobody, and neither of its clocks
has run out. -/
def Good (h : History) (sid token : String) (t : Nat) : Prop :=
  ∃ c evicted, (c, .create sid token evicted) ∈ h ∧ ¬ Evicted h sid ∧
    elapsedSecsSince t c ≤ sessionAbsoluteTtlSecs ∧ ((c :: successes h sid) ++ [t]).IsChain Gap

end AuthService

open AuthService

/-- The sessions, and what has been asked of them. -/
structure AuthService where
  sessions : Sessions := []
  history : History := []

namespace AuthService

/-- The call has been made. -/
def log (s : AuthService) (t : Nat) (call : Call) (sessions : Sessions) : AuthService :=
  ⟨sessions, s.history ++ [(t, call)]⟩

/-- Calls at non-decreasing times. The order in which the map is walked is anyone's guess. -/
inductive Step : AuthService → Nat × Call → AuthService → Prop
  | create {s : AuthService} {t : Nat} {sid token : String} {order : Sessions}
      (ht : ∀ e ∈ s.history, e.1 ≤ t) (hf : Fresh s.history sid) (ho : order.Perm s.sessions) :
      Step s (t, .create sid token (order.evicted t))
        (s.log t (.create sid token (order.evicted t)) (order.createAdminSession t sid token))
  | validate {s : AuthService} {t : Nat} {sid : String} (ht : ∀ e ∈ s.history, e.1 ≤ t) :
      Step s (t, .validate sid (s.sessions.validateAdminSession t sid).2)
        (s.log t (.validate sid (s.sessions.validateAdminSession t sid).2)
          (s.sessions.validateAdminSession t sid).1)
  | csrf {s : AuthService} {t : Nat} {sid token : String} (ht : ∀ e ∈ s.history, e.1 ≤ t) :
      Step s (t, .csrf sid token (s.sessions.validateAdminCsrf t sid token))
        (s.log t (.csrf sid token (s.sessions.validateAdminCsrf t sid token)) s.sessions)
  | cleanup {s : AuthService} {t : Nat} (ht : ∀ e ∈ s.history, e.1 ≤ t) :
      Step s (t, .cleanup) (s.log t .cleanup (s.sessions.cleanupExpired t))

/-- From the start of the server. -/
def system : LTS AuthService (Nat × Call) := ⟨fun s => s = {}, Step⟩

/-- What a history may go on with, if all sessions stayed until they are evicted. -/
def Allows (f : Lives) (h : History) (t : Nat) : Call → Prop
  | .create sid _ evicted => Fresh h sid ∧
      ∃ good : Sessions, good.Keyed ∧ good.get = f.live t ∧ good.Evicts evicted
  | .validate sid answer => answer = (f.live t sid).isSome
  | .csrf sid token answer => answer = (f.live t sid).any fun a => a.csrfToken == token
  | .cleanup => True

/-- What a call does to them. -/
def after (f : Lives) (t : Nat) : Call → Lives
  | .create sid token evicted => Function.update (f.drop evicted) sid (some ⟨token, t, t⟩)
  | .validate sid true => Function.update f sid ((f sid).map fun a => { a with lastAccess := t })
  | _ => f

/-- The histories of sessions that stay until they are evicted. -/
inductive Plays : History → Lives → Prop
  | nil : Plays [] fun _ => none
  | snoc {h : History} {f : Lives} {t : Nat} {call : Call} (hp : Plays h f)
      (ht : ∀ e ∈ h, e.1 ≤ t) (ha : Allows f h t call) : Plays (h ++ [(t, call)]) (after f t call)

variable {s s' : AuthService} {h h' : History} {f : Lives} {t : Nat} {call : Call}
  {sid sid' token : String} {a : AdminSession}

theorem mem_log {e : Nat × Call} : e ∈ h ++ [(t, call)] ↔ e ∈ h ∨ e = (t, call) := by
  rw [List.mem_append, List.mem_singleton]

/-- The map holds the sessions that are good, and perhaps some that are not. -/
structure Sim (s : AuthService) (f : Lives) : Prop where
  keyed : s.sessions.Keyed
  length : s.sessions.length ≤ maxAdminSessions
  live : ∀ t, (∀ e ∈ s.history, e.1 ≤ t) → Lives.live s.sessions.get t = f.live t

/-- It is enough to look at the time of the last call. -/
theorem Sim.log {sessions : Sessions} (hk : sessions.Keyed)
    (hl : sessions.length ≤ maxAdminSessions) (hlive : Lives.live sessions.get t = f.live t) :
    Sim (s.log t call sessions) f := by
  refine ⟨hk, hl, fun t' ht' => ?_⟩
  exact Lives.live_congr (ht' (t, call) (mem_log.mpr (.inr rfl))) hlive

section Simulation

variable (hs : Sim s f) (ht : ∀ e ∈ s.history, e.1 ≤ t)
include hs ht

theorem Sim.create {order : Sessions} (ho : order.Perm s.sessions) :
    Sim (s.log t (.create sid token (order.evicted t)) (order.createAdminSession t sid token))
      (after f t (.create sid token (order.evicted t))) := by
  have hk := hs.keyed.perm ho
  have hl : order.length ≤ maxAdminSessions := ho.length_eq ▸ hs.length
  obtain ⟨hkeyed, hroom, hlive, -⟩ := Sessions.makeRoom_spec (t := t) hk hl
  have hlen : (order.createAdminSession t sid token).length ≤ maxAdminSessions := by
    have : ((order.makeRoom t).remove sid).length ≤ (order.makeRoom t).length :=
      List.length_filter_le _ _
    simp only [Sessions.createAdminSession, Sessions.insert, List.length_append, List.length_cons,
      List.length_nil]
    omega
  refine Sim.log (Sessions.keyed_insert hkeyed) hlen ?_
  rw [Sessions.createAdminSession, Sessions.get_insert hkeyed, Lives.live_update not_expired_new,
    hlive, Sessions.get_perm hs.keyed ho, hs.live t ht, after, Lives.live_update not_expired_new,
    Lives.live_drop]

/-- The map gives the answer that the good sessions give. -/
theorem Sim.validate_snd :
    (s.sessions.validateAdminSession t sid).2 = (f.live t sid).isSome := by
  rw [← hs.live t ht, Sessions.validateAdminSession]
  cases ha : s.sessions.get sid with
  | none => simp [Lives.live, ha]
  | some a => cases he : adminSessionExpired t a <;> simp [Lives.live, ha, he]

theorem Sim.validate :
    Sim (s.log t (.validate sid (s.sessions.validateAdminSession t sid).2)
        (s.sessions.validateAdminSession t sid).1)
      (after f t (.validate sid (s.sessions.validateAdminSession t sid).2)) := by
  have hlive := hs.live t ht
  have hsnd : (s.sessions.validateAdminSession t sid).2 = (f.live t sid).isSome :=
    hs.validate_snd ht
  cases ha : f.live t sid with
  | none =>
    -- A session that has expired may go; it is not among the good ones.
    rw [ha, Option.isSome_none] at hsnd
    rw [hsnd]
    have hgone : ∀ a, s.sessions.get sid = some a → adminSessionExpired t a = true := by
      intro a hget
      by_contra hx
      rw [← hlive, Lives.live_eq_some.mpr ⟨hget, Bool.not_eq_true _ ▸ hx⟩] at ha
      cases ha
    rcases hfst : s.sessions.get sid with _ | a
    · simp only [Sessions.validateAdminSession, hfst]
      exact Sim.log hs.keyed hs.length hlive
    · simp only [Sessions.validateAdminSession, hfst, hgone a hfst, if_true]
      refine Sim.log hs.keyed.remove ((List.length_filter_le _ _).trans hs.length) ?_
      rw [Sessions.get_remove hs.keyed, Lives.live_drop, hlive]
      funext sid'
      by_cases hsid : sid' = sid
      · simp [Lives.drop, hsid, ha, after]
      · simp [Lives.drop, hsid, after]
  | some a =>
    rw [ha, Option.isSome_some] at hsnd
    rw [hsnd]
    have hget := ha
    rw [← hlive, Lives.live_eq_some] at hget
    have hf := (Lives.live_eq_some.mp ha).1
    have hfst : (s.sessions.validateAdminSession t sid).1 = s.sessions.touch t sid := by
      simp [Sessions.validateAdminSession, hget.1, hget.2, Sessions.touch]
    rw [hfst]
    refine Sim.log (Sessions.keyed_touch hs.keyed) ?_ ?_
    · rw [Sessions.touch, List.length_map]
      exact hs.length
    · rw [Sessions.get_touch hs.keyed hget.1, Lives.live_update (not_expired_touch hget.2), hlive,
        after, hf, Option.map_some, Lives.live_update (not_expired_touch hget.2)]

theorem Sim.csrf_eq : s.sessions.validateAdminCsrf t sid token =
    (f.live t sid).any fun a => a.csrfToken == token := by
  rw [← hs.live t ht, Sessions.validateAdminCsrf]
  cases ha : s.sessions.get sid with
  | none => simp [Lives.live, ha]
  | some a => cases he : adminSessionExpired t a <;> simp [Lives.live, ha, he]

theorem Sim.quiet (hq : after f t call = f) : Sim (s.log t call s.sessions) (after f t call) := by
  rw [hq]
  exact Sim.log hs.keyed hs.length (hs.live t ht)

theorem Sim.cleanup :
    Sim (s.log t .cleanup (s.sessions.cleanupExpired t)) (after f t .cleanup) := by
  refine Sim.log hs.keyed.cleanupExpired ((List.length_filter_le _ _).trans hs.length) ?_
  rw [Sessions.get_cleanupExpired hs.keyed, Lives.live_live le_rfl]
  exact hs.live t ht

end Simulation

/-- Whatever the code does, sessions that stay until they are evicted allow. -/
theorem Sim.step (hs : Sim s f) (hstep : Step s (t, call) s') :
    s'.history = s.history ++ [(t, call)] ∧ (∀ e ∈ s.history, e.1 ≤ t) ∧
      Allows f s.history t call ∧ Sim s' (after f t call) := by
  cases hstep with
  | create ht hf ho =>
    refine ⟨rfl, ht, ⟨hf, _, ?_, ?_, Sessions.evicts_evicted (ho.length_eq ▸ hs.length)⟩,
      hs.create ht ho⟩
    · exact (hs.keyed.perm ho).cleanupExpired
    · rw [Sessions.get_cleanupExpired (hs.keyed.perm ho), Sessions.get_perm hs.keyed ho,
        hs.live t ht]
  | validate ht => exact ⟨rfl, ht, hs.validate_snd ht, hs.validate ht⟩
  | csrf ht => exact ⟨rfl, ht, hs.csrf_eq ht, hs.quiet ht rfl⟩
  | cleanup ht => exact ⟨rfl, ht, trivial, hs.cleanup ht⟩

/-- What they allow the code may do. -/
theorem Sim.exists_step (hs : Sim s f) (ht : ∀ e ∈ s.history, e.1 ≤ t)
    (ha : Allows f s.history t call) : ∃ s', Step s (t, call) s' := by
  cases call with
  | create sid token evicted =>
    obtain ⟨hf, good, hk, hget, hev⟩ := ha
    have hkept := hs.keyed.cleanupExpired (t := t)
    have hperm : good.Perm (s.sessions.cleanupExpired t) := by
      refine hk.perm_of_get hkept ?_
      rw [hget, Sessions.get_cleanupExpired hs.keyed, hs.live t ht]
    obtain ⟨order, ho, rfl⟩ := Sessions.exists_order hs.length (hev.perm hperm)
    exact ⟨_, .create ht hf ho⟩
  | validate sid answer =>
    rw [show answer = _ from ha, ← hs.validate_snd ht]
    exact ⟨_, .validate ht⟩
  | csrf sid token answer =>
    rw [show answer = _ from ha, ← hs.csrf_eq ht]
    exact ⟨_, .csrf ht⟩
  | cleanup => exact ⟨_, .cleanup ht⟩

theorem sim_empty : Sim {} fun _ => none where
  keyed := List.nodup_nil
  length := Nat.zero_le _
  live := fun _ _ => rfl

/-- A run of the code plays its history. -/
theorem plays_run (h : system.Reachable s) : ∃ f, Plays s.history f ∧ Sim s f := by
  refine h.invariant (P := fun s => ∃ f, Plays s.history f ∧ Sim s f) ?_ ?_
  · rintro s rfl
    exact ⟨_, .nil, sim_empty⟩
  · rintro s ⟨t, call⟩ s' ⟨f, hp, hs⟩ hstep
    obtain ⟨hh, ht, ha, hs'⟩ := hs.step hstep
    exact ⟨_, hh ▸ hp.snoc ht ha, hs'⟩

/-- Every history that can be played is one of the code. -/
theorem Plays.reachable (hp : Plays h f) :
    ∃ s, system.Reachable s ∧ s.history = h ∧ Sim s f := by
  induction hp with
  | nil => exact ⟨{}, .init rfl, rfl, sim_empty⟩
  | snoc hp ht ha ih =>
    obtain ⟨s, hr, rfl, hs⟩ := ih
    obtain ⟨s', hstep⟩ := hs.exists_step ht ha
    obtain ⟨hh, -, -, hs'⟩ := hs.step hstep
    exact ⟨s', hr.step hstep, hh, hs'⟩

/-- Calls of `cleanup_expired` are left out. -/
def answered (h : History) : History := h.filter fun e => e.2 ≠ .cleanup

theorem fresh_answered : Fresh (answered h) sid ↔ Fresh h sid := by
  refine forall_congr' fun t => forall_congr' fun token => forall_congr' fun evicted => ?_
  rw [answered, List.mem_filter]
  simp

theorem allows_congr (hc : answered h = answered h') :
    Allows f h t call ↔ Allows f h' t call := by
  cases call with
  | create sid token evicted => rw [Allows, Allows, ← fresh_answered, hc, fresh_answered]
  | validate sid answer => exact Iff.rfl
  | csrf sid token answer => exact Iff.rfl
  | cleanup => exact Iff.rfl

theorem answered_answered : answered (answered h) = answered h := by
  simp [answered]

theorem answered_cleanup : answered (h ++ [(t, .cleanup)]) = answered h := by
  simp [answered]

theorem answered_snoc (hc : call ≠ .cleanup) :
    answered (h ++ [(t, call)]) = answered h ++ [(t, call)] := by
  simp [answered, hc]

theorem Plays.answered (hp : Plays h f) : Plays (answered h) f := by
  induction hp with
  | nil => exact .nil
  | @snoc h f t call hp ht ha ih =>
    by_cases hc : call = .cleanup
    · subst hc
      rw [answered_cleanup]
      exact ih
    · rw [answered_snoc hc]
      refine ih.snoc (fun e hmem => ht e (List.mem_filter.mp hmem).1) ?_
      exact (allows_congr answered_answered).mpr ha

theorem Plays.last (hp : Plays h' f) (he : h' = h ++ [(t, call)]) :
    ∃ g, f = after g t call ∧ Plays h g ∧ Allows g h t call := by
  cases hp with
  | nil => simp at he
  | snoc hp ht ha =>
    obtain ⟨rfl, hlast⟩ := List.append_inj' he rfl
    cases hlast
    exact ⟨_, rfl, hp, ha⟩

/-- Calls of `cleanup_expired` may come at any time. -/
theorem plays_of_answered (h : History) : ∀ {f : Lives}, h.Pairwise (fun e e' => e.1 ≤ e'.1) →
    Plays (answered h) f → Plays h f := by
  induction h using List.reverseRecOn with
  | nil => exact fun _ hp => hp
  | append_singleton h e ih =>
    obtain ⟨t, call⟩ := e
    intro f hsorted hp
    obtain ⟨hbefore, -, hlast⟩ := List.pairwise_append.mp hsorted
    have ht : ∀ e ∈ h, e.1 ≤ t := fun e he => hlast e he (t, call) (List.mem_singleton_self _)
    by_cases hc : call = .cleanup
    · subst hc
      rw [answered_cleanup] at hp
      exact (ih hbefore hp).snoc ht trivial
    · rw [answered_snoc hc] at hp
      obtain ⟨g, rfl, hp, ha⟩ := hp.last rfl
      exact (ih hbefore hp).snoc ht ((allows_congr answered_answered).mp ha)

theorem successes_snoc_of_ne (hc : call ≠ .validate sid true) :
    successes (h ++ [(t, call)]) sid = successes h sid := by
  rw [successes, List.filterMap_append]
  cases call with
  | validate sid' answer =>
    cases answer with
    | true =>
      have hne : sid' ≠ sid := fun hs => hc (hs ▸ rfl)
      simp [successes, hne]
    | false => simp [successes]
  | create | csrf | cleanup => simp [successes]

theorem successes_snoc :
    successes (h ++ [(t, .validate sid true)]) sid = successes h sid ++ [t] := by
  simp [successes]

theorem isChain_snoc {l : List Nat} {last : Nat} (hl : l.getLast? = some last) :
    (l ++ [t]).IsChain Gap ↔ l.IsChain Gap ∧ Gap last t := by
  rw [List.isChain_append, hl]
  simp

theorem evicted_snoc : Evicted (h ++ [(t, call)]) sid ↔ Evicted h sid ∨
    ∃ sid' token evicted, call = .create sid' token evicted ∧ sid ∈ evicted := by
  constructor
  · rintro ⟨t', sid', token, evicted, hmem, hs⟩
    rcases mem_log.mp hmem with hmem | he
    · exact .inl ⟨t', sid', token, evicted, hmem, hs⟩
    · cases he
      exact .inr ⟨sid', token, evicted, rfl, hs⟩
  · rintro (⟨t', sid', token, evicted, hmem, hs⟩ | ⟨sid', token, evicted, rfl, hs⟩)
    · exact ⟨t', sid', token, evicted, mem_log.mpr (.inl hmem), hs⟩
    · exact ⟨t, sid', token, evicted, mem_log.mpr (.inr rfl), hs⟩

/-- What the history says about each session. -/
structure Told (h : History) (f : Lives) : Prop where
  born : ∀ {sid a}, f sid = some a → ∃ evicted, (a.createdAt, .create sid a.csrfToken evicted) ∈ h
  alive : ∀ {sid c token evicted}, (c, .create sid token evicted) ∈ h → ¬ Evicted h sid →
    ∃ last, f sid = some ⟨token, c, last⟩ ∧ (c :: successes h sid).getLast? = some last ∧
      (c :: successes h sid).IsChain Gap
  gone : ∀ {sid}, Evicted h sid → f sid = none
  unborn : ∀ {sid}, Fresh h sid → ¬ Evicted h sid ∧ f sid = none ∧ successes h sid = []

section Creation

variable (hc : ∀ sid token evicted, call ≠ .create sid token evicted)
include hc

theorem mem_create_snoc {c : Nat} {evicted : List String} :
    (c, Call.create sid token evicted) ∈ h ++ [(t, call)] ↔ (c, .create sid token evicted) ∈ h := by
  rw [mem_log, or_iff_left]
  exact fun he => hc sid token evicted (congrArg Prod.snd he).symm

theorem fresh_snoc : Fresh (h ++ [(t, call)]) sid ↔ Fresh h sid := by
  refine forall_congr' fun c => forall_congr' fun token => forall_congr' fun evicted => ?_
  exact not_congr (mem_create_snoc hc)

theorem evicted_snoc_of_ne : Evicted (h ++ [(t, call)]) sid ↔ Evicted h sid := by
  rw [evicted_snoc, or_iff_left]
  rintro ⟨sid', token, evicted, he, -⟩
  exact hc sid' token evicted he

end Creation

namespace Told

variable (hold : Told h f)
include hold

/-- Calls that neither create a session nor validate one. -/
theorem quiet (hc : ∀ sid token evicted, call ≠ .create sid token evicted)
    (hv : ∀ sid, call ≠ .validate sid true) : Told (h ++ [(t, call)]) f where
  born := by
    intro sid a ha
    obtain ⟨evicted, hm⟩ := hold.born ha
    exact ⟨evicted, (mem_create_snoc hc).mpr hm⟩
  alive := by
    intro sid c token evicted hm hn
    rw [successes_snoc_of_ne (hv _)]
    exact hold.alive ((mem_create_snoc hc).mp hm) fun hg => hn ((evicted_snoc_of_ne hc).mpr hg)
  gone := fun hg => hold.gone ((evicted_snoc_of_ne hc).mp hg)
  unborn := by
    intro sid hf
    rw [evicted_snoc_of_ne hc, successes_snoc_of_ne (hv _)]
    exact hold.unborn ((fresh_snoc hc).mp hf)

theorem validate (ha : f.live t sid = some a) :
    Told (h ++ [(t, .validate sid true)]) (after f t (.validate sid true)) := by
  obtain ⟨hf, hx⟩ := Lives.live_eq_some.mp ha
  have hc : ∀ sid' token evicted, Call.validate sid true ≠ .create sid' token evicted := nofun
  have hsame : ∀ {sid'}, sid' ≠ sid → after f t (.validate sid true) sid' = f sid' :=
    fun hne => Function.update_of_ne hne _ _
  have hself : after f t (.validate sid true) sid = some { a with lastAccess := t } := by
    rw [after, hf, Option.map_some, Function.update_self]
  have hother : ∀ {sid'}, sid' ≠ sid → Call.validate sid true ≠ .validate sid' true :=
    fun hne he => hne (Call.validate.inj he).1.symm
  constructor
  case born =>
    intro sid' b hb
    by_cases hs : sid' = sid
    · subst hs
      rw [hself] at hb
      cases hb
      obtain ⟨evicted, hm⟩ := hold.born hf
      exact ⟨evicted, (mem_create_snoc hc).mpr hm⟩
    · rw [hsame hs] at hb
      obtain ⟨evicted, hm⟩ := hold.born hb
      exact ⟨evicted, (mem_create_snoc hc).mpr hm⟩
  case alive =>
    intro sid' c token evicted hm hn
    rw [mem_create_snoc hc] at hm
    rw [evicted_snoc_of_ne hc] at hn
    obtain ⟨last, hlast, hget, hchain⟩ := hold.alive hm hn
    by_cases hs : sid' = sid
    · -- The idle clock has just been wound up.
      subst hs
      rw [hf, Option.some_inj] at hlast
      subst hlast
      rw [successes_snoc, ← List.cons_append, isChain_snoc hget]
      exact ⟨t, hself, List.getLast?_concat, hchain, (expired_eq_false.mp hx).1⟩
    · rw [hsame hs, successes_snoc_of_ne (hother hs)]
      exact ⟨last, hlast, hget, hchain⟩
  case gone =>
    intro sid' hg
    have hnone := hold.gone ((evicted_snoc_of_ne hc).mp hg)
    have hs : sid' ≠ sid := by
      rintro rfl
      rw [hf] at hnone
      cases hnone
    rw [hsame hs]
    exact hnone
  case unborn =>
    intro sid' hfr
    obtain ⟨hn, hnone, hnever⟩ := hold.unborn ((fresh_snoc hc).mp hfr)
    have hs : sid' ≠ sid := by
      rintro rfl
      rw [hf] at hnone
      cases hnone
    rw [evicted_snoc_of_ne hc, hsame hs, successes_snoc_of_ne (hother hs)]
    exact ⟨hn, hnone, hnever⟩

theorem create {evicted : List String} (hf : Fresh h sid) (hlive : ∀ sid' ∈ evicted, f sid' ≠ none) :
    Told (h ++ [(t, .create sid token evicted)]) (after f t (.create sid token evicted)) := by
  obtain ⟨hkept, hnone, hnever⟩ := hold.unborn hf
  have hsid : sid ∉ evicted := fun hs => hlive sid hs hnone
  have hsame : ∀ {sid'}, sid' ≠ sid →
      after f t (.create sid token evicted) sid' = f.drop evicted sid' :=
    fun hne => Function.update_of_ne hne _ _
  have hself : after f t (.create sid token evicted) sid = some ⟨token, t, t⟩ :=
    Function.update_self _ _ _
  have hv : ∀ sid', Call.create sid token evicted ≠ .validate sid' true := nofun
  have hev : ∀ {sid'}, Evicted (h ++ [(t, .create sid token evicted)]) sid' ↔
      Evicted h sid' ∨ sid' ∈ evicted := by
    intro sid'
    rw [evicted_snoc]
    refine or_congr_right ⟨?_, fun hs => ⟨_, _, _, rfl, hs⟩⟩
    rintro ⟨_, _, _, he, hs⟩
    cases he
    exact hs
  constructor
  case born =>
    intro sid' b hb
    by_cases hs : sid' = sid
    · subst hs
      rw [hself] at hb
      cases hb
      exact ⟨evicted, mem_log.mpr (.inr rfl)⟩
    · rw [hsame hs, Lives.drop] at hb
      split at hb
      · cases hb
      · obtain ⟨evicted', hm⟩ := hold.born hb
        exact ⟨evicted', mem_log.mpr (.inl hm)⟩
  case alive =>
    intro sid' c token' evicted' hm hn
    rw [hev, not_or] at hn
    rw [successes_snoc_of_ne (hv _)]
    rcases mem_log.mp hm with hbefore | he
    · have hs : sid' ≠ sid := by
        rintro rfl
        exact hf _ _ _ hbefore
      rw [hsame hs, Lives.drop, if_neg hn.2]
      exact hold.alive hbefore hn.1
    · cases he
      rw [hnever]
      exact ⟨t, hself, rfl, List.isChain_singleton _⟩
  case gone =>
    intro sid' hg
    have hs : sid' ≠ sid := by
      rintro rfl
      exact (hev.mp hg).elim hkept hsid
    rw [hsame hs, Lives.drop]
    split
    · rfl
    · exact hold.gone ((hev.mp hg).resolve_right ‹_›)
  case unborn =>
    intro sid' hfr
    have hs : sid' ≠ sid := by
      rintro rfl
      exact hfr _ _ _ (mem_log.mpr (.inr rfl))
    have hbefore : Fresh h sid' := fun c token' evicted' hm =>
      hfr c token' evicted' (mem_log.mpr (.inl hm))
    obtain ⟨hn, hnone', hnever'⟩ := hold.unborn hbefore
    have hout : sid' ∉ evicted := fun hmem => hlive sid' hmem hnone'
    rw [hev, successes_snoc_of_ne (hv _), hsame hs, Lives.drop, if_neg hout]
    exact ⟨not_or.mpr ⟨hn, hout⟩, hnone', hnever'⟩

end Told

theorem evicts_live {good : Sessions} {evicted : List String} (hk : good.Keyed)
    (hg : good.get = f.live t) (he : good.Evicts evicted) (hs : sid ∈ evicted) : f sid ≠ none := by
  obtain ⟨-, a, ha, -⟩ := he.least hk hs
  rw [hg, Lives.live_eq_some] at ha
  rw [ha.1]
  exact Option.some_ne_none a

theorem Plays.told (hp : Plays h f) : Told h f := by
  induction hp with
  | nil =>
    refine ⟨nofun, fun hm => absurd hm List.not_mem_nil, fun _ => rfl, fun _ => ⟨?_, rfl, rfl⟩⟩
    rintro ⟨_, _, _, _, hm, -⟩
    exact List.not_mem_nil hm
  | @snoc h f t call hp ht ha ih =>
    cases call with
    | create sid token evicted =>
      obtain ⟨hf, good, hk, hg, he⟩ := ha
      exact ih.create hf fun sid' hs => evicts_live hk hg he hs
    | validate sid answer =>
      cases answer with
      | true =>
        obtain ⟨a, ha⟩ := Option.isSome_iff_exists.mp (Eq.symm ha)
        exact ih.validate ha
      | false => exact ih.quiet nofun nofun
    | csrf => exact ih.quiet nofun nofun
    | cleanup => exact ih.quiet nofun nofun

/-- A session is good when the history says so. -/
theorem Told.good_iff (hold : Told h f) :
    (∃ a, f.live t sid = some a ∧ a.csrfToken = token) ↔ Good h sid token t := by
  constructor
  · rintro ⟨a, ha, rfl⟩
    obtain ⟨hf, hx⟩ := Lives.live_eq_some.mp ha
    obtain ⟨evicted, hm⟩ := hold.born hf
    have hn : ¬ Evicted h sid := by
      intro hg
      rw [hold.gone hg] at hf
      cases hf
    obtain ⟨last, hlast, hget, hchain⟩ := hold.alive hm hn
    rw [hf, Option.some_inj] at hlast
    rw [expired_eq_false] at hx
    refine ⟨a.createdAt, evicted, hm, hn, hx.2, (isChain_snoc hget).mpr ⟨hchain, ?_⟩⟩
    rw [hlast] at hx
    exact hx.1
  · rintro ⟨c, evicted, hm, hn, habs, hchain⟩
    obtain ⟨last, hlast, hget, -⟩ := hold.alive hm hn
    have hgap := ((isChain_snoc hget).mp hchain).2
    exact ⟨_, Lives.live_eq_some.mpr ⟨hlast, expired_eq_false.mpr ⟨hgap, habs⟩⟩, rfl⟩

/-- A creation that is logged with its evictions takes away these and no others that are good. -/
theorem mem_evicted_iff {order : Sessions} (hs : Sim s f) (hold : Told s.history f)
    (ht : ∀ e ∈ s.history, e.1 ≤ t) (hf : Fresh s.history sid) (ho : order.Perm s.sessions) :
    sid' ∈ order.evicted t ↔ ∃ a, s.sessions.get sid' = some a ∧ adminSessionExpired t a = false ∧
      (order.createAdminSession t sid token).get sid' = none := by
  have hk := hs.keyed.perm ho
  have hl : order.length ≤ maxAdminSessions := ho.length_eq ▸ hs.length
  obtain ⟨hkeyed, -, hlive, hgone⟩ := Sessions.makeRoom_spec (t := t) hk hl
  rw [Sessions.createAdminSession, Sessions.get_insert hkeyed]
  rw [Sessions.get_perm hs.keyed ho] at hlive
  constructor
  · intro hmem
    obtain ⟨-, a, ha, -⟩ := (Sessions.evicts_evicted hl).least hk.cleanupExpired hmem
    rw [Sessions.get_cleanupExpired hk, Sessions.get_perm hs.keyed ho] at ha
    have hne : sid' ≠ sid := by
      rintro rfl
      rw [hs.live t ht, Lives.live_eq_some, (hold.unborn hf).2.1] at ha
      cases ha.1
    obtain ⟨hget, hx⟩ := Lives.live_eq_some.mp ha
    exact ⟨a, hget, hx, by rw [Function.update_of_ne hne, hgone sid' hmem]⟩
  · rintro ⟨a, hget, hx, hnone⟩
    by_contra hmem
    by_cases hne : sid' = sid
    · rw [hne, Function.update_self] at hnone
      cases hnone
    · have hkept : Lives.live (order.makeRoom t).get t sid' = some a := by
        rw [hlive, Lives.drop, if_neg hmem]
        exact Lives.live_eq_some.mpr ⟨hget, hx⟩
      rw [Function.update_of_ne hne, (Lives.live_eq_some.mp hkept).1] at hnone
      cases hnone

/-- How long a session is good: a validation succeeds as long as neither clock has run out and
nobody needed its place, and so does a check of its own token, which leaves the map as it is. When
`cleanup_expired` is called makes no difference. A creation keeps the map within its limit, and a
good session goes only when all places are taken by good ones and none was used before it. -/
theorem session_lifetimes (hr : system.Reachable s) :
    (∀ t sid, (∀ e ∈ s.history, e.1 ≤ t) →
      ((s.sessions.validateAdminSession t sid).2 = true ↔ ∃ token, Good s.history sid token t)) ∧
    (∀ t sid token, (∀ e ∈ s.history, e.1 ≤ t) →
      (s.sessions.validateAdminCsrf t sid token = true ↔ Good s.history sid token t)) ∧
    (∀ t sid token answer s', system.Tr s (t, .csrf sid token answer) s' →
      s'.sessions = s.sessions) ∧
    (∀ h : History, answered h = answered s.history → h.Pairwise (fun e e' => e.1 ≤ e'.1) →
      ∃ s', system.Reachable s' ∧ s'.history = h) ∧
    ∀ t sid token evicted s', system.Tr s (t, .create sid token evicted) s' →
      s'.sessions.length ≤ maxAdminSessions ∧
      ∀ sid', (sid' ∈ evicted ↔ ∃ a, s.sessions.get sid' = some a ∧
          adminSessionExpired t a = false ∧ s'.sessions.get sid' = none) ∧
        (sid' ∈ evicted → (s.sessions.cleanupExpired t).length = maxAdminSessions ∧
          ∃ a, s.sessions.get sid' = some a ∧ ∀ sid b, s.sessions.get sid = some b →
            adminSessionExpired t b = false → a.lastAccess ≤ b.lastAccess) := by
  obtain ⟨f, hp, hs⟩ := plays_run hr
  have hold := hp.told
  refine ⟨fun t sid ht => ?_, fun t sid token ht => ?_, fun t sid token answer s' hstep => ?_,
    fun h hc hsorted => ?_, fun t sid token evicted s' hstep => ?_⟩
  · rw [hs.validate_snd ht, Option.isSome_iff_exists]
    constructor
    · rintro ⟨a, ha⟩
      exact ⟨a.csrfToken, hold.good_iff.mp ⟨a, ha, rfl⟩⟩
    · rintro ⟨token, hg⟩
      obtain ⟨a, ha, -⟩ := hold.good_iff.mpr hg
      exact ⟨a, ha⟩
  · rw [hs.csrf_eq ht, ← hold.good_iff, Option.any_eq_true]
    simp only [beq_iff_eq]
  · cases hstep
    rfl
  · obtain ⟨s', hr', hh, -⟩ := (plays_of_answered h hsorted (hc ▸ hp.answered)).reachable
    exact ⟨s', hr', hh⟩
  · cases hstep with
    | create ht hf ho =>
      refine ⟨(hs.create ht ho).length, fun sid' => ⟨mem_evicted_iff hs hold ht hf ho, ?_⟩⟩
      intro hmem
      have hk := hs.keyed.perm ho
      obtain ⟨hfull, a, ha, hleast⟩ := (Sessions.evicts_evicted
        (ho.length_eq ▸ hs.length)).least hk.cleanupExpired hmem
      rw [Sessions.get_cleanupExpired hk, Sessions.get_perm hs.keyed ho] at ha hleast
      refine ⟨?_, a, (Lives.live_eq_some.mp ha).1, fun sid b hb hx => ?_⟩
      · rw [← hfull]
        exact (ho.symm.filter _).length_eq
      · exact hleast sid b (Lives.live_eq_some.mpr ⟨hb, hx⟩)

/-- A session that was used after 200 s is good for 300 s more, and no longer than that. -/
theorem session_lifetimes_used : ∃ s : AuthService, system.Reachable s ∧
    s.history = [(0, .create "sid" "token" []), (200 * 10 ^ 9, .validate "sid" true)] ∧
    Good s.history "sid" "token" (500 * 10 ^ 9) ∧ ¬ Good s.history "sid" "token" (501 * 10 ^ 9) := by
  have h₁ := LTS.Reachable.init (L := system) rfl
  have h₂ := h₁.step (@Step.create {} 0 "sid" "token" [] nofun nofun (.refl _))
  have h₃ := h₂.step (@Step.validate _ (200 * 10 ^ 9) "sid" (by
    intro e he
    rcases List.mem_singleton.mp he with rfl
    exact Nat.zero_le _))
  obtain ⟨-, hcsrf, -⟩ := session_lifetimes h₃
  have hpast : ∀ t, 200 * 10 ^ 9 ≤ t → ∀ e ∈ [((0 : Nat), Call.create "sid" "token" []),
      (200 * 10 ^ 9, .validate "sid" true)], e.1 ≤ t := by
    intro t ht e he
    rcases List.mem_pair.mp he with rfl | rfl
    · exact Nat.zero_le t
    · exact ht
  refine ⟨_, h₃, rfl, ?_, fun hgood => ?_⟩
  · exact (hcsrf _ _ _ (hpast _ (by decide))).mp (by decide)
  · exact absurd ((hcsrf _ _ _ (hpast _ (by decide))).mpr hgood) (by decide)

end AuthService

end X2rp.Admin
