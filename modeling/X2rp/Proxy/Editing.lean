import X2rp.Admin.RouteTable
import X2rp.Proxy.Gateway

/-! What the edge finds in the route table while `update_resource` saves a resource anew. -/
namespace X2rp.Proxy

open Proto Admin Admin.Server

variable {E : Env} {s t s₀ : Server} {e : Event} {old new : Resource} {job : Job} {c : Commit}
  {host domain subdomain : String} {routes routes₀ : Routes}

/-- What `request_filter` finds for a host. -/
def lookup (s : Server) (host : String) : Option ProxyResource :=
  (select (normalizeDomain s.state.domain) s.routes host).map Prod.snd

theorem lookup_eq (h : host ≠ "x2rp." ++ normalizeDomain s.state.domain) :
    lookup s host = s.routes host := by
  rw [lookup, select, if_neg (mt isAdminHost_iff.mp h), Option.map_map]
  exact Option.map_id'

theorem lookup_congr (hd : t.state.domain = s.state.domain) (hr : t.routes host = s.routes host) :
    lookup t host = lookup s host := by
  simp only [lookup, select, hd, hr]

theorem fqdn_of_ok (hok : SubdomainOk subdomain) (hd : isAscii domain) :
    E.fqdn domain subdomain = subdomain ++ "." ++ normalizeDomain domain := by
  have hsub : isAscii subdomain := isAscii_of_validLabel hok.label
  have hdot : isAscii "." := by simp [isAscii]
  have hnorm : isAscii (normalizeDomain domain) := isAscii_toAsciiLowercase (isAscii_trim hd)
  rw [Lowering.fqdn, E.ascii _ (isAscii_append (isAscii_append hsub hdot) hnorm),
    toAsciiLowercase_append, toAsciiLowercase_append, hok.lower, normalizeDomain,
    toAsciiLowercase_toAsciiLowercase]
  rfl

theorem fqdn_ne_admin (hok : SubdomainOk subdomain) (hd : isAscii domain) :
    E.fqdn domain subdomain ≠ "x2rp." ++ normalizeDomain domain := by
  rw [fqdn_of_ok hok hd]
  intro h
  have hcut : subdomain ++ "." = "x2rp" ++ "." := (String.append_left_inj _).mp h
  exact hok.not_admin ((String.append_left_inj _).mp hcut)

/-- How far the handler has come with its save, and what the table is by then. -/
inductive Phase (E : Env) (domain : String) (old new : Resource) (routes : Routes) :
    Option Undo → List Effect → Routes → Prop
  | saving {u : Undo} :
      Phase E domain old new routes (some u) [.removeResource old.subdomain, .publish new] routes
  | saved : Phase E domain old new routes none [.removeResource old.subdomain, .publish new] routes
  | removed : Phase E domain old new routes none [.publish new]
      (routes.removeResource E domain old.subdomain)
  | published : Phase E domain old new routes none []
      ((routes.removeResource E domain old.subdomain).publish E domain new)

namespace Phase

variable {undo : Option Undo} {u : Undo} {effects : List Effect}

theorem save (h : Phase E domain old new routes₀ (some u) effects routes) :
    Phase E domain old new routes₀ none effects routes := by
  cases h
  exact .saved

theorem apply {x : Effect} (hd : s.state.domain = domain)
    (h : Phase E domain old new routes₀ none (x :: effects) s.routes) :
    Phase E domain old new routes₀ none effects (Server.apply E s x).routes := by
  subst hd
  generalize hr : s.routes = routes at h
  cases h with
  | saved =>
    subst hr
    exact .removed
  | removed =>
    simp only [Server.apply, hr]
    exact .published

theorem other (h : Phase E domain old new routes₀ undo effects routes)
    (hsub : new.subdomain = old.subdomain) (hne : host ≠ E.fqdn domain old.subdomain) :
    routes host = routes₀ host := by
  have hremoved : routes₀.removeResource E domain old.subdomain host = routes₀ host :=
    Function.update_of_ne hne _ _
  cases h with
  | saving => rfl
  | saved => rfl
  | removed => exact hremoved
  | published =>
    have hne : host ≠ E.fqdn domain new.subdomain := hsub ▸ hne
    rw [← hremoved, Routes.publish]
    split
    · exact Function.update_of_ne hne _ _
    · exact Function.update_of_ne hne _ _

/-- The one phase in which the host leads nowhere. -/
theorem found (h : Phase E domain old new routes₀ undo effects routes)
    (hold : routes₀ (E.fqdn domain old.subdomain) = some (.fromResource E old))
    (hnew : new.enabled = true) (hsub : new.subdomain = old.subdomain) :
    routes (E.fqdn domain old.subdomain) = some (.fromResource E old) ∨
      routes (E.fqdn domain old.subdomain) = some (.fromResource E new) ↔
        ¬ (undo = none ∧ effects = [.publish new]) := by
  cases h with
  | saving => exact iff_of_true (.inl hold) (by simp)
  | saved => exact iff_of_true (.inl hold) (by simp)
  | removed =>
    refine iff_of_false ?_ fun h => h ⟨rfl, rfl⟩
    simp [Routes.removeResource]
  | published => exact iff_of_true (.inr (hsub ▸ Routes.publish_apply new hnew)) (by simp)

end Phase

/-- The handler holds the lock that it took in the state `s₀`. -/
structure AtWork (E : Env) (s₀ : Server) (job : Job) (old new : Resource) (s : Server) : Prop where
  domain : s.state.domain = s₀.state.domain
  phase : ∃ c, s.holder = some c ∧ c.job = job ∧
    Phase E s₀.state.domain old new s₀.routes c.undo c.effects s.routes

/-- The handler has answered, or the server is gone. -/
def Answered (job : Job) (e : Event) : Prop :=
  e = .done job ∨ (∃ status, e = .failed job status) ∨ e = .restart

theorem atWork_begin {s₁ : Server} {id : String} {req : UpdateResourceRequest} {current : Resource}
    {answer : Option (List SocketAddr)} (hids : s₀.state.DistinctIds) (hold : old ∈ s₀.state.resources)
    (hid : old.id = id) (h : Step E s₀ (.begin (.updateResource id req current answer)) s₁) :
    AtWork E s₀ (.updateResource id req current answer) old (req.merge current) s₁ := by
  cases h with
  | begin hl hw hfresh hcid hb =>
    have hb := AppState.begun_of_begin hb
    refine ⟨hb.domain_eq, _, rfl, ?_⟩
    cases hb with
    | updateResource hr hn hc hi hid' =>
      subst hr
      obtain rfl := List.inj_on_of_nodup_map hids (List.mem_of_getElem? hi) hold (hid'.trans hid.symm)
      exact ⟨rfl, .saving⟩

/-- Nobody else gets at the table before the handler has answered. -/
theorem atWork_step (hj : ∀ id, job ≠ .regenerateConnectorToken id) (h : AtWork E s₀ job old new s)
    (hs : Step E s e t) (he : ¬ Answered job e) : AtWork E s₀ job old new t := by
  obtain ⟨c, hc, hjob, hp⟩ := h.phase
  cases hs with
  | request hl => simp [hl] at hc
  | reject hl => simp [hl] at hc
  | begin hl => simp [hl] at hc
  | refuse hl => simp [hl] at hc
  | connectorDisconnect hl => simp [hl] at hc
  | authenticate hl => simp [hl] at hc
  | setLastSeen hk hl => simp [hl] at hc
  | boot hb hl => simp [hl] at hc
  | saved hl hu =>
    cases hl.symm.trans hc
    rw [hu] at hp
    exact ⟨h.domain, _, rfl, hjob, hp.save⟩
  | saveIgnored hl hu =>
    cases hl.symm.trans hc
    rw [hu] at hp
    exact ⟨h.domain, _, rfl, hjob, hp.save⟩
  | saveFailed hl hu | saveUnsynced hl hu =>
    cases hl.symm.trans hc
    exact absurd (.inr (.inl ⟨_, by rw [hjob]⟩)) he
  | @effect c x rest hl hu heff =>
    cases hl.symm.trans hc
    rw [hu, heff] at hp
    refine ⟨(congrArg AppState.domain (apply_state s x)).trans h.domain, _, rfl, hjob, ?_⟩
    have hp := hp.apply h.domain
    rwa [← hu] at hp
  | finish hl =>
    cases hl.symm.trans hc
    exact absurd (.inl (by rw [hjob])) he
  | unlock hl hu hk =>
    cases hl.symm.trans hc
    exact absurd (hjob.symm.trans hk) (hj _)
  | restart => exact absurd (.inr (.inr rfl)) he
  | abandon => exact ⟨h.domain, h.phase⟩
  | regenerated => exact ⟨h.domain, h.phase⟩
  | disconnect => exact ⟨h.domain, h.phase⟩
  | register => exact ⟨h.domain, h.phase⟩
  | giveUp => exact ⟨h.domain, h.phase⟩
  | leave => exact ⟨h.domain, h.phase⟩

/-- The run of a server up to the answer of one handler. -/
def upToAnswer (E : Env) (job : Job) : LTS Server Event :=
  (system E Starting).restrict fun _ e _ => ¬ Answered job e

theorem atWork_run {es : List Event} (hj : ∀ id, job ≠ .regenerateConnectorToken id)
    (h : AtWork E s₀ job old new s) (hrun : (upToAnswer E job).MTr s es t) :
    AtWork E s₀ job old new t := by
  induction hrun with
  | refl => exact h
  | stepL hs _ ih => exact ih (atWork_step hj h hs.1 hs.2)

/-- The handler has dropped the old route and has yet to publish the new one. -/
def Between (new : Resource) (s : Server) : Prop :=
  ∃ c, s.holder = some c ∧ c.undo = none ∧ c.effects = [.publish new]

/-- While a resource is saved anew, its host leads to what it was or to what it will be, except
between the two writes of the table; all other hosts lead to where they did. -/
theorem edit_in_place (E : Env) {s₀ s₁ s : Server} (h : (system E Starting).Reachable s₀)
    (hb : s₀.booted = true) {id : String} {req : UpdateResourceRequest} {current old : Resource}
    {answer : Option (List SocketAddr)} (hold : old ∈ s₀.state.resources) (hid : old.id = id)
    (he : old.enabled = true) (he' : (req.merge current).enabled = true)
    (hsub : (req.merge current).subdomain = old.subdomain)
    (hbegin : Step E s₀ (.begin (.updateResource id req current answer)) s₁) {es : List Event}
    (hrun : (upToAnswer E (.updateResource id req current answer)).MTr s₁ es s) :
    (lookup s (E.fqdn s₀.state.domain old.subdomain) = some (.fromResource E old) ∨
      lookup s (E.fqdn s₀.state.domain old.subdomain) = some (.fromResource E (req.merge current)) ↔
        ¬ Between (req.merge current) s) ∧
    ∀ host ≠ E.fqdn s₀.state.domain old.subdomain, lookup s host = lookup s₀ host := by
  have hl : s₀.holder = none := by
    cases hbegin
    assumption
  have hnamed := (named h).state
  have hroute : s₀.routes (E.fqdn s₀.state.domain old.subdomain) = some (.fromResource E old) :=
    (((routed h).idle hl).eq_some_iff hb).mpr ⟨old, hold, he, rfl, rfl⟩
  have hwork := atWork_run (by simp) (atWork_begin hnamed.ids hold hid hbegin) hrun
  obtain ⟨c, hc, -, hp⟩ := hwork.phase
  constructor
  · have hadmin : E.fqdn s₀.state.domain old.subdomain ≠ "x2rp." ++ normalizeDomain s.state.domain := by
      rw [hwork.domain]
      exact fqdn_ne_admin (hnamed.labels old hold) (routed h).ascii.1
    rw [lookup_eq hadmin, hp.found hroute he' hsub]
    simp [Between, hc]
  · intro host hne
    exact lookup_congr hwork.domain (hp.other hsub hne)

section Runs

/-- A server with one resource, up and running, and a handler at the lock. -/
def atLock (E : Env) (job : Job) : Server :=
  { holding [sampleResource] with
    routes := loadRoutes E (holding [sampleResource]).state fun _ => none
    booted := true
    waiting := [job] }

theorem reachable_atLock {req : Admin.Request}
    (hp : req.prepare E (holding [sampleResource]).state loopback = .ok job) :
    (system E Starting).Reachable (atLock E job) := by
  have h0 : (system E Starting).Reachable _ := .init starting_holding
  have h1 := h0.step (.boot rfl rfl)
  exact h1.step <| @Step.request E _ req job loopback rfl hp

/-- Other crates that know a second origin on this host. -/
def movedEnv : Env :=
  { sampleEnv with
    parseUri := fun target =>
      if target = "http://127.0.0.1:9090" then
        some ⟨some "http", some "127.0.0.1", some 9090, some ("/", none)⟩
      else sampleEnv.parseUri target }

def moved : Resource := { sampleResource with target := "http://127.0.0.1:9090" }

/-- An edit that moves the resource to the other origin. -/
def move : Job :=
  .updateResource "r1" { target := some "http://127.0.0.1:9090" } sampleResource loopback

/-- The handler with the lock, on its way to the save. -/
def moving : Server :=
  (atLock movedEnv move).commit [] move ⟨"r2", ""⟩
    { (atLock movedEnv move).state with resources := [moved] }
    ⟨move, some (.replaceResource 0 sampleResource), [.removeResource "app", .publish moved]⟩

/-- The edit is saved, and the route is dropped and published. By then the host leads to the new
origin. -/
theorem edit_in_place_moved : (system movedEnv Starting).Reachable (atLock movedEnv move) ∧
    Step movedEnv (atLock movedEnv move) (.begin move) moving ∧
    ∃ s, (upToAnswer movedEnv move).MTr moving [.internal, .internal, .internal] s ∧
      ¬ Between moved s ∧
      lookup (atLock movedEnv move) "app.example.com" =
        some (.fromResource movedEnv sampleResource) ∧
      lookup s "app.example.com" = some (.fromResource movedEnv moved) := by
  have hreach : (system movedEnv Starting).Reachable (atLock movedEnv move) :=
    @reachable_atLock movedEnv move (.updateResource "r1" { target := some "http://127.0.0.1:9090" })
      rfl
  have hbegin : Step movedEnv (atLock movedEnv move) (.begin move) moving :=
    @Step.begin _ _ move [] [] ⟨"r2", ""⟩ _ _ rfl rfl (by decide) Finmap.notMem_empty rfl
  obtain ⟨s, hrun, hidle, hne⟩ : ∃ s,
      (upToAnswer movedEnv move).MTr moving [.internal, .internal, .internal] s ∧
      ¬ Between moved s ∧
      lookup s "app.example.com" ≠ some (.fromResource movedEnv sampleResource) := by
    refine ⟨_, .stepL ⟨.saved rfl rfl, by simp [Answered]⟩ <|
      .stepL ⟨.effect rfl rfl rfl, by simp [Answered]⟩ <|
      .stepL ⟨.effect rfl rfl rfl, by simp [Answered]⟩ .refl, ?_, ?_⟩
    · rintro ⟨c, ⟨⟩, -, ⟨⟩⟩
    · decide
  have hfound := (edit_in_place movedEnv hreach rfl (List.mem_singleton_self sampleResource) rfl rfl
    rfl rfl hbegin hrun).1.mpr hidle
  exact ⟨hreach, hbegin, s, hrun, hidle, rfl, hfound.resolve_left hne⟩

/-- A save of the form without a change. -/
def resave : Job := .updateResource "r1" {} sampleResource loopback

/-- A request that comes between the two writes of a save finds no route, with nothing changed. -/
theorem route_vanishes_in_resave :
    (system sampleEnv Starting).Reachable (atLock sampleEnv resave) ∧
    (atLock sampleEnv resave).booted = true ∧
    ∃ s₁ es s, Step sampleEnv (atLock sampleEnv resave) (.begin resave) s₁ ∧
      (upToAnswer sampleEnv resave).MTr s₁ es s ∧
      lookup (atLock sampleEnv resave) "app.example.com" =
        some (.fromResource sampleEnv sampleResource) ∧
      lookup s "app.example.com" = none := by
  have hbegin : Step sampleEnv (atLock sampleEnv resave) (.begin resave)
      ((atLock sampleEnv resave).commit [] resave ⟨"r2", ""⟩ (atLock sampleEnv resave).state
        ⟨resave, some (.replaceResource 0 sampleResource),
          [.removeResource "app", .publish sampleResource]⟩) :=
    @Step.begin _ _ resave [] [] ⟨"r2", ""⟩ _ _ rfl rfl (by decide) Finmap.notMem_empty rfl
  refine ⟨@reachable_atLock sampleEnv resave (.updateResource "r1" {}) rfl, rfl, _, _, _, hbegin,
    .stepL ⟨.saved rfl rfl, ?_⟩ <| .stepL ⟨.effect rfl rfl rfl, ?_⟩ .refl, ?_, ?_⟩
  · simp [Answered]
  · simp [Answered]
  · rfl
  · rfl

end Runs

end X2rp.Proxy
