import X2rp.Admin.Api

/-! One request to the admin API, from its arrival to its end, among any others: what it changes
and on whose authority. -/
namespace X2rp.Admin

open Proto Http

variable {β : Type} {W : Web β} {req : HttpRequest β}

def adminPasswordMinLen : Nat := 12

def adminPasswordMaxLen : Nat := 128

namespace Global

variable (g : Global)

/-- The part of the state that the handlers' effects are about. -/
def server : Server := { state := g.state, file := g.state, routes := g.routes, registry := g.registry }

def apply (E : Env) (x : Effect) : Global :=
  { g with routes := (g.server.apply E x).routes, registry := (g.server.apply E x).registry }

def touch (id : String) : Global := { g with state := (g.server.touch id g.now).state }

/-- `post_setup` under the write lock; a save that fails leaves this as it is. -/
def setup (domain passwordHash : String) (cfApiToken : Option String) (secret : String) : Global :=
  { g with
    state := { g.state with domain }
    adminPasswordHash := some passwordHash
    serverConfig := ⟨cfApiToken.getD "", secret⟩
    initialized := true }

/-- Nothing has changed but the clock, the sessions and when connectors were last seen. -/
structure Same (g g' : Global) : Prop where
  resources : g'.state.resources = g.state.resources
  domain : g'.state.domain = g.state.domain
  connectors : ∀ id, (g'.state.connectors.lookup id).map (fun c => { c with lastSeen := none }) =
    (g.state.connectors.lookup id).map fun c => { c with lastSeen := none }
  initialized : g'.initialized = g.initialized
  adminPasswordHash : g'.adminPasswordHash = g.adminPasswordHash
  serverConfig : g'.serverConfig = g.serverConfig
  routes : g'.routes = g.routes
  registry : g'.registry = g.registry

theorem Same.refl : g.Same g := ⟨rfl, rfl, fun _ => rfl, rfl, rfl, rfl, rfl, rfl⟩

theorem same_verifyAdmin (headers : Headers) : g.Same (verifyAdmin g headers).1 := by
  unfold verifyAdmin
  split
  · split
    · exact .refl g
    · exact ⟨rfl, rfl, fun _ => rfl, rfl, rfl, rfl, rfl, rfl⟩
  · exact .refl g

theorem same_touch (id : String) : g.Same (g.touch id) := by
  unfold touch
  rcases g.server.touch_eq id g.now with he | ⟨connector, hc, he⟩
  · rw [he]
    exact .refl g
  · rw [he]
    refine ⟨rfl, rfl, fun id' => ?_, rfl, rfl, rfl, rfl, rfl⟩
    by_cases hid : id' = id
    · subst hid
      simp only [Finmap.lookup_insert, Option.map_some]
      rw [show g.state.connectors.lookup id' = some connector from hc, Option.map_some]
    · simp only [Finmap.lookup_insert_of_ne _ hid]
      rfl

/-- Only the registry has changed, and only in the entry of one connector. -/
def OnlyEntry (g g' : Global) (id : String) : Prop :=
  g' = { g with registry := g'.registry } ∧ ∀ id', id' ≠ id → g'.registry id' = g.registry id'

end Global

/-- What `post_setup` asks for before it hashes the password: the domain it will store. -/
def SetupRequest.check (initialized : Bool) (req : SetupRequest) : Except StatusCode String :=
  let domain := normalizeDomain req.domain
  let len := req.adminPassword.utf8ByteSize
  if initialized then .error .conflict
  else if !isValidDomain domain then .error .badRequest
  else if !(adminPasswordMinLen ≤ len && len ≤ adminPasswordMaxLen) then .error .badRequest
  else .ok domain

/-- `auth_login` before it verifies the password: the hash to verify it with. -/
def loginHash (g : Global) (password : String) : Except StatusCode String :=
  if !g.initialized then .error .serviceUnavailable
  else
    match g.adminPasswordHash with
    | none => .error .internalServerError
    | some hash =>
      if adminPasswordMaxLen < password.utf8ByteSize then .error .unauthorized else .ok hash

/-- How far a request has come. -/
inductive Stage
  | arrived
  | called (h : Handler)
  /-- `verify_admin` has said yes. -/
  | verified (req : Request)
  /-- It wants the write lock. -/
  | ready (job : Job)
  /-- It has the write lock and has made its change. -/
  | committed (c : Commit)
  /-- It is to unregister a connector without the lock. -/
  | kick (id : String)
  | hashing (domain : String) (req : SetupRequest)
  | hashed (domain passwordHash : String) (cfApiToken : Option String)
  | checking (password hash : String)
  /-- The WebSocket of a connector, and then its session. -/
  | connecting (id : String)
  | connected (id : String) (k : Nat)
  | left (id : String)
  | done

/-- Where a handler waits, and so may be dropped. -/
def Stage.awaits : Stage → Bool
  | .committed _ | .kick _ | .connected _ _ | .left _ | .done => false
  | _ => true

/-- A request with all that it may have seen of the shared state, oldest first. -/
structure Flight where
  shared : Global
  stage : Stage := .arrived
  seen : List Global := [shared]

namespace Flight

/-- The shared state is now `g`. -/
def move (s : Flight) (g : Global) (stage : Stage) : Flight := ⟨g, stage, s.seen ++ [g]⟩

/-- Whose step it is. -/
inductive Event
  | own
  | other
deriving DecidableEq, Repr

/-- The request's own steps, from one await or lock to the next. In between others may do whatever
they like to what is shared. -/
inductive Step (W : Web β) (req : HttpRequest β) : Flight → Event → Flight → Prop
  | other {s : Flight} {g : Global} : Step W req s .other (s.move g s.stage)
  | dispatch {s : Flight} {h : Handler} (hs : s.stage = .arrived)
      (hd : dispatch W s.shared req = .handler h) : Step W req s .own (s.move s.shared (.called h))
  | refused {s : Flight} {status : StatusCode} (hs : s.stage = .arrived)
      (hd : Admin.dispatch W s.shared req = .refused status) :
      Step W req s .own (s.move s.shared .done)
  | serveStatic {s : Flight} (hs : s.stage = .arrived)
      (hd : Admin.dispatch W s.shared req = .fallback) (hr : requiresAuth req.path = false) :
      Step W req s .own (s.move s.shared .done)
  | serveConsole {s : Flight} (hs : s.stage = .arrived)
      (hd : Admin.dispatch W s.shared req = .fallback) (hr : requiresAuth req.path = true) :
      Step W req s .own (s.move (verifyAdmin s.shared req.headers).1 .done)
  | list {s : Flight} (hs : s.stage = .called .list) :
      Step W req s .own (s.move (verifyAdmin s.shared req.headers).1 .done)
  | verified {s : Flight} {r : Request} (hs : s.stage = .called (.admin r))
      (hv : (verifyAdmin s.shared req.headers).2 = true) :
      Step W req s .own (s.move (verifyAdmin s.shared req.headers).1 (.verified r))
  | unauthorized {s : Flight} {r : Request} (hs : s.stage = .called (.admin r))
      (hv : (verifyAdmin s.shared req.headers).2 = false) :
      Step W req s .own (s.move (verifyAdmin s.shared req.headers).1 .done)
  | prepare {s : Flight} {r : Request} {job : Job} {answer : Option (List SocketAddr)}
      (hs : s.stage = .verified r) (hp : r.prepare W.toEnv s.shared.state answer = .ok job) :
      Step W req s .own (s.move s.shared (.ready job))
  | reject {s : Flight} {r : Request} {status : StatusCode} {answer : Option (List SocketAddr)}
      (hs : s.stage = .verified r)
      (hp : r.prepare W.toEnv s.shared.state answer = .error status) :
      Step W req s .own (s.move s.shared .done)
  | begin {s : Flight} {job : Job} {fresh : Fresh} {state : AppState} {c : Commit}
      (hs : s.stage = .ready job) (hb : s.shared.state.begin W.toEnv fresh job = .ok (state, c)) :
      Step W req s .own (s.move { s.shared with state } (.committed c))
  | refuse {s : Flight} {job : Job} {fresh : Fresh} {status : StatusCode}
      (hs : s.stage = .ready job) (hb : s.shared.state.begin W.toEnv fresh job = .error status) :
      Step W req s .own (s.move s.shared .done)
  | saved {s : Flight} {c : Commit} {u : Undo} (hs : s.stage = .committed c)
      (hu : c.undo = some u) :
      Step W req s .own (s.move s.shared (.committed { c with undo := none }))
  | saveFailed {s : Flight} {c : Commit} {u : Undo} (hs : s.stage = .committed c)
      (hu : c.undo = some u) (hk : u ≠ .keep) :
      Step W req s .own (s.move { s.shared with state := s.shared.state.revert u } .done)
  | saveIgnored {s : Flight} {c : Commit} (hs : s.stage = .committed c) (hu : c.undo = some .keep) :
      Step W req s .own (s.move s.shared (.committed { c with undo := none }))
  | effect {s : Flight} {c : Commit} {x : Effect} {rest : List Effect} (hs : s.stage = .committed c)
      (hu : c.undo = none) (he : c.effects = x :: rest) :
      Step W req s .own
        (s.move (s.shared.apply W.toEnv x) (.committed { c with effects := rest }))
  | finish {s : Flight} {c : Commit} (hs : s.stage = .committed c) (hu : c.undo = none)
      (he : c.effects = []) (hj : ∀ id, c.job ≠ .regenerateConnectorToken id) :
      Step W req s .own (s.move s.shared .done)
  | unlock {s : Flight} {c : Commit} {id : String} (hs : s.stage = .committed c)
      (hu : c.undo = none) (hj : c.job = .regenerateConnectorToken id) :
      Step W req s .own (s.move s.shared (.kick id))
  | kick {s : Flight} {id : String} (hs : s.stage = .kick id) :
      Step W req s .own
        (s.move { s.shared with registry := (s.shared.registry.unregister id).1 } .done)
  | setupChecked {s : Flight} {r : SetupRequest} {domain : String}
      (hs : s.stage = .called (.setup r)) (hc : r.check s.shared.initialized = .ok domain) :
      Step W req s .own (s.move s.shared (.hashing domain r))
  | setupRefused {s : Flight} {r : SetupRequest} {status : StatusCode}
      (hs : s.stage = .called (.setup r)) (hc : r.check s.shared.initialized = .error status) :
      Step W req s .own (s.move s.shared .done)
  | hash {s : Flight} {domain passwordHash : String} {r : SetupRequest}
      (hs : s.stage = .hashing domain r) :
      Step W req s .own (s.move s.shared (.hashed domain passwordHash r.cfApiToken))
  | hashFailed {s : Flight} {domain : String} {r : SetupRequest} (hs : s.stage = .hashing domain r) :
      Step W req s .own (s.move s.shared .done)
  | setup {s : Flight} {domain passwordHash secret : String} {cfApiToken : Option String}
      (hs : s.stage = .hashed domain passwordHash cfApiToken) (hi : s.shared.initialized = false) :
      Step W req s .own (s.move (s.shared.setup domain passwordHash cfApiToken secret) .done)
  -- Another setup came first.
  | setupLate {s : Flight} {domain passwordHash : String} {cfApiToken : Option String}
      (hs : s.stage = .hashed domain passwordHash cfApiToken) (hi : s.shared.initialized = true) :
      Step W req s .own (s.move s.shared .done)
  | loginChecked {s : Flight} {password hash : String} (hs : s.stage = .called (.login password))
      (hl : loginHash s.shared password = .ok hash) :
      Step W req s .own (s.move s.shared (.checking password hash))
  | loginRefused {s : Flight} {password : String} {status : StatusCode}
      (hs : s.stage = .called (.login password)) (hl : loginHash s.shared password = .error status) :
      Step W req s .own (s.move s.shared .done)
  | login {s : Flight} {password hash sid csrfToken : String} (hs : s.stage = .checking password hash)
      (hv : W.verifyPassword password hash = true) :
      Step W req s .own (s.move { s.shared with
        sessions := s.shared.sessions.createAdminSession s.shared.now sid csrfToken } .done)
  | wrongPassword {s : Flight} {password hash : String} (hs : s.stage = .checking password hash)
      (hv : W.verifyPassword password hash = false) : Step W req s .own (s.move s.shared .done)
  | disconnect {s : Flight} {token : String} {connector : Connector}
      (hs : s.stage = .called .disconnect) (hi : s.shared.initialized = true)
      (hb : bearerToken req.headers = some token)
      (hc : s.shared.state.ConnectorFromToken W.toEnv token connector) :
      Step W req s .own (s.move s.shared (.kick connector.id))
  | connect {s : Flight} {token : String} {connector : Connector}
      (hs : s.stage = .called .connect) (hb : bearerToken req.headers = some token)
      (hc : s.shared.state.ConnectorFromToken W.toEnv token connector) :
      Step W req s .own (s.move s.shared (.connecting connector.id))
  | register {s : Flight} {id : String} {k : Nat} (hs : s.stage = .connecting id) :
      Step W req s .own (s.move
        { s.shared with registry := (s.shared.registry.register id k).1 } (.connected id k))
  | setLastSeen {s : Flight} {id : String} {k : Nat} (hs : s.stage = .connected id k) :
      Step W req s .own (s.move (s.shared.touch id) (.connected id k))
  | leave {s : Flight} {id : String} {k : Nat} (hs : s.stage = .connected id k) :
      Step W req s .own (s.move
        { s.shared with registry := (s.shared.registry.unregisterManager id k).1 } (.left id))
  | leftLastSeen {s : Flight} {id : String} (hs : s.stage = .left id) :
      Step W req s .own (s.move (s.shared.touch id) .done)
  -- `connector_get_settings`, a connector that is turned away, and a client that goes away.
  | ends {s : Flight} (hs : s.stage.awaits = true) : Step W req s .own (s.move s.shared .done)

def system (W : Web β) (req : HttpRequest β) : LTS Flight Event where
  Init s := s.stage = .arrived ∧ s.seen = [s.shared]
  Tr := Step W req

variable {s t : Flight} {e : Event} {h : Handler} {g : Global} {stage : Stage} {id : String}

/-- The router has let the request through to the handler. -/
def Ran (W : Web β) (req : HttpRequest β) (s : Flight) (h : Handler) : Prop :=
  ∃ g ∈ s.seen, dispatch W g req = .handler h

/-- The request has the token of the connector. -/
def Bears (W : Web β) (req : HttpRequest β) (s : Flight) (connector : Connector) : Prop :=
  ∃ g ∈ s.seen, ∃ token, bearerToken req.headers = some token ∧
    g.state.ConnectorFromToken W.toEnv token connector

theorem Ran.move (hr : Ran W req s h) : Ran W req (s.move g stage) h := by
  obtain ⟨g', hg', hd⟩ := hr
  exact ⟨g', List.mem_append_left _ hg', hd⟩

theorem Bears.move {connector : Connector} (hb : Bears W req s connector) :
    Bears W req (s.move g stage) connector := by
  obtain ⟨g', hg', hb⟩ := hb
  exact ⟨g', List.mem_append_left _ hg', hb⟩

/-- What a request at some stage has been through. -/
def Backed (W : Web β) (req : HttpRequest β) (s : Flight) : Stage → Prop
  | .arrived | .checking _ _ | .done => True
  | .called h => Ran W req s h
  | .verified _ | .ready _ | .committed _ => ∃ r, Ran W req s (.admin r)
  | .hashing _ _ | .hashed _ _ _ => ∃ r, Ran W req s (.setup r)
  | .kick id => (∃ r, Ran W req s (.admin r)) ∨
      Ran W req s .disconnect ∧ ∃ connector, connector.id = id ∧ Bears W req s connector
  | .connecting id | .connected id _ | .left id =>
      Ran W req s .connect ∧ ∃ connector, connector.id = id ∧ Bears W req s connector

theorem Backed.move {stage' : Stage} (hb : Backed W req s stage') :
    Backed W req (s.move g stage) stage' := by
  cases stage' with
  | arrived => trivial
  | checking => trivial
  | done => trivial
  | called => exact Ran.move hb
  | verified | ready | committed | hashing | hashed =>
    obtain ⟨r, hr⟩ := hb
    exact ⟨r, hr.move⟩
  | kick =>
    rcases hb with ⟨r, hr⟩ | ⟨hr, connector, hid, hb⟩
    · exact .inl ⟨r, hr.move⟩
    · exact .inr ⟨hr.move, connector, hid, hb.move⟩
  | connecting | connected | left =>
    obtain ⟨hr, connector, hid, hb⟩ := hb
    exact ⟨hr.move, connector, hid, hb.move⟩

theorem backed_step (hm : s.shared ∈ s.seen) (hb : Backed W req s s.stage) (hs : Step W req s e t) :
    Backed W req t t.stage := by
  cases hs with
  | other => exact hb.move
  | dispatch _ hd => exact Ran.move ⟨_, hm, hd⟩
  | verified hst | setupChecked hst =>
    rw [hst] at hb
    exact ⟨_, Ran.move hb⟩
  | prepare hst | begin hst | saved hst | saveIgnored hst | effect hst | hash hst =>
    rw [hst] at hb
    obtain ⟨r, hr⟩ := hb
    exact ⟨r, hr.move⟩
  | unlock hst =>
    rw [hst] at hb
    obtain ⟨r, hr⟩ := hb
    exact .inl ⟨r, hr.move⟩
  | disconnect hst _ htoken hc =>
    rw [hst] at hb
    exact .inr ⟨Ran.move hb, _, rfl, Bears.move ⟨_, hm, _, htoken, hc⟩⟩
  | connect hst htoken hc =>
    rw [hst] at hb
    exact ⟨Ran.move hb, _, rfl, Bears.move ⟨_, hm, _, htoken, hc⟩⟩
  | register hst | setLastSeen hst | leave hst =>
    rw [hst] at hb
    obtain ⟨hr, connector, hid, hb⟩ := hb
    exact ⟨hr.move, connector, hid, hb.move⟩
  | loginChecked => trivial
  | _ => trivial

theorem shared_mem (hs : (system W req).Reachable s) : s.shared ∈ s.seen := by
  cases hs with
  | init hi =>
    rw [hi.2]
    exact List.mem_singleton_self _
  | step _ ht => cases ht <;> exact List.mem_append_right _ (List.mem_singleton_self _)

theorem backed (hs : (system W req).Reachable s) : Backed W req s s.stage := by
  refine hs.invariant_of (fun _ => shared_mem) (fun s hi => ?_) fun _ _ _ hm _ => backed_step hm
  rw [hi.1]
  trivial

/-- On whose authority a request may make the change from `s` to `t`. -/
inductive Authorised (W : Web β) (req : HttpRequest β) (s t : Flight) : Prop
  /-- An admin's, whose session was good and whose token was the session's own. -/
  | admin {g : Global} {sid : String} {session : AdminSession} (hg : g ∈ s.seen)
      (hc : csrfSession req.headers = some sid) (hs : g.sessions.get sid = some session)
      (hx : adminSessionExpired g.now session = false)
      (ht : (req.headers.get "x-csrf-token").bind toStr = some session.csrfToken)
  /-- Anyone's, as long as there is no admin. -/
  | setup (hm : req.method = .post) (hp : req.path = "/api/setup")
      (hi : s.shared.initialized = false)
  /-- A connector's over its own session. -/
  | disconnect {connector : Connector} (hm : req.method = .post)
      (hp : req.path = "/api/connector/disconnect") (hb : Bears W req s connector)
      (ho : s.shared.OnlyEntry t.shared connector.id)
  | connect {connector : Connector} (hm : req.method = .get)
      (hp : req.path = "/api/connector/connect") (hb : Bears W req s connector)
      (ho : s.shared.OnlyEntry t.shared connector.id)

theorem Ran.authorised {r : Request} (hr : Ran W req s (.admin r)) : Authorised W req s t := by
  obtain ⟨g, hg, hd⟩ := hr
  obtain ⟨rest, path, endpoint, -, hp, hcsrf, he, hh⟩ := dispatch_eq_handler hd
  cases hh with
  | admin _ hc =>
    obtain ⟨sid, session, hsid, hget, hx, ht⟩ := csrf_of_changes hp he hc hcsrf
    exact .admin hg hsid hget hx ht

theorem Ran.setup {r : SetupRequest} (hr : Ran W req s (.setup r)) :
    req.method = .post ∧ req.path = "/api/setup" := by
  obtain ⟨g, -, hd⟩ := hr
  obtain ⟨rest, path, endpoint, hpath, hp, -, he, hh⟩ := dispatch_eq_handler hd
  cases hh with
  | setup =>
    obtain ⟨hm, rfl⟩ := path_of_setup hp he
    exact ⟨hm, hpath⟩

theorem Ran.disconnect (hr : Ran W req s .disconnect) :
    req.method = .post ∧ req.path = "/api/connector/disconnect" := by
  obtain ⟨g, -, hd⟩ := hr
  obtain ⟨rest, path, endpoint, hpath, hp, -, he, hh⟩ := dispatch_eq_handler hd
  cases hh with
  | disconnect =>
    obtain ⟨hm, rfl⟩ := path_of_disconnect hp he
    exact ⟨hm, hpath⟩

theorem Ran.connect (hr : Ran W req s .connect) :
    req.method = .get ∧ req.path = "/api/connector/connect" := by
  obtain ⟨g, -, hd⟩ := hr
  obtain ⟨rest, path, endpoint, hpath, hp, -, he, hh⟩ := dispatch_eq_handler hd
  cases hh with
  | connect hm =>
    obtain rfl := path_of_connect hp he
    exact ⟨hm, hpath⟩

theorem onlyEntry_update (g : Global) (id : String) (k : Option Nat) :
    g.OnlyEntry { g with registry := Function.update g.registry id k } id :=
  ⟨rfl, fun _ hne => Function.update_of_ne hne _ _⟩

theorem onlyEntry_unregisterManager (g : Global) (id : String) (k : Nat) :
    g.OnlyEntry { g with registry := (g.registry.unregisterManager id k).1 } id := by
  refine ⟨rfl, fun id' hne => ?_⟩
  exact (g.registry.unregisterManager_fst id k id').trans (if_neg fun h => hne h.1)

theorem authorised_of_step (hb : Backed W req s s.stage) (hs : Step W req s .own t)
    (hne : ¬ s.shared.Same t.shared) : Authorised W req s t := by
  cases hs with
  | begin hst | saveFailed hst | effect hst =>
    rw [hst] at hb
    obtain ⟨r, hr⟩ := hb
    exact hr.authorised
  | kick hst =>
    rw [hst] at hb
    rcases hb with ⟨r, hr⟩ | ⟨hr, connector, rfl, hb⟩
    · exact hr.authorised
    · exact .disconnect hr.disconnect.1 hr.disconnect.2 hb (onlyEntry_update _ _ _)
  | setup hst hi =>
    rw [hst] at hb
    obtain ⟨r, hr⟩ := hb
    exact .setup hr.setup.1 hr.setup.2 hi
  | register hst =>
    rw [hst] at hb
    obtain ⟨hr, connector, rfl, hb⟩ := hb
    exact .connect hr.connect.1 hr.connect.2 hb (onlyEntry_update _ _ _)
  | leave hst =>
    rw [hst] at hb
    obtain ⟨hr, connector, rfl, hb⟩ := hb
    exact .connect hr.connect.1 hr.connect.2 hb (onlyEntry_unregisterManager _ _ _)
  | serveConsole | list | verified | unauthorized =>
    exact absurd (s.shared.same_verifyAdmin req.headers) hne
  | setLastSeen | leftLastSeen => exact absurd (s.shared.same_touch _) hne
  | login => exact absurd ⟨rfl, rfl, fun _ => rfl, rfl, rfl, rfl, rfl, rfl⟩ hne
  | _ => exact absurd (.refl _) hne

/-- Whatever the others do meanwhile, a request changes the resources, the connectors, the
configuration, the routes or the registry only on proper authority; and the CSRF layer and
`verify_admin` ask for the same session, the one for its token and the other for its validity. -/
theorem changes_authorised (W : Web β) (req : HttpRequest β) :
    (∀ s t, (system W req).Reachable s → Step W req s .own t → ¬ s.shared.Same t.shared →
      Authorised W req s t) ∧
    (∀ g method path headers, [Method.get, .head, .options].contains method = false →
      ["/auth/login", "/setup", "/connector/disconnect"].contains path = false →
      (enforceApiCsrf g method path headers = true ↔ ∃ sid token, adminSession headers = some sid ∧
        (headers.get "x-csrf-token").bind toStr = some token ∧
        g.sessions.validateAdminCsrf g.now sid token = true)) ∧
    ∀ g headers, (verifyAdmin g headers).2 = true ↔ g.initialized = true ∧
      ∃ sid, adminSession headers = some sid ∧
        (g.sessions.validateAdminSession g.now sid).2 = true :=
  ⟨fun _ _ hs => authorised_of_step (backed hs), fun _ _ _ _ hm hp => enforceApiCsrf_iff hm hp,
    fun _ _ => verifyAdmin_iff⟩

section Runs

/-- A web framework for requests without a body. -/
def sampleWeb : Web Unit where
  toEnv := sampleEnv
  percentDecode := some
  setupBody _ _ := .error .badRequest
  loginBody _ _ := .error .badRequest
  createConnectorBody _ _ := .error .badRequest
  updateConnectorBody _ _ := .error .badRequest
  createResourceBody _ _ := .error .badRequest
  updateResourceBody _ _ := .error .badRequest
  upgrade _ := .error .badRequest
  verifyPassword _ _ := false

/-- A minute after an admin has logged in. -/
def loggedIn : Global where
  now := 60 * 10 ^ 9
  state := { resources := [sampleResource], domain := "example.com" }
  initialized := true
  sessions := [("5e", ⟨"c5", 0, 0⟩)]

def deletion : HttpRequest Unit where
  method := .delete
  path := "/api/resources/r1"
  headers := [("cookie", "theme=dark; __Host-x2rp_session=5e"), ("x-csrf-token", "c5")]
  body := ()

theorem changes_authorised_deletion : ∃ s t : Flight, (system sampleWeb deletion).Reachable s ∧
    Step sampleWeb deletion s .own t ∧ s.shared.state.resources = [sampleResource] ∧
    t.shared.state.resources = [] ∧ Authorised sampleWeb deletion s t := by
  have h0 : (system sampleWeb deletion).Reachable { shared := loggedIn } := .init ⟨rfl, rfl⟩
  have h1 := h0.step <| @Step.dispatch _ sampleWeb deletion _ (.admin (.deleteResource "r1")) rfl rfl
  have h2 := h1.step <| @Step.verified _ sampleWeb deletion _ (.deleteResource "r1") rfl rfl
  have h3 := h2.step <| @Step.prepare _ sampleWeb deletion _ (.deleteResource "r1")
    (.deleteResource "r1") none rfl rfl
  obtain ⟨s, hs, hstage, hstate⟩ : ∃ s, (system sampleWeb deletion).Reachable s ∧
      s.stage = .ready (.deleteResource "r1") ∧ s.shared.state = loggedIn.state :=
    ⟨_, h3, rfl, rfl⟩
  have hb : s.shared.state.begin sampleEnv ⟨"r2", ""⟩ (.deleteResource "r1") =
      .ok ({ domain := "example.com" }, ⟨.deleteResource "r1",
        some (.insertResource 0 sampleResource), [.removeResource "app"]⟩) := by
    rw [hstate]
    rfl
  have hstep := @Step.begin _ sampleWeb deletion s _ _ _ _ hstage hb
  refine ⟨s, _, hs, hstep, by rw [hstate]; rfl, rfl, ?_⟩
  refine (changes_authorised sampleWeb deletion).1 _ _ hs hstep fun h => ?_
  have hr := h.resources
  rw [hstate] at hr
  cases hr

end Runs

end Flight

end X2rp.Admin
