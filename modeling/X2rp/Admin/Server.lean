import X2rp.Admin.Registry
import X2rp.Admin.State
import X2rp.Lts

/-! The admin handlers and the connector sessions of one server, one critical section or await at
a time, around the state lock, the state file, the route table and the registry. -/
namespace X2rp.Admin

open Proto

/-- A mutating request to the admin API: its path and its body. -/
inductive Request
  | createResource (req : CreateResourceRequest)
  | updateResource (id : String) (req : UpdateResourceRequest)
  | deleteResource (id : String)
  | createConnector (name : String)
  | updateConnector (id : String) (forceWss : Bool)
  | deleteConnector (id : String)
  | regenerateConnectorToken (id : String)
deriving DecidableEq

/-- A request that has passed its checks and wants the write lock, with what it has read on the
way: an update the record `current`, and the addresses in which its target was validated. -/
inductive Job
  | createResource (draft : Resource) (answer : Option (List SocketAddr))
  | updateResource (id : String) (req : UpdateResourceRequest) (current : Resource)
      (answer : Option (List SocketAddr))
  | deleteResource (id : String)
  | createConnector (name : String)
  | updateConnector (id : String) (forceWss : Bool)
  | deleteConnector (id : String)
  | regenerateConnectorToken (id : String)
deriving DecidableEq

/-- A handler after `verify_admin`, up to the write lock. -/
def Request.prepare (E : Env) (s : AppState) (answer : Option (List SocketAddr)) :
    Request → Except StatusCode Job
  | .createResource req => do
    let draft ← req.draft E
    validateTarget E answer draft.target draft.connectorId
    return .createResource draft answer
  | .updateResource id req => do
    let req ← req.checked E
    let some current := s.resources.find? fun r => r.id == id | throw .notFound
    let resource := req.merge current
    validateTarget E answer resource.target resource.connectorId
    return .updateResource id req current answer
  | .deleteResource id => .ok (.deleteResource id)
  | .createConnector name =>
    if isValidConnectorName E name then .ok (.createConnector name) else .error .badRequest
  | .updateConnector id forceWss => .ok (.updateConnector id forceWss)
  | .deleteConnector id => .ok (.deleteConnector id)
  | .regenerateConnectorToken id => .ok (.regenerateConnectorToken id)

/-- How a handler takes its change back when `save` fails; `update_connector` keeps it. -/
inductive Undo
  | dropResource (id : String)
  | replaceResource (idx : Nat) (old : Resource)
  | insertResource (idx : Nat) (removed : Resource)
  | dropConnector (id : String)
  | insertConnector (id : String) (connector : Connector)
  | restoreToken (id : String) (tokenHash : String)
  | keep
deriving DecidableEq, Repr

/-- What a handler does under the lock after `save`. -/
inductive Effect
  | removeResource (subdomain : String)
  | publish (resource : Resource)
  | unregister (id : String)
deriving DecidableEq, Repr

/-- A handler that holds the write lock with its change made. As long as `undo` is set, the save
is due. -/
structure Commit where
  job : Job
  undo : Option Undo
  effects : List Effect
deriving DecidableEq

/-- What a handler draws at random. -/
structure Fresh where
  id : String
  token : String

/-- The record that a handler writes, and the addresses it was validated with. -/
def Job.writes (fresh : Fresh) : Job → Option (Resource × Option (List SocketAddr))
  | .createResource draft answer => some ({ draft with id := fresh.id }, answer)
  | .updateResource _ req current answer => some (req.merge current, answer)
  | _ => none

/-- The addresses that each record was last validated with, after the handler's write. -/
def Job.vet (fresh : Fresh) (job : Job) (vetted : Resource → Option (List SocketAddr)) :
    Resource → Option (List SocketAddr) :=
  (job.writes fresh).elim vetted fun w => Function.update vetted w.1 w.2

namespace AppState

variable (s : AppState)

def unknownConnector (connectorId : Option String) : Bool :=
  connectorId.any fun id => !decide (id ∈ s.connectors)

def position (id : String) : Option (Nat × Resource) := do
  let idx ← s.resources.findIdx? fun r => r.id == id
  let resource ← s.resources[idx]?
  return (idx, resource)

/-- A handler from the moment it has the write lock up to its `save`. -/
def begin (E : Env) (fresh : Fresh) (job : Job) : Except StatusCode (AppState × Commit) :=
  match job with
  | .createResource draft _ =>
    if subdomainInUse s.resources draft.subdomain none then .error .conflict
    else if s.unknownConnector draft.connectorId then .error .badRequest
    else
      let resource := { draft with id := fresh.id }
      .ok ({ s with resources := s.resources ++ [resource] },
        ⟨job, some (.dropResource resource.id), [.publish resource]⟩)
  | .updateResource id req current _ =>
    let resource := req.merge current
    if subdomainInUse s.resources resource.subdomain (some id) then .error .conflict
    else if s.unknownConnector resource.connectorId then .error .badRequest
    else
      match s.position id with
      | none => .error .notFound
      | some (idx, old) => .ok ({ s with resources := s.resources.set idx resource },
          ⟨job, some (.replaceResource idx old), [.removeResource old.subdomain, .publish resource]⟩)
  | .deleteResource id =>
    match s.position id with
    | none => .error .notFound
    | some (idx, removed) => .ok ({ s with resources := s.resources.eraseIdx idx },
        ⟨job, some (.insertResource idx removed), [.removeResource removed.subdomain]⟩)
  | .createConnector name =>
    if ∃ id ∈ s.connectors.keys, (s.connectors.lookup id).map Connector.name = some name then
      .error .conflict
    else
      let connector := { id := fresh.id, name, tokenHash := E.hashToken fresh.token }
      .ok ({ s with connectors := s.connectors.insert fresh.id connector },
        ⟨job, some (.dropConnector fresh.id), []⟩)
  | .updateConnector id forceWss =>
    match s.connectors.lookup id with
    | none => .error .notFound
    | some connector =>
      let s' := { s with connectors := s.connectors.insert id { connector with forceWss } }
      if connector.forceWss ≠ forceWss then .ok (s', ⟨job, some .keep, [.unregister id]⟩)
      else .ok (s', ⟨job, none, []⟩)
  | .deleteConnector id =>
    if s.resources.any fun r => r.connectorId == some id then .error .conflict
    else
      match s.connectors.lookup id with
      | none => .error .notFound
      | some connector => .ok ({ s with connectors := s.connectors.erase id },
          ⟨job, some (.insertConnector id connector), [.unregister id]⟩)
  | .regenerateConnectorToken id =>
    match s.connectors.lookup id with
    | none => .error .notFound
    | some connector =>
      let renewed := { connector with tokenHash := E.hashToken fresh.token }
      .ok ({ s with connectors := s.connectors.insert id renewed },
        ⟨job, some (.restoreToken id connector.tokenHash), []⟩)

def revert : Undo → AppState
  | .dropResource id => { s with resources := s.resources.filter fun r => r.id ≠ id }
  | .replaceResource idx old => { s with resources := s.resources.set idx old }
  | .insertResource idx removed => { s with resources := s.resources.insertIdx idx removed }
  | .dropConnector id => { s with connectors := s.connectors.erase id }
  | .insertConnector id connector => { s with connectors := s.connectors.insert id connector }
  | .restoreToken id tokenHash =>
    match s.connectors.lookup id with
    | none => s
    | some connector => { s with connectors := s.connectors.insert id { connector with tokenHash } }
  | .keep => s

/-- What `AppState::load` makes of a saved state. -/
def loaded : AppState := { s with domain := normalizeDomain s.domain }

/-- The stored token hash of a connector. -/
def tokenHash? (id : String) : Option String := (s.connectors.lookup id).map Connector.tokenHash

/-- What `connector_from_token` may find. The map is searched in no particular order. -/
def ConnectorFromToken (E : Env) (token : String) (connector : Connector) : Prop :=
  (∃ id, s.connectors.lookup id = some connector) ∧ connector.tokenHash = E.hashToken token

end AppState

inductive Transport
  | wss
  | quic
deriving DecidableEq, Repr

/-- How far a connector's session has come. Its token has been looked up in the first phase, and
its manager is entered in the registry on the way to the second. -/
inductive SessionPhase
  | authenticated
  | registered
  | ended
deriving DecidableEq, Repr

/-- A session with the hash of the token it authenticated with. -/
structure ConnectorSession where
  transport : Transport
  connectorId : String
  tokenHash : String
  phase : SessionPhase
deriving DecidableEq, Repr

/-- An `unregister` that is due outside of the lock. -/
inductive Kick
  | regenerated (id : String)
  | disconnect (id : String)
deriving DecidableEq, Repr

def Kick.id : Kick → String
  | .regenerated id | .disconnect id => id

/-- Sessions are numbered as they authenticate. `waiting` holds the handlers that want the write
lock, `holder` the one that has it. `vetted` remembers of each record the addresses that its last
writer had it validated with. -/
structure Server where
  state : AppState
  file : AppState
  routes : Routes := fun _ => none
  booted : Bool := false
  waiting : List Job := []
  holder : Option Commit := none
  kicks : List Kick := []
  registry : Managers := fun _ => none
  started : Nat := 0
  sessions : Nat → ConnectorSession := fun _ => ⟨.wss, "", "", .ended⟩
  vetted : Resource → Option (List SocketAddr) := fun _ => none

/-- How a step shows. -/
inductive Event
  | internal
  /-- A handler fails its checks. -/
  | rejected (req : Request) (status : StatusCode)
  /-- A handler takes the write lock and makes its change. -/
  | begin (job : Job)
  /-- A handler answers its request with success. -/
  | done (job : Job)
  /-- A handler that has had the write lock answers with an error. -/
  | failed (job : Job) (status : StatusCode)
  /-- A session enters its manager in the registry. -/
  | register (k : Nat)
  | restart
deriving DecidableEq

namespace Server

variable {s s' : Server} {E : Env} {e : Event}

def setSession (s : Server) (k : Nat) (session : ConnectorSession) : Server :=
  { s with sessions := Function.update s.sessions k session }

def unregister (s : Server) (id : String) : Server :=
  { s with registry := (s.registry.unregister id).1 }

def apply (E : Env) (s : Server) : Effect → Server
  | .removeResource subdomain =>
    { s with routes := s.routes.removeResource E s.state.domain subdomain }
  | .publish resource => { s with routes := s.routes.publish E s.state.domain resource }
  | .unregister id => s.unregister id

/-- `set_last_seen`. -/
def touch (s : Server) (id : String) (now : Nat) : Server :=
  match s.state.connectors.lookup id with
  | none => s
  | some connector =>
    { s with state := { s.state with
        connectors := s.state.connectors.insert id { connector with lastSeen := some now } } }

/-- A handler has the lock and has changed the state. -/
def commit (s : Server) (waiting : List Job) (job : Job) (fresh : Fresh) (state : AppState)
    (c : Commit) : Server :=
  { s with waiting, state, holder := some c, vetted := job.vet fresh s.vetted }

section Fields

variable (s) (x : Effect) (id : String) (now : Nat) (waiting : List Job) (job : Job)
  (fresh : Fresh) (state : AppState) (c : Commit)

@[simp] theorem apply_state : (apply E s x).state = s.state := by cases x <;> rfl
@[simp] theorem apply_file : (apply E s x).file = s.file := by cases x <;> rfl
@[simp] theorem apply_booted : (apply E s x).booted = s.booted := by cases x <;> rfl
@[simp] theorem apply_waiting : (apply E s x).waiting = s.waiting := by cases x <;> rfl
@[simp] theorem apply_vetted : (apply E s x).vetted = s.vetted := by cases x <;> rfl
@[simp] theorem apply_kicks : (apply E s x).kicks = s.kicks := by cases x <;> rfl
@[simp] theorem apply_sessions : (apply E s x).sessions = s.sessions := by cases x <;> rfl
@[simp] theorem apply_started : (apply E s x).started = s.started := by cases x <;> rfl

@[simp] theorem commit_state : (s.commit waiting job fresh state c).state = state := rfl
@[simp] theorem commit_file : (s.commit waiting job fresh state c).file = s.file := rfl
@[simp] theorem commit_routes : (s.commit waiting job fresh state c).routes = s.routes := rfl
@[simp] theorem commit_booted : (s.commit waiting job fresh state c).booted = s.booted := rfl
@[simp] theorem commit_waiting : (s.commit waiting job fresh state c).waiting = waiting := rfl
@[simp] theorem commit_holder : (s.commit waiting job fresh state c).holder = some c := rfl
@[simp] theorem commit_vetted :
    (s.commit waiting job fresh state c).vetted = job.vet fresh s.vetted := rfl

/-- `set_last_seen` touches nothing but the one record. -/
theorem touch_eq : s.touch id now = s ∨ ∃ connector, s.state.connectors.lookup id = some connector ∧
    s.touch id now = { s with state := { s.state with
      connectors := s.state.connectors.insert id { connector with lastSeen := some now } } } := by
  unfold touch
  split
  · exact .inl rfl
  · exact .inr ⟨_, ‹_›, rfl⟩

end Fields

/-- Any interleaving of handlers and sessions. Reading the state takes the read lock, so it
waits for a handler that holds the write lock. -/
inductive Step (E : Env) : Server → Event → Server → Prop
  | request {s : Server} {req : Request} {job : Job} {answer : Option (List SocketAddr)}
      (hl : s.holder = none) (hp : req.prepare E s.state answer = .ok job) :
      Step E s .internal { s with waiting := s.waiting ++ [job] }
  | reject {s : Server} {req : Request} {status : StatusCode} {answer : Option (List SocketAddr)}
      (hl : s.holder = none) (hp : req.prepare E s.state answer = .error status) :
      Step E s (.rejected req status) s
  | begin {s : Server} {job : Job} {before after : List Job} {fresh : Fresh} {state : AppState}
      {c : Commit} (hl : s.holder = none) (hw : s.waiting = before ++ job :: after)
      (hid : ∀ r ∈ s.state.resources, r.id ≠ fresh.id) (hcid : fresh.id ∉ s.state.connectors)
      (hb : s.state.begin E fresh job = .ok (state, c)) :
      Step E s (.begin job) (s.commit (before ++ after) job fresh state c)
  | refuse {s : Server} {job : Job} {before after : List Job} {fresh : Fresh}
      {status : StatusCode} (hl : s.holder = none) (hw : s.waiting = before ++ job :: after)
      (hb : s.state.begin E fresh job = .error status) :
      Step E s (.failed job status) { s with waiting := before ++ after }
  -- The client may go away while its handler waits.
  | abandon {s : Server} {job : Job} {before after : List Job}
      (hw : s.waiting = before ++ job :: after) :
      Step E s .internal { s with waiting := before ++ after }
  | saved {s : Server} {c : Commit} {u : Undo} (hl : s.holder = some c) (hu : c.undo = some u) :
      Step E s .internal { s with file := s.state, holder := some { c with undo := none } }
  | saveFailed {s : Server} {c : Commit} {u : Undo} (hl : s.holder = some c)
      (hu : c.undo = some u) (hk : u ≠ .keep) :
      Step E s (.failed c.job .internalServerError)
        { s with state := s.state.revert u, holder := none }
  -- It fails at the sync of the directory, with the new file in its place already.
  | saveUnsynced {s : Server} {c : Commit} {u : Undo} (hl : s.holder = some c)
      (hu : c.undo = some u) (hk : u ≠ .keep) :
      Step E s (.failed c.job .internalServerError)
        { s with state := s.state.revert u, file := s.state, holder := none }
  | saveIgnored {s : Server} {c : Commit} (hl : s.holder = some c) (hu : c.undo = some .keep) :
      Step E s .internal { s with holder := some { c with undo := none } }
  | effect {s : Server} {c : Commit} {e : Effect} {rest : List Effect} (hl : s.holder = some c)
      (hu : c.undo = none) (he : c.effects = e :: rest) :
      Step E s .internal { apply E s e with holder := some { c with effects := rest } }
  | finish {s : Server} {c : Commit} (hl : s.holder = some c) (hu : c.undo = none)
      (he : c.effects = []) (hj : ∀ id, c.job ≠ .regenerateConnectorToken id) :
      Step E s (.done c.job) { s with holder := none }
  -- The one handler that drops its guard before it kicks the session.
  | unlock {s : Server} {c : Commit} {id : String} (hl : s.holder = some c) (hu : c.undo = none)
      (hj : c.job = .regenerateConnectorToken id) :
      Step E s .internal { s with holder := none, kicks := s.kicks ++ [.regenerated id] }
  | regenerated {s : Server} {id : String} (hk : .regenerated id ∈ s.kicks) :
      Step E s (.done (.regenerateConnectorToken id))
        { s.unregister id with kicks := s.kicks.erase (.regenerated id) }
  | connectorDisconnect {s : Server} {token : String} {connector : Connector}
      (hl : s.holder = none) (ht : s.state.ConnectorFromToken E token connector) :
      Step E s .internal { s with kicks := s.kicks ++ [.disconnect connector.id] }
  | disconnect {s : Server} {id : String} (hk : .disconnect id ∈ s.kicks) :
      Step E s .internal { s.unregister id with kicks := s.kicks.erase (.disconnect id) }
  | authenticate {s : Server} {transport : Transport} {token : String} {connector : Connector}
      (hl : s.holder = none) (ht : s.state.ConnectorFromToken E token connector) :
      Step E s .internal
        { s.setSession s.started ⟨transport, connector.id, E.hashToken token, .authenticated⟩ with
          started := s.started + 1 }
  | register {s : Server} {k : Nat} (hk : k < s.started)
      (hp : (s.sessions k).phase = .authenticated) :
      Step E s (.register k) { s.setSession k { s.sessions k with phase := .registered } with
        registry := (s.registry.register (s.sessions k).connectorId k).1 }
  | giveUp {s : Server} {k : Nat} (hp : (s.sessions k).phase = .authenticated) :
      Step E s .internal (s.setSession k { s.sessions k with phase := .ended })
  | leave {s : Server} {k : Nat} (hp : (s.sessions k).phase = .registered) :
      Step E s .internal { s.setSession k { s.sessions k with phase := .ended } with
        registry := (s.registry.unregisterManager (s.sessions k).connectorId k).1 }
  | setLastSeen {s : Server} {k now : Nat} (hk : k < s.started) (hl : s.holder = none) :
      Step E s .internal (s.touch (s.sessions k).connectorId now)
  -- The route load of `run_server`, which handlers may precede.
  | boot {s : Server} (hb : s.booted = false) (hl : s.holder = none) :
      Step E s .internal { s with routes := loadRoutes E s.state s.routes, booted := true }
  | restart {s : Server} : Step E s .restart
      { state := s.file.loaded, file := s.file, vetted := s.vetted }

/-- The steps alone: the states in which they may start differ from property to property. -/
def system (E : Env) (Init : Server → Prop) : LTS Server Event := ⟨Init, Step E⟩

end Server

/-- The other crates on the few inputs that the runs shown in this development need. -/
def sampleEnv : Env where
  toLowercase := toAsciiLowercase
  ascii _ _ := rfl
  parseUri target :=
    if target = "http://127.0.0.1:8080" then
      some ⟨some "http", some "127.0.0.1", some 8080, some ("/", none)⟩
    else none
  parseNet _ := none
  parseAddr host := if host = "127.0.0.1" then some (.v4 (.new 127 0 0 1)) else none
  displayAddr ip := if ip = .v4 (.new 127 0 0 1) then "127.0.0.1" else ""
  displayNet _ := ""
  hashToken token :=
    if token = "token-1" then
      "3f08aace122ee2368432c1ca23a049bc640bafbf00fdf33a52429f38ba12dbf9"
    else if token = "token-2" then
      "0f6bffa9661cb5dd2f3f7b2929f33061f58a7ba7fdd689530b1a306f8ed8f3ec"
    else ""
  isAlphanumeric := Char.isAlphanum

/-- An origin on this host. -/
def sampleResource : Resource := { id := "r1", subdomain := "app", target := "http://127.0.0.1:8080" }

/-- A connector with its first token. -/
def sampleConnector : Connector :=
  { id := "c1", name := "lan", tokenHash := sampleEnv.hashToken "token-1" }

end X2rp.Admin
