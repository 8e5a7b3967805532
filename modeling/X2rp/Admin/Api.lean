import X2rp.Admin.Auth
import X2rp.Admin.Server

/-! The admin router: what a request has to get past before its handler runs, and what the handler
then has in its hands. -/
namespace X2rp.Admin

open Proto Http

inductive Method
  | get
  | head
  | options
  | post
  | put
  | delete
  | other (name : String)
deriving DecidableEq, Repr

structure HttpRequest (β : Type) where
  method : Method
  path : String
  headers : Headers
  body : β

structure SetupRequest where
  domain : String
  adminPassword : String
  cfApiToken : Option String
deriving DecidableEq

/-- What the router leaves to the web framework: path parameters, JSON bodies and WebSocket
upgrades. Passwords are checked by Argon2. -/
structure Web (β : Type) extends Env where
  percentDecode : String → Option String
  setupBody : Headers → β → Except StatusCode SetupRequest
  loginBody : Headers → β → Except StatusCode String
  createConnectorBody : Headers → β → Except StatusCode String
  updateConnectorBody : Headers → β → Except StatusCode Bool
  createResourceBody : Headers → β → Except StatusCode CreateResourceRequest
  updateResourceBody : Headers → β → Except StatusCode UpdateResourceRequest
  upgrade : Headers → Except StatusCode Unit
  verifyPassword : String → String → Bool

structure ServerConfig where
  cfApiToken : String := ""
  obfuscationSecret : String := ""
deriving DecidableEq

/-- All that requests share, and the clock. -/
structure Global where
  now : Nat := 0
  state : AppState
  initialized : Bool := false
  serverConfig : ServerConfig := {}
  adminPasswordHash : Option String := none
  sessions : Sessions := []
  routes : Routes := fun _ => none
  registry : Managers := fun _ => none

/-- The paths under `/api`. -/
inductive ApiPath
  | setup
  | connectors
  | connector (id : String)
  | connectorToken (id : String)
  | resources
  | resource (id : String)
  | authLogin
  | connectorConnect
  | connectorDisconnect
  | connectorSettings
deriving DecidableEq, Repr

/-- A parameter is a segment that is not empty. -/
def apiPath (path : String) : Option ApiPath :=
  match (path.toList.splitOn '/').map String.ofList with
  | ["", "setup"] => some .setup
  | ["", "connectors"] => some .connectors
  | ["", "connectors", id] => if id = "" then none else some (.connector id)
  | ["", "connectors", id, "token"] => if id = "" then none else some (.connectorToken id)
  | ["", "resources"] => some .resources
  | ["", "resources", id] => if id = "" then none else some (.resource id)
  | ["", "auth", "login"] => some .authLogin
  | ["", "connector", "connect"] => some .connectorConnect
  | ["", "connector", "disconnect"] => some .connectorDisconnect
  | ["", "connector", "settings"] => some .connectorSettings
  | _ => none

inductive Endpoint
  | postSetup
  | listConnectors
  | createConnector
  | updateConnector (id : String)
  | deleteConnector (id : String)
  | regenerateConnectorToken (id : String)
  | listResources
  | createResource
  | updateResource (id : String)
  | deleteResource (id : String)
  | authLogin
  | connectorConnect
  | connectorDisconnect
  | connectorGetSettings
deriving DecidableEq, Repr

/-- What a path does with a method. A handler for GET also gets HEAD. -/
def ApiPath.endpoint : ApiPath → Method → Option Endpoint
  | .setup, .post => some .postSetup
  | .connectors, .get | .connectors, .head => some .listConnectors
  | .connectors, .post => some .createConnector
  | .connector id, .put => some (.updateConnector id)
  | .connector id, .delete => some (.deleteConnector id)
  | .connectorToken id, .post => some (.regenerateConnectorToken id)
  | .resources, .get | .resources, .head => some .listResources
  | .resources, .post => some .createResource
  | .resource id, .put => some (.updateResource id)
  | .resource id, .delete => some (.deleteResource id)
  | .authLogin, .post => some .authLogin
  | .connectorConnect, .get | .connectorConnect, .head => some .connectorConnect
  | .connectorDisconnect, .post => some .connectorDisconnect
  | .connectorSettings, .get | .connectorSettings, .head => some .connectorGetSettings
  | _, _ => none

/-- A handler with its arguments; those that change the stored state for an admin are together. -/
inductive Handler
  | setup (req : SetupRequest)
  | list
  | admin (req : Request)
  | login (password : String)
  | connect
  | disconnect
  | settings
deriving DecidableEq

section Router

variable {β : Type} (W : Web β)

def Web.pathId (id : String) : Except StatusCode String :=
  match W.percentDecode id with
  | some id => .ok id
  | none => .error .badRequest

/-- The arguments of a handler, which are all there before it runs. -/
def Endpoint.handler (req : HttpRequest β) : Endpoint → Except StatusCode Handler
  | .postSetup => do return .setup (← W.setupBody req.headers req.body)
  | .listConnectors | .listResources => .ok .list
  | .createConnector => do
    return .admin (.createConnector (← W.createConnectorBody req.headers req.body))
  | .updateConnector id => do
    let id ← W.pathId id
    return .admin (.updateConnector id (← W.updateConnectorBody req.headers req.body))
  | .deleteConnector id => do return .admin (.deleteConnector (← W.pathId id))
  | .regenerateConnectorToken id => do
    return .admin (.regenerateConnectorToken (← W.pathId id))
  | .createResource => do
    return .admin (.createResource (← W.createResourceBody req.headers req.body))
  | .updateResource id => do
    let id ← W.pathId id
    return .admin (.updateResource id (← W.updateResourceBody req.headers req.body))
  | .deleteResource id => do return .admin (.deleteResource (← W.pathId id))
  | .authLogin => do return .login (← W.loginBody req.headers req.body)
  -- An upgrade is for GET alone.
  | .connectorConnect => do
    if req.method ≠ .get then throw .methodNotAllowed
    W.upgrade req.headers
    return .connect
  | .connectorDisconnect => .ok .disconnect
  | .connectorGetSettings => .ok .settings

/-- The session that the CSRF layer looks at. -/
def csrfSession (headers : Headers) : Option String :=
  ((headers.get "cookie").bind toStr).bind fun cookies => extractCookie cookies adminSessionCookie

/-- Whether a request gets past `enforce_api_csrf`; the path is the one under `/api`. -/
def enforceApiCsrf (g : Global) (method : Method) (path : String) (headers : Headers) : Bool :=
  let exempt := ["/auth/login", "/setup", "/connector/disconnect"].contains path
  let safe := [.get, .head, .options].contains method
  safe || exempt ||
    match (headers.get "x-csrf-token").bind toStr, csrfSession headers with
    | some token, some sid => g.sessions.validateAdminCsrf g.now sid token
    | _, _ => false

/-- The session that `verify_admin` looks at. -/
def adminSession (headers : Headers) : Option String :=
  ((headers.get "cookie").bind toStr).bind fun cookies => extractCookie cookies adminSessionCookie

def verifyAdmin (g : Global) (headers : Headers) : Global × Bool :=
  if g.initialized then
    match adminSession headers with
    | none => (g, false)
    | some sid =>
      let (sessions, valid) := g.sessions.validateAdminSession g.now sid
      ({ g with sessions }, valid)
  else (g, false)

inductive Dispatched
  | fallback
  | refused (status : StatusCode)
  | handler (h : Handler)

/-- `admin_app` up to a handler's first line. -/
def dispatch (g : Global) (req : HttpRequest β) : Dispatched :=
  match req.path.toList.dropPrefix? "/api".toList with
  | none => .fallback
  | some rest =>
    match apiPath (.ofList rest) with
    | none => .fallback
    | some path =>
      if enforceApiCsrf g req.method (.ofList rest) req.headers then
        match path.endpoint req.method with
        | none => .refused .methodNotAllowed
        | some endpoint =>
          match endpoint.handler W req with
          | .error status => .refused status
          | .ok h => .handler h
      else .refused .forbidden

/-- `/` is the console; any other path names a file. -/
def fileName (path : String) : String :=
  let name := match path.toList with
    | '/' :: rest => String.ofList rest
    | _ => path
  if name = "" then "admin.html" else name

def requiresAuth (path : String) : Bool := fileName path == "admin.html"

end Router

section Dispatch

variable {β : Type} {W : Web β} {g : Global} {req : HttpRequest β} {rest : String} {path : ApiPath}
  {method : Method} {endpoint : Endpoint} {h : Handler}

/-- The handlers that change what is stored on behalf of an admin. -/
def Endpoint.changes : Endpoint → Bool
  | .createConnector | .updateConnector _ | .deleteConnector _ | .regenerateConnectorToken _
  | .createResource | .updateResource _ | .deleteResource _ => true
  | _ => false

/-- Which handler an endpoint may come to. -/
inductive Endpoint.Handles (method : Method) : Endpoint → Handler → Prop
  | setup (req : SetupRequest) : Handles method .postSetup (.setup req)
  | listConnectors : Handles method .listConnectors .list
  | listResources : Handles method .listResources .list
  | admin {endpoint : Endpoint} (req : Request) (hc : endpoint.changes = true) :
      Handles method endpoint (.admin req)
  | login (password : String) : Handles method .authLogin (.login password)
  | connect (hm : method = .get) : Handles method .connectorConnect .connect
  | disconnect : Handles method .connectorDisconnect .disconnect
  | settings : Handles method .connectorGetSettings .settings

theorem bind_eq_ok {ε α γ : Type} {x : Except ε α} {f : α → Except ε γ} {c : γ}
    (h : (x >>= f) = .ok c) : ∃ a, x = .ok a ∧ f a = .ok c := by
  cases x with
  | error => cases h
  | ok a => exact ⟨a, rfl, h⟩

theorem Endpoint.handles_of_handler (hh : endpoint.handler W req = .ok h) :
    endpoint.Handles req.method h := by
  cases endpoint with
  | postSetup =>
    obtain ⟨_, -, ⟨⟩⟩ := bind_eq_ok hh
    exact .setup _
  | listConnectors =>
    cases hh
    exact .listConnectors
  | listResources =>
    cases hh
    exact .listResources
  | createConnector =>
    obtain ⟨_, -, ⟨⟩⟩ := bind_eq_ok hh
    exact .admin _ rfl
  | updateConnector id =>
    obtain ⟨_, -, hh⟩ := bind_eq_ok hh
    obtain ⟨_, -, ⟨⟩⟩ := bind_eq_ok hh
    exact .admin _ rfl
  | deleteConnector id =>
    obtain ⟨_, -, ⟨⟩⟩ := bind_eq_ok hh
    exact .admin _ rfl
  | regenerateConnectorToken id =>
    obtain ⟨_, -, ⟨⟩⟩ := bind_eq_ok hh
    exact .admin _ rfl
  | createResource =>
    obtain ⟨_, -, ⟨⟩⟩ := bind_eq_ok hh
    exact .admin _ rfl
  | updateResource id =>
    obtain ⟨_, -, hh⟩ := bind_eq_ok hh
    obtain ⟨_, -, ⟨⟩⟩ := bind_eq_ok hh
    exact .admin _ rfl
  | deleteResource id =>
    obtain ⟨_, -, ⟨⟩⟩ := bind_eq_ok hh
    exact .admin _ rfl
  | authLogin =>
    obtain ⟨_, -, ⟨⟩⟩ := bind_eq_ok hh
    exact .login _
  | connectorConnect =>
    by_cases hm : req.method = .get
    · simp only [Endpoint.handler, hm, ne_eq, not_true, if_false] at hh
      obtain ⟨_, -, ⟨⟩⟩ := bind_eq_ok hh
      exact .connect hm
    · simp [Endpoint.handler, hm, bind, Except.bind, throw, throwThe, MonadExceptOf.throw] at hh
  | connectorDisconnect =>
    cases hh
    exact .disconnect
  | connectorGetSettings =>
    cases hh
    exact .settings

/-- All that a handler can take for granted about the request it runs for. -/
theorem dispatch_eq_handler (hd : dispatch W g req = .handler h) :
    ∃ rest path endpoint, req.path = "/api" ++ rest ∧ apiPath rest = some path ∧
      enforceApiCsrf g req.method rest req.headers = true ∧
      path.endpoint req.method = some endpoint ∧ endpoint.Handles req.method h := by
  unfold dispatch at hd
  split at hd
  · cases hd
  · rename_i rest hrest
    split at hd
    · cases hd
    · rename_i path hpath
      split at hd
      · rename_i hcsrf
        split at hd
        · cases hd
        · rename_i endpoint hend
          split at hd
          · cases hd
          · rename_i hh
            cases hd
            refine ⟨_, path, endpoint, ?_, hpath, hcsrf, hend, Endpoint.handles_of_handler hh⟩
            apply String.toList_inj.mp
            simpa using dropPrefix?_iff.mp hrest
      · cases hd

theorem eq_of_segments {l : List String} (hl : (rest.toList.splitOn '/').map String.ofList = l) :
    rest = .ofList (List.intercalate ['/'] (l.map String.toList)) := by
  subst hl
  apply String.toList_inj.mp
  rw [String.toList_ofList, List.map_map]
  have he : String.toList ∘ String.ofList = id := by
    funext l
    exact String.toList_ofList
  rw [he, List.map_id, List.intercalate_splitOn]

theorem segments_id (name id : String) :
    String.ofList (List.intercalate ['/'] (["", name, id].map String.toList)) =
      "/" ++ name ++ "/" ++ id := by
  apply String.toList_inj.mp
  simp [List.intercalate, List.intersperse]

theorem segments_id_rest (name id rest : String) :
    String.ofList (List.intercalate ['/'] (["", name, id, rest].map String.toList)) =
      "/" ++ name ++ "/" ++ id ++ ("/" ++ rest) := by
  apply String.toList_inj.mp
  simp [List.intercalate, List.intersperse]

/-- A path as it is written. -/
def ApiPath.text : ApiPath → String
  | .setup => "/setup"
  | .connectors => "/connectors"
  | .connector id => "/connectors/" ++ id
  | .connectorToken id => "/connectors/" ++ id ++ "/token"
  | .resources => "/resources"
  | .resource id => "/resources/" ++ id
  | .authLogin => "/auth/login"
  | .connectorConnect => "/connector/connect"
  | .connectorDisconnect => "/connector/disconnect"
  | .connectorSettings => "/connector/settings"

theorem eq_of_apiPath (hp : apiPath rest = some path) : rest = path.text := by
  unfold apiPath at hp
  generalize hl : (rest.toList.splitOn '/').map String.ofList = l at hp
  split at hp
  · cases hp
    exact eq_of_segments hl
  · cases hp
    exact eq_of_segments hl
  · obtain ⟨-, ⟨⟩⟩ := Option.ite_none_left_eq_some.mp hp
    exact (eq_of_segments hl).trans (segments_id _ _)
  · obtain ⟨-, ⟨⟩⟩ := Option.ite_none_left_eq_some.mp hp
    exact (eq_of_segments hl).trans (segments_id_rest _ _ _)
  · cases hp
    exact eq_of_segments hl
  · obtain ⟨-, ⟨⟩⟩ := Option.ite_none_left_eq_some.mp hp
    exact (eq_of_segments hl).trans (segments_id _ _)
  · cases hp
    exact eq_of_segments hl
  · cases hp
    exact eq_of_segments hl
  · cases hp
    exact eq_of_segments hl
  · cases hp
    exact eq_of_segments hl
  · cases hp

/-- No method makes an admin's change under one of the exempt paths. -/
theorem not_changes_of_exempt
    (hx : ["/auth/login", "/setup", "/connector/disconnect"].contains rest = true)
    (hp : apiPath rest = some path) (he : path.endpoint method = some endpoint) :
    endpoint.changes = false := by
  simp only [List.contains_iff_mem, List.mem_cons, List.not_mem_nil, or_false] at hx
  rcases hx with rfl | rfl | rfl
  · obtain rfl : ApiPath.authLogin = path := Option.some_inj.mp hp
    cases method <;> cases he
    rfl
  · obtain rfl : ApiPath.setup = path := Option.some_inj.mp hp
    cases method <;> cases he
    rfl
  · obtain rfl : ApiPath.connectorDisconnect = path := Option.some_inj.mp hp
    cases method <;> cases he
    rfl

theorem not_changes_of_safe (hm : [Method.get, .head, .options].contains method = true)
    (he : path.endpoint method = some endpoint) : endpoint.changes = false := by
  simp only [List.contains_iff_mem, List.mem_cons, List.not_mem_nil, or_false] at hm
  rcases hm with rfl | rfl | rfl <;> cases path <;> cases he <;> rfl

/-- A request that is not exempt has to show the token of the session that `verify_admin` looks at. -/
theorem enforceApiCsrf_iff {headers : Headers}
    (hm : [Method.get, .head, .options].contains method = false)
    (hp : ["/auth/login", "/setup", "/connector/disconnect"].contains rest = false) :
    enforceApiCsrf g method rest headers = true ↔ ∃ sid token, adminSession headers = some sid ∧
      (headers.get "x-csrf-token").bind toStr = some token ∧
      g.sessions.validateAdminCsrf g.now sid token = true := by
  simp only [enforceApiCsrf, hm, hp, Bool.false_or]
  rw [show csrfSession headers = adminSession headers from rfl]
  cases (headers.get "x-csrf-token").bind toStr with
  | none => simp
  | some token =>
    cases adminSession headers with
    | none => simp
    | some sid => simp

theorem verifyAdmin_iff {headers : Headers} : (verifyAdmin g headers).2 = true ↔
    g.initialized = true ∧ ∃ sid, adminSession headers = some sid ∧
      (g.sessions.validateAdminSession g.now sid).2 = true := by
  unfold verifyAdmin
  split
  · rename_i hi
    cases adminSession headers with
    | none => simp
    | some sid => simp [hi]
  · rename_i hi
    simp [hi]

theorem csrf_of_changes (hp : apiPath rest = some path) (he : path.endpoint method = some endpoint)
    (hc : endpoint.changes = true) {headers : Headers}
    (hx : enforceApiCsrf g method rest headers = true) :
    ∃ sid session, csrfSession headers = some sid ∧ g.sessions.get sid = some session ∧
      adminSessionExpired g.now session = false ∧
      (headers.get "x-csrf-token").bind toStr = some session.csrfToken := by
  have hsafe := mt (not_changes_of_safe · he) (by simp [hc])
  have hexempt := mt (not_changes_of_exempt · hp he) (by simp [hc])
  obtain ⟨sid, token, hs, ht, hx⟩ :=
    (enforceApiCsrf_iff (Bool.eq_false_iff.mpr hsafe) (Bool.eq_false_iff.mpr hexempt)).mp hx
  obtain ⟨session, hget, hexpired, rfl⟩ := (Sessions.validateAdminCsrf_iff _ _ _).mp hx
  exact ⟨sid, session, hs, hget, hexpired, ht⟩

theorem path_of_setup (hp : apiPath rest = some path) (he : path.endpoint method = some .postSetup) :
    method = .post ∧ rest = "/setup" := by
  unfold ApiPath.endpoint at he
  split at he <;> cases he
  exact ⟨rfl, eq_of_apiPath hp⟩

theorem path_of_disconnect (hp : apiPath rest = some path)
    (he : path.endpoint method = some .connectorDisconnect) :
    method = .post ∧ rest = "/connector/disconnect" := by
  unfold ApiPath.endpoint at he
  split at he <;> cases he
  exact ⟨rfl, eq_of_apiPath hp⟩

theorem path_of_connect (hp : apiPath rest = some path)
    (he : path.endpoint method = some .connectorConnect) : rest = "/connector/connect" := by
  unfold ApiPath.endpoint at he
  split at he <;> cases he <;> exact eq_of_apiPath hp

end Dispatch

end X2rp.Admin
