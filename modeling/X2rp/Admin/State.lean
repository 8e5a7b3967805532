import Mathlib.Data.Finmap
import X2rp.Admin.Target
import X2rp.View

/-! What the server stores, and the route table it derives from it. -/
namespace X2rp.Admin

open Proto

/-- `lastSeen` is a time; the times themselves do not matter here. -/
structure Connector where
  id : String
  name : String
  tokenHash : String
  forceWss : Bool := false
  lastSeen : Option Nat := none
deriving DecidableEq, Repr

structure Resource where
  id : String
  subdomain : String
  target : String
  enabled : Bool := true
  connectorId : Option String := none
  allowedClientCidrs : List String := []
deriving DecidableEq, Repr

structure AppState where
  connectors : Finmap (fun _ : String => Connector) := ∅
  resources : List Resource := []
  domain : String := ""

/-- Parse allowlist entries: a CIDR or a bare address. Blank entries are skipped; anything else
unparseable is an error. -/
def Allowlist.parse (E : Env) (entries : List String) : Except String (List IpNet) :=
  ((entries.map trim).filter (· ≠ "")).mapM fun entry =>
    match E.parseNet entry, E.parseAddr entry with
    | some net, _ => .ok net
    | none, some addr => .ok (.ofAddr addr)
    | none, none => .error ("invalid client allowlist entry: " ++ entry)

def parseAllowlist (E : Env) (entries : List String) : Except StatusCode (List String) :=
  match Allowlist.parse E entries with
  | .ok nets => .ok (nets.map E.displayNet)
  | .error _ => .error .badRequest

/-- Proxy configuration for a single resource; `allowedClients` is `none` when the stored entries
no longer parse. -/
structure ProxyResource where
  subdomain : String
  target : String
  connectorId : Option String
  allowedClients : Option (List IpNet)
deriving DecidableEq, Repr

def ProxyResource.fromResource (E : Env) (resource : Resource) : ProxyResource where
  subdomain := resource.subdomain
  target := resource.target
  connectorId := resource.connectorId
  allowedClients := (Allowlist.parse E resource.allowedClientCidrs).toOption

/-- `ProxyContext.resources`, by full host name. -/
abbrev Routes := String → Option ProxyResource

namespace Routes

variable (E : Env) (domain : String) (routes : Routes)

def setResource (resource : ProxyResource) : Routes :=
  Function.update routes (E.fqdn domain resource.subdomain) (some resource)

def removeResource (subdomain : String) : Routes :=
  Function.update routes (E.fqdn domain subdomain) none

def publish (resource : Resource) : Routes :=
  if resource.enabled then setResource E domain routes (.fromResource E resource)
  else removeResource E domain routes resource.subdomain

theorem publish_apply {E : Env} {domain : String} {routes : Routes} (resource : Resource)
    (h : resource.enabled = true) : routes.publish E domain resource
      (E.fqdn domain resource.subdomain) = some (.fromResource E resource) := by
  simp [publish, h, setResource, ProxyResource.fromResource]

end Routes

/-- The route load of `run_server`, into the table that is there. -/
def loadRoutes (E : Env) (s : AppState) (routes : Routes) : Routes :=
  (s.resources.filter Resource.enabled).foldl
    (fun routes resource => routes.setResource E s.domain (.fromResource E resource)) routes

/-- The routes as a view of the stored resources. -/
def routing (E : Env) (domain : String) : View.Schema Resource String ProxyResource where
  key resource := E.fqdn domain resource.subdomain
  keep := Resource.enabled
  val := .fromResource E

theorem loadRoutes_eq (E : Env) (s : AppState) (routes : Routes) :
    loadRoutes E s routes = (routing E s.domain).fill routes s.resources := rfl

theorem publish_eq (E : Env) (domain : String) (routes : Routes) (resource : Resource) :
    routes.publish E domain resource = (routing E domain).put routes resource := by
  cases h : resource.enabled <;>
    simp [Routes.publish, View.Schema.put, routing, Routes.setResource, Routes.removeResource,
      ProxyResource.fromResource, h]

def subdomainInUse (resources : List Resource) (candidate : String) (excludeId : Option String) :
    Bool :=
  resources.any fun resource =>
    excludeId != some resource.id && eqIgnoreAsciiCase resource.subdomain candidate

structure CreateResourceRequest where
  subdomain : String
  target : String
  connectorId : Option String := none
  allowedClientCidrs : List String := []
deriving DecidableEq

structure UpdateResourceRequest where
  subdomain : Option String := none
  target : Option String := none
  enabled : Option Bool := none
  /-- Outer `none` is a missing field, `some none` a JSON null. -/
  connectorId : Option (Option String) := none
  allowedClientCidrs : Option (List String) := none
deriving DecidableEq

/-- `create_resource` up to `validate_target`. The record gets its id when it is stored. -/
def CreateResourceRequest.draft (E : Env) (req : CreateResourceRequest) :
    Except StatusCode Resource := do
  let subdomain := normalizeSubdomain req.subdomain
  validateSubdomain subdomain
  let connectorId := normalizeConnectorId req.connectorId
  let allowedClientCidrs ← parseAllowlist E req.allowedClientCidrs
  return { id := "", subdomain, target := req.target, connectorId, allowedClientCidrs }

/-- `update_resource` before its snapshot: the request with its names and blocks in stored form. -/
def UpdateResourceRequest.checked (E : Env) (req : UpdateResourceRequest) :
    Except StatusCode UpdateResourceRequest := do
  let subdomain := req.subdomain.map normalizeSubdomain
  if let some subdomain := subdomain then validateSubdomain subdomain
  let allowedClientCidrs ← req.allowedClientCidrs.mapM (parseAllowlist E)
  return { req with
    subdomain, allowedClientCidrs, connectorId := req.connectorId.map normalizeConnectorId }

/-- The fields that a checked request names over those of the record its snapshot found. -/
def UpdateResourceRequest.merge (req : UpdateResourceRequest) (current : Resource) : Resource where
  id := current.id
  subdomain := req.subdomain.getD current.subdomain
  target := req.target.getD current.target
  enabled := req.enabled.getD current.enabled
  connectorId := req.connectorId.getD current.connectorId
  allowedClientCidrs := req.allowedClientCidrs.getD current.allowedClientCidrs

/-- What `create_connector` asks of a name. -/
def isValidConnectorName (E : Env) (name : String) : Bool :=
  name ≠ "" && name.utf8ByteSize ≤ 64 &&
    name.toList.all fun c => E.isAlphanumeric c || c == '-' || c == '_'

end X2rp.Admin
