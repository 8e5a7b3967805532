import X2rp.Admin.Registry
import X2rp.Admin.State
import X2rp.Http

/-! The HTTPS edge up to its choice of an upstream: which resource a request is for, whether its
client may have it, and what is forwarded. -/
namespace X2rp.Proxy

open Proto Admin Http

/-- The admin API as an upstream. -/
def adminApiTarget : String := "http://127.0.0.1:8800"

/-- Not a label, so no resource can have it. -/
def adminSubdomain : String := "_admin"

/-- The host in a `Host` header, without its port or the brackets of an IPv6 literal. -/
def hostHeaderHostname (raw : String) : String :=
  match raw.toList with
  | '[' :: rest => .ofList (rest.takeWhile fun c => c ≠ ']')
  | chars => .ofList (chars.takeWhile fun c => c ≠ ':')

def clientIpFromPeer (E : Env) (addr : Option SocketAddr) : String :=
  (addr.map fun addr => E.displayAddr addr.ip.toCanonical).getD "unknown"

/-- The key of a client's budget: its IPv4 address, or the /64 of its IPv6 address. -/
def clientKey (E : Env) (clientIp : String) : String :=
  match E.parseAddr clientIp with
  | some (.v6 addr) =>
    match addr.toIpv4Mapped with
    | some addr => E.displayAddr (.v4 addr)
    | none => E.displayAddr (.v6 (addr &&& (BitVec.allOnes 128 <<< 64))) ++ "/64"
  | _ => clientIp

def isAuthSensitivePath (path : String) : Bool := "/api/auth/".toList.isPrefixOf path.toList

/-- The client's own id for its request, if it is short and plain. -/
def requestIdFromHeaders (headers : Headers) (fresh : String) : String :=
  (((headers.get "x-request-id").bind toStr).map trim |>.filter fun id =>
    1 ≤ id.utf8ByteSize && id.utf8ByteSize ≤ 128 &&
      id.toList.all fun c => c.isAlphanum || c == '-' || c == '_').getD fresh

def contains (net : IpNet) (ip : IpAddr) : Bool :=
  match net.addr, ip with
  | .v4 block, .v4 addr => InBlock addr block net.prefixLen
  | .v6 block, .v6 addr => InBlock addr block net.prefixLen
  | _, _ => false

/-- An empty allowlist admits everyone. -/
def admits (allowlist : List IpNet) (client : IpAddr) : Bool :=
  allowlist.isEmpty || allowlist.any fun net => contains net client.toCanonical

def isAdmin (resource : ProxyResource) : Bool := resource.subdomain == adminSubdomain

/-- The admin console. -/
def admin : ProxyResource where
  subdomain := adminSubdomain
  target := adminApiTarget
  connectorId := none
  allowedClients := some []

/-- What the edge reads of a request. -/
structure Request where
  path : String
  headers : Headers
  client : Option SocketAddr

/-- The name that a request is routed by. -/
def Request.host (req : Request) : String :=
  toAsciiLowercase ((((req.headers.get "host").bind toStr).map hostHeaderHostname).getD "")

/-- Only `x2rp.` and the domain is the admin console; the domain alone is not. -/
def isAdminHost (domain host : String) : Bool :=
  (host.toList.dropPrefix? "x2rp.".toList) == some domain.toList

/-- The route for a host: the name it stands under, and its resource. -/
def select (domain : String) (routes : Routes) (host : String) : Option (String × ProxyResource) :=
  if isAdminHost domain host then some ("x2rp." ++ domain, admin)
  else (routes host).map fun resource => (host, resource)

inductive Tier
  | general
  | auth
deriving DecidableEq, Repr

/-- A connection to the session `manager`, and the target to ask it for. -/
structure RelayConnect where
  manager : Nat
  target : String
deriving DecidableEq, Repr

structure RequestCtx where
  resource : Option ProxyResource := none
  clientIp : String := ""
  requestId : String := ""
  relay : Option RelayConnect := none
deriving DecidableEq

/-- `request_filter`: the answer that ends the request here, or what it goes on with. `check`
spends from the client's budget in a tier. -/
def requestFilter (E : Env) (domain : String) (routes : Routes) (connectors : Managers)
    (check : Tier → String → Bool) (fresh : String) (req : Request) :
    Except StatusCode RequestCtx := do
  let requestId := requestIdFromHeaders req.headers fresh
  let clientIp := clientIpFromPeer E req.client
  let tier := if isAdminHost domain req.host && isAuthSensitivePath req.path then .auth else .general
  if !check tier (clientKey E clientIp) then throw .tooManyRequests
  let some (_, resource) := select domain routes req.host | throw .notFound
  let admitted := resource.allowedClients.any fun nets => (E.parseAddr clientIp).any (admits nets)
  if !admitted then throw .forbidden
  let relay ← match resource.connectorId with
    | none => pure none
    | some id =>
      match connectors id with
      | none => throw .serviceUnavailable
      | some manager => pure (some ⟨manager, resource.target⟩)
  return { resource := some resource, clientIp, requestId, relay }

/-- The headers that the origin sees. -/
def upstreamRequestFilter (ctx : RequestCtx) (headers : Headers) : Headers :=
  let headers := headers.remove "forwarded"
  let headers := headers.insert "x-forwarded-for" ctx.clientIp
  let headers := headers.insert "x-real-ip" ctx.clientIp
  let headers := headers.insert "x-forwarded-proto" "https"
  let headers := (headers.get "host").elim headers (headers.insert "x-forwarded-host")
  if ctx.relay.isSome && !headers.containsKey "upgrade" then headers.insert "connection" "close"
  else headers

variable {domain host k raw : String} {routes : Routes} {resource : ProxyResource}

theorem isAdminHost_iff : isAdminHost domain host = true ↔ host = "x2rp." ++ domain := by
  rw [isAdminHost, beq_iff_eq, dropPrefix?_iff, ← String.toList_inj, String.toList_append]

/-- A route stands under the very name that it is looked up by. -/
theorem select_name (h : select domain routes host = some (k, resource)) : k = host := by
  unfold select at h
  split at h
  · rename_i ha
    cases h
    exact (isAdminHost_iff.mp ha).symm
  · simp only [Option.map_eq_some_iff, Prod.mk.injEq] at h
    obtain ⟨_, -, rfl, -⟩ := h
    rfl

/-- A `Host` without brackets in front, and with nothing but digits after its first colon. -/
def PlainHost (raw : String) : Prop :=
  raw.toList.head? ≠ some '[' ∧
    ((raw.toList.dropWhile fun c => c ≠ ':').drop 1).all Char.isDigit = true

theorem toAsciiLowercase_digits {digits : String} (h : digits.toList.all Char.isDigit = true) :
    toAsciiLowercase digits = digits := by
  have hc : ∀ c ∈ digits.toList, c.toLower = c := by
    intro c hc
    have hd := List.all_eq_true.mp h c hc
    simp only [Char.isDigit, Bool.and_eq_true, decide_eq_true_eq] at hd
    refine dif_neg fun hu => ?_
    have h1 : c.toNat ≤ 57 := UInt32.le_iff_toNat_le.mp hd.2
    have h2 : 65 ≤ c.toNat := UInt32.le_iff_toNat_le.mp hu.1
    omega
  apply String.toList_inj.mp
  rw [toAsciiLowercase, String.toList_ofList]
  exact (List.map_congr_left hc).trans (List.map_id' _)

theorem hostHeaderHostname_plain (h : raw.toList.head? ≠ some '[') :
    (hostHeaderHostname raw).toList = raw.toList.takeWhile fun c => c ≠ ':' := by
  unfold hostHeaderHostname
  split
  · rename_i he
    simp [he] at h
  · simp

theorem plainHost_cases (h : PlainHost raw) : raw = hostHeaderHostname raw ∨
    ∃ digits : String, digits.toList.all Char.isDigit = true ∧
      raw = hostHeaderHostname raw ++ ":" ++ digits := by
  obtain ⟨hb, hd⟩ := h
  have hsplit := List.takeWhile_append_dropWhile (p := fun c => decide (c ≠ ':')) (l := raw.toList)
  have hhead := List.head_dropWhile_not (fun c => decide (c ≠ ':')) (l := raw.toList)
  rw [← hostHeaderHostname_plain hb] at hsplit
  generalize (raw.toList.dropWhile fun c => c ≠ ':') = rest at hd hsplit hhead
  cases rest with
  | nil => exact .inl (String.toList_inj.mp (by simpa using hsplit.symm))
  | cons c rest =>
    -- What ends the name can only be the colon.
    obtain rfl : c = ':' := not_not.mp (of_decide_eq_false (hhead (by simp)))
    refine .inr ⟨.ofList rest, by simpa using hd, String.toList_inj.mp ?_⟩
    simpa using hsplit.symm

/-- Only letters change their case. -/
theorem eq_of_toLower_eq {c d : Char} (hd : d.toNat < 97) (h : c.toLower = d) : c = d := by
  by_cases hc : c.val ≥ 'A'.val ∧ c.val ≤ 'Z'.val
  · obtain ⟨hlow, h1, -⟩ := toNat_toLower hc
    rw [h] at hlow
    omega
  · exact (dif_neg hc).symm.trans h

theorem isDigit_of_toLower {c : Char} (h : c.toLower.isDigit = true) : c.isDigit = true := by
  have hd := h
  simp only [Char.isDigit, Bool.and_eq_true, decide_eq_true_eq] at hd
  have hle : c.toLower.toNat ≤ 57 := UInt32.le_iff_toNat_le.mp hd.2
  rwa [← eq_of_toLower_eq (by omega) rfl] at h

/-- Every header but these passes as it is. -/
theorem upstreamRequestFilter_other (ctx : RequestCtx) (headers : Headers) {name : String}
    (h : name ∉ ["forwarded", "x-forwarded-for", "x-real-ip", "x-forwarded-proto",
      "x-forwarded-host", "connection"]) :
    (upstreamRequestFilter ctx headers).get name = headers.get name := by
  simp only [List.mem_cons, List.not_mem_nil, or_false, not_or] at h
  obtain ⟨h1, h2, h3, h4, h5, h6⟩ := h
  have hfront : ∀ (front : Headers) (value : Option String),
      (value.elim front (front.insert "x-forwarded-host")).get name = front.get name := by
    intro front value
    cases value with
    | none => rfl
    | some value => exact Headers.get_insert_of_ne h5
  unfold upstreamRequestFilter
  dsimp only
  split
  · rw [Headers.get_insert_of_ne h6, hfront, Headers.get_insert_of_ne h4,
      Headers.get_insert_of_ne h3, Headers.get_insert_of_ne h2, Headers.get_remove_of_ne h1]
  · rw [hfront, Headers.get_insert_of_ne h4, Headers.get_insert_of_ne h3,
      Headers.get_insert_of_ne h2, Headers.get_remove_of_ne h1]

theorem upstreamRequestFilter_forwardedHost (ctx : RequestCtx) {headers : Headers}
    (h : headers.get "host" = some raw) :
    (upstreamRequestFilter ctx headers).get "x-forwarded-host" = some raw := by
  unfold upstreamRequestFilter
  dsimp only
  have hget : ((((headers.remove "forwarded").insert "x-forwarded-for" ctx.clientIp).insert
      "x-real-ip" ctx.clientIp).insert "x-forwarded-proto" "https").get "host" = some raw := by
    rw [Headers.get_insert_of_ne (by decide), Headers.get_insert_of_ne (by decide),
      Headers.get_insert_of_ne (by decide), Headers.get_remove_of_ne (by decide), h]
  rw [hget, Option.elim_some]
  split
  · rw [Headers.get_insert_of_ne (by decide), Headers.get_insert_self]
  · rw [Headers.get_insert_self]

/-- The header value is the name `k`, in any case, or `k` and a port. -/
def Names (raw k : String) : Prop :=
  toAsciiLowercase raw = k ∨ ∃ digits : String, digits.toList.all Char.isDigit = true ∧
    toAsciiLowercase raw = k ++ ":" ++ digits

instance (raw k : String) : Decidable (Names raw k) :=
  decidable_of_iff ((toAsciiLowercase raw).toList.dropPrefix? k.toList = some [] ∨
      ((toAsciiLowercase raw).toList.dropPrefix? (k ++ ":").toList).any
        (fun digits => digits.all Char.isDigit) = true) <| by
    refine or_congr ?_ ?_
    · rw [dropPrefix?_iff, List.append_nil, String.toList_inj]
    · simp only [Option.any_eq_true, dropPrefix?_iff]
      constructor
      · rintro ⟨digits, he, hd⟩
        exact ⟨.ofList digits, by simpa using hd, String.toList_inj.mp (by simpa using he)⟩
      · rintro ⟨digits, hd, he⟩
        exact ⟨digits.toList, by simp [he], hd⟩

theorem names_of_plainHost (h : PlainHost raw) :
    Names raw (toAsciiLowercase (hostHeaderHostname raw)) := by
  rcases plainHost_cases h with he | ⟨digits, hd, he⟩
  · exact .inl (congrArg toAsciiLowercase he)
  · refine .inr ⟨digits, hd, ?_⟩
    conv_lhs => rw [he]
    rw [toAsciiLowercase_append, toAsciiLowercase_append, toAsciiLowercase_digits hd]
    rfl

/-- A bracket is no part of the name that is cut out behind it. -/
theorem not_names_bracket {rest : List Char} (hraw : raw.toList = '[' :: rest) :
    ¬ Names raw (toAsciiLowercase (hostHeaderHostname raw)) := by
  have hname : (toAsciiLowercase (hostHeaderHostname raw)).toList =
      (rest.takeWhile fun c => c ≠ ']').map Char.toLower := by
    simp [hostHeaderHostname, hraw, toAsciiLowercase]
  have hlower : (toAsciiLowercase raw).toList = '[' :: rest.map Char.toLower := by
    simp only [toAsciiLowercase, hraw, String.toList_ofList, List.map_cons]
    rfl
  have hlen := (List.takeWhile_prefix (l := rest) fun c => decide (c ≠ ']')).length_le
  rintro (h | ⟨digits, hd, h⟩)
  · have h := congrArg String.toList h
    rw [hlower, hname] at h
    have := congrArg List.length h
    simp only [List.length_cons, List.length_map] at this
    omega
  · have h := congrArg String.toList h
    rw [String.toList_append, String.toList_append, hlower, hname, List.append_assoc] at h
    by_cases hclose : ']' ∈ rest
    · -- The closing bracket is in none of the parts.
      have hmem : ']' ∈ '[' :: rest.map Char.toLower :=
        List.mem_cons_of_mem _ (List.mem_map.mpr ⟨']', hclose, by decide⟩)
      rw [h, List.mem_append, List.mem_append] at hmem
      rcases hmem with hmem | hmem | hmem
      · obtain ⟨c, hc, he⟩ := List.mem_map.mp hmem
        obtain rfl := eq_of_toLower_eq (by decide) he
        simpa using List.mem_takeWhile_imp hc
      · revert hmem
        decide
      · exact absurd (List.all_eq_true.mp hd ']' hmem) (by decide)
    · -- Everything behind the opening bracket is the name, and there is no room for a colon.
      have hall : rest.takeWhile (fun c => decide (c ≠ ']')) = rest := by
        refine List.takeWhile_eq_self_iff.mpr fun c hc => decide_eq_true ?_
        rintro rfl
        exact hclose hc
      rw [hall] at h
      have hempty : digits.toList = [] := by
        have hcolon : (":" : String).toList.length = 1 := rfl
        have := congrArg List.length h
        simp only [List.length_cons, List.length_map, List.length_append] at this
        exact List.length_eq_zero_iff.mp (by omega)
      have hcount := congrArg (List.count ':') h
      rw [hempty, List.append_nil, List.count_append, List.count_cons_of_ne (by decide)] at hcount
      exact absurd hcount (by simp)

theorem plainHost_of_names (h : Names raw (toAsciiLowercase (hostHeaderHostname raw))) :
    PlainHost raw := by
  have hb : raw.toList.head? ≠ some '[' := by
    intro hb
    obtain ⟨rest, hrest⟩ := List.head?_eq_some_iff.mp hb
    exact not_names_bracket hrest h
  refine ⟨hb, List.all_eq_true.mpr fun c hc => isDigit_of_toLower ?_⟩
  have hsplit := List.takeWhile_append_dropWhile (p := fun c => decide (c ≠ ':')) (l := raw.toList)
  rw [← hostHeaderHostname_plain hb] at hsplit
  have hlower : (toAsciiLowercase raw).toList = (toAsciiLowercase (hostHeaderHostname raw)).toList ++
      (raw.toList.dropWhile fun c => c ≠ ':').map Char.toLower := by
    simp only [toAsciiLowercase, String.toList_ofList, ← List.map_append, hsplit]
  generalize (raw.toList.dropWhile fun c => c ≠ ':') = behind at hc hlower
  have hmem : c.toLower ∈ (behind.map Char.toLower).drop 1 := by
    rw [← List.map_drop]
    exact List.mem_map_of_mem hc
  rcases h with h | ⟨digits, hd, h⟩
  · rw [h, List.self_eq_append_right] at hlower
    simp [hlower] at hmem
  · rw [h, String.toList_append, String.toList_append, List.append_assoc, List.append_cancel_left_eq]
      at hlower
    rw [← hlower] at hmem
    exact List.all_eq_true.mp hd _ hmem

theorem names_iff_plainHost :
    Names raw (toAsciiLowercase (hostHeaderHostname raw)) ↔ PlainHost raw :=
  ⟨plainHost_of_names, names_of_plainHost⟩

/-- A `Host` for which a route is selected is the name of that route, with or without a port, if and
only if it has no bracket in front and only digits behind its first colon. Whatever it is, the
origin gets to see all of it. -/
theorem forwards_routed_host (domain : String) (routes : Routes) (req : Request) {raw k : String}
    {resource : ProxyResource} (hraw : req.headers.get "host" = some raw)
    (ht : toStr raw = some raw) (hs : select domain routes req.host = some (k, resource))
    (ctx : RequestCtx) :
    (Names raw k ↔ PlainHost raw) ∧
      (upstreamRequestFilter ctx req.headers).get "host" = some raw ∧
      (upstreamRequestFilter ctx req.headers).get "x-forwarded-host" = some raw := by
  obtain rfl : k = toAsciiLowercase (hostHeaderHostname raw) := by
    rw [select_name hs, Request.host, hraw, Option.bind_some, ht]
    rfl
  refine ⟨names_iff_plainHost, ?_, upstreamRequestFilter_forwardedHost ctx hraw⟩
  rw [upstreamRequestFilter_other ctx req.headers (by decide), hraw]

/-- A table with one route. -/
def sampleRoutes : Routes :=
  Function.update (fun _ => none) "app.example.com"
    (some ⟨"app", "http://127.0.0.1:8080", none, some []⟩)

def requestFor (host : String) : Request := ⟨"/", [("host", host)], none⟩

theorem forwards_routed_host_port :
    (∃ resource, select "example.com" sampleRoutes (requestFor "App.Example.com:8443").host =
        some ("app.example.com", resource)) ∧
      Names "App.Example.com:8443" "app.example.com" ∧
      (upstreamRequestFilter {} (requestFor "App.Example.com:8443").headers).get
        "x-forwarded-host" = some "App.Example.com:8443" := by
  have h := @forwards_routed_host "example.com" sampleRoutes (requestFor "App.Example.com:8443")
    "App.Example.com:8443" "app.example.com" _ rfl (by decide) rfl {}
  exact ⟨⟨_, rfl⟩, h.1.mpr ⟨by decide, by decide⟩, h.2.2⟩

/-- Behind a bracket, or behind a colon, a client may put what it likes: the request is routed by
what comes before, and the origin builds its URLs from all of it. -/
theorem client_chosen_host_forwarded :
    (∃ resource, select "example.com" sampleRoutes
        (requestFor "[x2rp.example.com]evil.com").host = some ("x2rp.example.com", resource) ∧
      ¬ Names "[x2rp.example.com]evil.com" "x2rp.example.com" ∧
      (upstreamRequestFilter {} (requestFor "[x2rp.example.com]evil.com").headers).get
        "x-forwarded-host" = some "[x2rp.example.com]evil.com") ∧
    ∃ resource, select "example.com" sampleRoutes
        (requestFor "app.example.com:evil.com").host = some ("app.example.com", resource) ∧
      ¬ Names "app.example.com:evil.com" "app.example.com" ∧
      (upstreamRequestFilter {} (requestFor "app.example.com:evil.com").headers).get
        "x-forwarded-host" = some "app.example.com:evil.com" := by
  exact ⟨⟨admin, by decide, by decide, by decide⟩, _, rfl, by decide, by decide⟩

end X2rp.Proxy
