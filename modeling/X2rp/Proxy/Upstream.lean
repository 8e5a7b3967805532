import X2rp.Admin.RouteTable
import X2rp.Expiry
import X2rp.Proxy.Gateway

/-! Where the edge connects to: a relay, or an origin on this host whose name is resolved anew
every minute at least. -/
namespace X2rp.Proxy

open Proto Admin Http Expiry

variable {E : Env}

/-- A minute, in nanoseconds. -/
def dnsCacheTtl : Nat := 60 * 10 ^ 9

/-- Host, port, and whether to use TLS. -/
def parseTargetUrl (E : Env) (target : String) : Option (String × UInt16 × Bool) := do
  let uri ← E.parseUri target
  let tls ← match ← uri.scheme with
    | "https" => some true
    | "http" => some false
    | _ => none
  let host ← uri.host
  return (stripBrackets host, uri.port.getD (if tls then 443 else 80), tls)

inductive Peer
  /-- The path only tells pooled connections apart. -/
  | relay (path : String) (connect : RelayConnect)
  | direct (addr : SocketAddr) (tls : Bool) (sni : String)
deriving DecidableEq

inductive PeerError
  | internalError
  | connectError
deriving DecidableEq, Repr

/-- A name to be looked up for a direct peer. -/
structure Lookup where
  host : String
  port : UInt16
  tls : Bool
deriving DecidableEq

/-- The key of a name and a port in the cache, and the question to the resolver. -/
def dnsKey (host : String) (port : UInt16) : String := host ++ ":" ++ toString port.toNat

/-- How `upstream_peer` ends, as far as it gets without the resolver. -/
inductive Outcome
  | done (result : Except PeerError Peer)
  | lookup (l : Lookup)

abbrev DnsCache := Table String (List SocketAddr)

/-- The direct peer at the first of the addresses that may be one. -/
def directPeer (tls : Bool) (host : String) (addrs : List SocketAddr) : Except PeerError Peer :=
  match addrs.find? fun addr => isLocalDirectTargetIp addr.ip with
  | some addr => .ok (.direct addr tls host)
  | none => .error .connectError

/-- `upstream_peer` up to its lookup. A literal address is its own answer. -/
def upstreamPeer (E : Env) (cache : DnsCache) (now : Nat) (ctx : RequestCtx) : Outcome :=
  match ctx.resource with
  | none => .done (.error .internalError)
  | some resource =>
    match ctx.relay with
    | some relay => .done (.ok (.relay ("/x2rp-relay/" ++ resource.subdomain) relay))
    | none =>
      match parseTargetUrl E resource.target with
      | none => .done (.error .connectError)
      | some (host, port, tls) =>
        if !isAdmin resource && port == adminApiPort then .done (.error .connectError)
        else
          match E.parseAddr host with
          | some ip => .done (directPeer tls host [⟨ip, port⟩])
          | none =>
            match cache.get dnsCacheTtl now (dnsKey host port) with
            | some addrs => .done (directPeer tls host addrs)
            | none => .lookup ⟨host, port, tls⟩

/-- The resolver's answer to a question, and when it came. -/
structure Answer where
  host : String
  port : UInt16
  time : Nat
  addrs : List SocketAddr
deriving DecidableEq

/-- `requests` have passed `request_filter`, and `lookups` wait for the resolver. `answers` are
all that it has given, oldest first. -/
structure Edge where
  now : Nat := 0
  routes : Routes
  connectors : Managers := fun _ => none
  cache : DnsCache := fun _ => none
  requests : List RequestCtx := []
  lookups : List (RequestCtx × Lookup) := []
  answers : List Answer := []

inductive EdgeEvent
  | internal
  | refused (req : Request) (status : StatusCode)
  | peer (ctx : RequestCtx) (result : Except PeerError Peer)

namespace Edge

/-- Requests in any order, whatever the routes are at any time, whatever the resolver says, and
however long it all takes. The resolver's addresses have the port that was asked for. -/
inductive Step (E : Env) (domain : String) : Edge → EdgeEvent → Edge → Prop
  | wait {s : Edge} {d : Nat} : Step E domain s .internal { s with now := s.now + d }
  | publish {s : Edge} {routes : Routes} : Step E domain s .internal { s with routes }
  | connect {s : Edge} {connectors : Managers} : Step E domain s .internal { s with connectors }
  | maintenanceTick {s : Edge} :
      Step E domain s .internal { s with cache := s.cache.retain dnsCacheTtl s.now }
  | filter {s : Edge} {check : Tier → String → Bool} {fresh : String} {req : Request}
      {ctx : RequestCtx}
      (hf : requestFilter E domain s.routes s.connectors check fresh req = .ok ctx) :
      Step E domain s .internal { s with requests := s.requests ++ [ctx] }
  | refuse {s : Edge} {check : Tier → String → Bool} {fresh : String} {req : Request}
      {status : StatusCode}
      (hf : requestFilter E domain s.routes s.connectors check fresh req = .error status) :
      Step E domain s (.refused req status) s
  -- A request stays: when it cannot connect, it may ask for a peer again.
  | peer {s : Edge} {ctx : RequestCtx} {result : Except PeerError Peer} (hr : ctx ∈ s.requests)
      (hp : upstreamPeer E s.cache s.now ctx = .done result) :
      Step E domain s (.peer ctx result) s
  | lookup {s : Edge} {ctx : RequestCtx} {l : Lookup} (hr : ctx ∈ s.requests)
      (hp : upstreamPeer E s.cache s.now ctx = .lookup l) :
      Step E domain s .internal { s with lookups := s.lookups ++ [(ctx, l)] }
  | answered {s : Edge} {ctx : RequestCtx} {l : Lookup} {addrs : List SocketAddr}
      (hl : (ctx, l) ∈ s.lookups) (hport : ∀ addr ∈ addrs, addr.port = l.port) :
      Step E domain s (.peer ctx (directPeer l.tls l.host addrs))
        { s with
          lookups := s.lookups.erase (ctx, l)
          cache := s.cache.insert s.now (dnsKey l.host l.port) addrs
          answers := s.answers ++ [⟨l.host, l.port, s.now, addrs⟩] }
  | unanswered {s : Edge} {ctx : RequestCtx} {l : Lookup} (hl : (ctx, l) ∈ s.lookups) :
      Step E domain s (.peer ctx (.error .connectError))
        { s with lookups := s.lookups.erase (ctx, l) }
  -- The client may go away at any time.
  | abandon {s : Edge} {ctx : RequestCtx} :
      Step E domain s .internal { s with requests := s.requests.erase ctx }
  | abandonLookup {s : Edge} {ctx : RequestCtx} {l : Lookup} :
      Step E domain s .internal { s with lookups := s.lookups.erase (ctx, l) }

/-- A process starts with nothing resolved; its routes may be any. -/
structure Init (s : Edge) : Prop where
  cache : s.cache = fun _ => none
  lookups : s.lookups = []
  answers : s.answers = []

def system (E : Env) (domain : String) : LTS Edge EdgeEvent := ⟨Init, Step E domain⟩

end Edge

section Key

variable {host host' : String} {port port' : UInt16}

theorem colon_notMem_toString (n : Nat) : ':' ∉ (toString n).toList := by
  intro h
  rw [Nat.toString_eq_ofList_toDigits, String.toList_ofList] at h
  exact absurd (Nat.isDigit_of_mem_toDigits (by decide) (by decide) h) (by decide)

theorem append_colon_inj {a b c d : List Char} (hb : ':' ∉ b) (hd : ':' ∉ d)
    (h : a ++ ':' :: b = c ++ ':' :: d) : a = c ∧ b = d := by
  rcases List.append_eq_append_iff.mp h with ⟨l, rfl, hl⟩ | ⟨l, rfl, hl⟩ <;>
    cases l with
    | nil => simpa [eq_comm] using hl
    | cons x l => simp_all

/-- Neither a host nor a port can be mistaken for another, whatever the host looks like. -/
theorem dnsKey_inj (h : dnsKey host port = dnsKey host' port') : host = host' ∧ port = port' := by
  have h := congrArg String.toList h
  simp only [dnsKey, String.toList_append, List.append_assoc] at h
  obtain ⟨hh, hp⟩ := append_colon_inj (colon_notMem_toString _) (colon_notMem_toString _) h
  refine ⟨String.toList_inj.mp hh, UInt16.toNat_inj.mp ?_⟩
  have hn := congrArg (fun digits => Nat.ofDigitChars 10 digits 0) hp
  simpa [Nat.toString_eq_ofList_toDigits] using hn

end Key

section Peer

variable {cache : DnsCache} {now : Nat} {ctx : RequestCtx} {addr : SocketAddr}
  {addrs : List SocketAddr} {tls : Bool} {sni : String} {l : Lookup} {resource : ProxyResource}

/-- The request goes straight to the target of its resource, and not to the admin API unless it is
for the console. -/
structure Targets (E : Env) (ctx : RequestCtx) (resource : ProxyResource) (l : Lookup) : Prop where
  routed : ctx.resource = some resource
  target : parseTargetUrl E resource.target = some (l.host, l.port, l.tls)
  port : isAdmin resource = false → l.port ≠ adminApiPort

/-- All that `upstream_peer` can come to. -/
inductive Peered (E : Env) (cache : DnsCache) (now : Nat) (ctx : RequestCtx) : Outcome → Prop
  | failed (e : PeerError) : Peered E cache now ctx (.done (.error e))
  | relay (path : String) (connect : RelayConnect) (h : ctx.relay = some connect) :
      Peered E cache now ctx (.done (.ok (.relay path connect)))
  | literal {resource : ProxyResource} {l : Lookup} {ip : IpAddr} (h : Targets E ctx resource l)
      (ha : E.parseAddr l.host = some ip) :
      Peered E cache now ctx (.done (directPeer l.tls l.host [⟨ip, l.port⟩]))
  | cached {resource : ProxyResource} {l : Lookup} {addrs : List SocketAddr}
      (h : Targets E ctx resource l) (ha : E.parseAddr l.host = none)
      (hc : cache.get dnsCacheTtl now (dnsKey l.host l.port) = some addrs) :
      Peered E cache now ctx (.done (directPeer l.tls l.host addrs))
  | lookup {resource : ProxyResource} {l : Lookup} (h : Targets E ctx resource l)
      (ha : E.parseAddr l.host = none) : Peered E cache now ctx (.lookup l)

theorem peered (E : Env) (cache : DnsCache) (now : Nat) (ctx : RequestCtx) :
    Peered E cache now ctx (upstreamPeer E cache now ctx) := by
  unfold upstreamPeer
  split
  · exact .failed _
  · rename_i resource hr
    split
    · exact .relay _ _ ‹_›
    · split
      · exact .failed _
      · rename_i host port tls hp
        split
        · exact .failed _
        · rename_i hadmin
          have h : Targets E ctx resource ⟨host, port, tls⟩ :=
            ⟨hr, hp, fun ha hport => hadmin (by rw [ha, show port = adminApiPort from hport]; rfl)⟩
          split
          · rename_i ip ha
            exact .literal h ha
          · rename_i ha
            split
            · rename_i addrs hc
              exact .cached h ha hc
            · exact .lookup h ha

/-- Every use of an address checks it again. -/
theorem directPeer_ok (h : directPeer tls sni addrs = .ok (.direct addr tls' sni')) :
    addr ∈ addrs ∧ isLocalDirectTargetIp addr.ip = true ∧ tls' = tls ∧ sni' = sni := by
  unfold directPeer at h
  split at h
  · rename_i hf
    cases h
    have hlocal := List.find?_some hf
    exact ⟨List.mem_of_find?_eq_some hf, hlocal, rfl, rfl⟩
  · cases h

end Peer

/-- As the cache holds an answer. -/
def Answer.entry (a : Answer) : String × Nat × List SocketAddr :=
  (dnsKey a.host a.port, a.time, a.addrs)

namespace Edge

variable {domain : String} {s t : Edge} {e : EdgeEvent} {ctx : RequestCtx} {addr : SocketAddr}
  {tls : Bool} {sni host : String} {resource : ProxyResource} {l : Lookup}

/-- The cache holds nothing but answers, and nobody waits for a lookup who has not been through
the checks before it. -/
structure Traced (E : Env) (s : Edge) : Prop where
  cache : s.cache.From (s.answers.map Answer.entry) s.now
  ports : ∀ a ∈ s.answers, ∀ addr ∈ a.addrs, addr.port = a.port
  lookups : ∀ ctx l, (ctx, l) ∈ s.lookups →
    ∃ resource, Targets E ctx resource l ∧ E.parseAddr l.host = none

theorem traced_step (h : Traced E s) (hs : Step E domain s e t) : Traced E t := by
  cases hs with
  | wait => exact ⟨h.cache.mono (Nat.le_add_right _ _), h.ports, h.lookups⟩
  | maintenanceTick => exact ⟨h.cache.retain, h.ports, h.lookups⟩
  | @lookup ctx l hr hp =>
    refine ⟨h.cache, h.ports, fun ctx' l' hl => ?_⟩
    rcases List.mem_append.mp hl with hl | hl
    · exact h.lookups ctx' l' hl
    · cases List.mem_singleton.mp hl
      have hpeer := peered E s.cache s.now ctx
      rw [hp] at hpeer
      cases hpeer with
      | lookup ht ha => exact ⟨_, ht, ha⟩
  | answered hl hport =>
    refine ⟨?_, ?_, fun ctx' l' hl' => h.lookups ctx' l' (List.mem_of_mem_erase hl')⟩
    · rw [List.map_append]
      exact h.cache.insert
    · intro a ha
      rcases List.mem_append.mp ha with ha | ha
      · exact h.ports a ha
      · cases List.mem_singleton.mp ha
        exact hport
  | unanswered hl =>
    exact ⟨h.cache, h.ports, fun ctx' l' hl' => h.lookups ctx' l' (List.mem_of_mem_erase hl')⟩
  | abandonLookup =>
    exact ⟨h.cache, h.ports, fun ctx' l' hl' => h.lookups ctx' l' (List.mem_of_mem_erase hl')⟩
  | _ => exact ⟨h.cache, h.ports, h.lookups⟩

theorem traced (h : (system E domain).Reachable s) : Traced E s := by
  refine h.invariant (fun s hi => ?_) fun _ _ _ => traced_step
  refine ⟨?_, by simp [hi.answers], by simp [hi.lookups]⟩
  rw [hi.cache]
  rintro k t v ⟨⟩

/-- An answer that is less than a minute old has this address for the host and the port. -/
def Answered (s : Edge) (host : String) (addr : SocketAddr) : Prop :=
  ∃ a ∈ s.answers, a.host = host ∧ a.port = addr.port ∧ addr ∈ a.addrs ∧ a.time ≤ s.now ∧
    s.now < a.time + dnsCacheTtl

/-- What stands in the cache has been answered, for this host and no other. -/
theorem Traced.answered (h : Traced E s) {port : UInt16} {addrs : List SocketAddr}
    (hc : s.cache.get dnsCacheTtl s.now (dnsKey host port) = some addrs) (ha : addr ∈ addrs) :
    addr.port = port ∧ s.Answered host addr := by
  obtain ⟨time, hlog, hle, hlt⟩ := h.cache.get hc
  obtain ⟨a, hmem, he⟩ := List.mem_map.mp hlog
  simp only [Answer.entry, Prod.mk.injEq] at he
  obtain ⟨hk, rfl, rfl⟩ := he
  obtain ⟨rfl, rfl⟩ := dnsKey_inj hk
  have hport := h.ports a hmem addr ha
  exact ⟨hport, a, hmem, rfl, hport.symm, ha, hle, hlt⟩

/-- A direct peer is on this host, at the port of the target, and either the target's own literal
or a recent answer for its name. -/
theorem direct_of_step (h : Traced E s)
    (hs : Step E domain s (.peer ctx (.ok (.direct addr tls sni))) t) :
    isLocalDirectTargetIp addr.ip = true ∧ ∃ resource, Targets E ctx resource ⟨sni, addr.port, tls⟩ ∧
      (E.parseAddr sni = some addr.ip ∨ E.parseAddr sni = none ∧ t.Answered sni addr) := by
  generalize hres : Except.ok (Peer.direct addr tls sni) = result at hs
  cases hs with
  | peer hr hp =>
    have hpeer := peered E s.cache s.now ctx
    rw [hp] at hpeer
    cases hpeer with
    | failed => cases hres
    | relay => cases hres
    | literal ht ha =>
      obtain ⟨hmem, hlocal, rfl, rfl⟩ := directPeer_ok hres.symm
      cases List.mem_singleton.mp hmem
      exact ⟨hlocal, _, ht, .inl ha⟩
    | cached ht ha hc =>
      obtain ⟨hmem, hlocal, rfl, rfl⟩ := directPeer_ok hres.symm
      obtain ⟨hport, hans⟩ := h.answered hc hmem
      exact ⟨hlocal, _, by rwa [hport], .inr ⟨ha, hans⟩⟩
  | @answered _ l addrs hl hport =>
    obtain ⟨hmem, hlocal, rfl, rfl⟩ := directPeer_ok hres.symm
    obtain ⟨resource, ht, ha⟩ := h.lookups _ _ hl
    have hp := hport addr hmem
    refine ⟨hlocal, resource, hp ▸ ht, .inr ⟨ha, _, List.mem_append_right _ List.mem_cons_self, rfl,
      hp.symm, hmem, Nat.le_refl _, ?_⟩⟩
    exact Nat.lt_add_of_pos_right (by decide)
  | unanswered => cases hres

end Edge

section Console

variable {domain host : String} {routes : Routes}

theorem select_admin_iff :
    select domain routes host = some ("x2rp." ++ domain, admin) ↔ host = "x2rp." ++ domain := by
  constructor
  · intro h
    exact (select_name h).symm
  · intro h
    rw [select, if_pos (isAdminHost_iff.mpr h)]

theorem subdomain_ne_admin {subdomain : String} (h : SubdomainOk subdomain) :
    subdomain ≠ adminSubdomain := by
  rintro rfl
  exact absurd h.label (by decide)

theorem isAdmin_fromResource {r : Resource} (h : r.subdomain ≠ adminSubdomain) :
    isAdmin (.fromResource E r) = false := by
  simpa [isAdmin, ProxyResource.fromResource] using h

/-- A server that starts on records of any kind, as long as none has the console's own name. -/
structure Unclaimed (s : Server) : Prop where
  waiting : s.waiting = []
  holder : s.holder = none
  routes : s.routes = fun _ => none
  state : ∀ r ∈ s.state.resources, r.subdomain ≠ adminSubdomain
  file : ∀ r ∈ s.file.resources, r.subdomain ≠ adminSubdomain

theorem unclaimed {s : Server} (h : (Server.system E Unclaimed).Reachable s) :
    s.Labels (· ≠ adminSubdomain) := by
  refine h.invariant (fun s hs => ?_) fun _ _ _ => Server.labels_step fun _ => subdomain_ne_admin
  exact ⟨hs.state, hs.file, by simp [hs.holder], by simp [hs.holder], by simp [hs.waiting],
    by simp [hs.routes]⟩

/-- Among the routes of a server, only the console is one. -/
theorem isAdmin_iff {s : Server} (h : s.Labels (· ≠ adminSubdomain)) {k : String}
    {resource : ProxyResource} (hs : select domain s.routes host = some (k, resource)) :
    isAdmin resource = true ↔ host = "x2rp." ++ domain := by
  unfold select at hs
  split at hs
  · rename_i ha
    cases hs
    exact iff_of_true rfl (isAdminHost_iff.mp ha)
  · rename_i ha
    simp only [Option.map_eq_some_iff, Prod.mk.injEq] at hs
    obtain ⟨_, hr, -, rfl⟩ := hs
    refine iff_of_false ?_ fun hh => ha (isAdminHost_iff.mpr hh)
    simpa [isAdmin] using h.routes host _ hr

end Console

/-- Without a connector a resource is reached on this host only, whatever its record says and
whatever its name resolves to from one time to the next; and the console, which alone may be at
the admin API, is what its host leads to and no stored resource is. -/
theorem direct_upstreams_local (E : Env) :
    (∀ domain s t ctx resource addr tls sni, (Edge.system E domain).Reachable s →
      Edge.Step E domain s (.peer ctx (.ok (.direct addr tls sni))) t →
      ctx.resource = some resource → isAdmin resource = false →
      addr.ip.toCanonical.isLoopback = true ∧ addr.port ≠ adminApiPort ∧
        ∃ host, parseTargetUrl E resource.target = some (host, addr.port, tls) ∧
          (E.parseAddr host = some addr.ip ∨
            E.parseAddr host = none ∧ t.Answered host addr)) ∧
    (∀ domain routes (req : Request),
      select domain routes req.host = some ("x2rp." ++ domain, admin) ↔
        req.host = "x2rp." ++ domain) ∧
    (∀ (req : CreateResourceRequest) draft id, req.draft E = .ok draft →
      isAdmin (.fromResource E { draft with id }) = false) ∧
    ∀ s, (Server.system E Unclaimed).Reachable s →
      (∀ r ∈ s.state.resources, isAdmin (.fromResource E r) = false) ∧
      ∀ domain (req : Request) k resource, select domain s.routes req.host = some (k, resource) →
        (isAdmin resource = true ↔ req.host = "x2rp." ++ domain) := by
  refine ⟨?_, fun _ _ _ => select_admin_iff, ?_, fun s hs => ⟨fun r hr => ?_, ?_⟩⟩
  · intro domain s t ctx resource addr tls sni hs hstep hr ha
    obtain ⟨hlocal, resource', ht, hfrom⟩ := Edge.direct_of_step (Edge.traced hs) hstep
    obtain rfl : resource' = resource := Option.some_inj.mp (ht.routed.symm.trans hr)
    exact ⟨hlocal, ht.port ha, sni, ht.target, hfrom⟩
  · intro req draft id hd
    exact isAdmin_fromResource (subdomain_ne_admin (draft_ok hd :))
  · exact isAdmin_fromResource ((unclaimed hs).state r hr)
  · intro domain req k resource hsel
    exact isAdmin_iff (unclaimed hs) hsel

section Runs

/-- Here the target is a name. -/
def localhostEnv : Env :=
  { sampleEnv with
    parseUri := fun target =>
      if target = "http://localhost:3000" then
        some ⟨some "http", some "localhost", some 3000, some ("/", none)⟩
      else none }

def localhostRoute : ProxyResource := ⟨"app", "http://localhost:3000", none, some []⟩

def localhostRoutes : Routes := Function.update (fun _ => none) "app.example.com" (some localhostRoute)

def loopbackClient : SocketAddr := ⟨.v4 (.new 127 0 0 1), 40000⟩

def localhostCtx : RequestCtx :=
  { resource := some localhostRoute, clientIp := "127.0.0.1", requestId := "req" }

def localhostAddr : SocketAddr := ⟨.v4 (.new 127 0 0 1), 3000⟩

/-- Almost a minute after the first answer. -/
def resolved : Edge where
  now := 59 * 10 ^ 9
  routes := localhostRoutes
  cache := Table.insert (fun _ => none) 0 (dnsKey "localhost" 3000) [localhostAddr]
  requests := [localhostCtx]
  answers := [⟨"localhost", 3000, 0, [localhostAddr]⟩]

theorem resolved_reachable : (Edge.system localhostEnv "example.com").Reachable resolved := by
  let s : Edge := { routes := localhostRoutes, requests := [localhostCtx] }
  let l : Lookup := ⟨"localhost", 3000, false⟩
  have h0 : (Edge.system localhostEnv "example.com").Reachable { routes := localhostRoutes } :=
    .init ⟨rfl, rfl, rfl⟩
  have h1 : (Edge.system localhostEnv "example.com").Reachable s :=
    h0.step <| @Edge.Step.filter _ _ _ (fun _ _ => true) "req"
      ⟨"/", [("host", "app.example.com")], some loopbackClient⟩ localhostCtx rfl
  have h2 : (Edge.system localhostEnv "example.com").Reachable
      { s with lookups := [(localhostCtx, l)] } :=
    h1.step <| @Edge.Step.lookup _ _ _ localhostCtx l (List.mem_singleton_self _) rfl
  have h3 := h2.step <| @Edge.Step.answered _ _ _ localhostCtx l [localhostAddr]
    (List.mem_singleton_self _) (by decide)
  rw [List.erase_cons_head] at h3
  have h4 := h3.step <| @Edge.Step.wait _ _ _ (59 * 10 ^ 9)
  exact h4

theorem direct_upstreams_local_cached :
    Edge.Step localhostEnv "example.com" resolved
        (.peer localhostCtx (.ok (.direct localhostAddr false "localhost"))) resolved ∧
      localhostAddr.ip.toCanonical.isLoopback = true ∧
      ∃ host, parseTargetUrl localhostEnv "http://localhost:3000" = some (host, 3000, false) ∧
        (localhostEnv.parseAddr host = some localhostAddr.ip ∨
          localhostEnv.parseAddr host = none ∧ resolved.Answered host localhostAddr) := by
  have hp : Edge.Step localhostEnv "example.com" resolved
      (.peer localhostCtx (.ok (.direct localhostAddr false "localhost"))) resolved :=
    .peer (List.mem_singleton_self _) rfl
  obtain ⟨hlocal, -, hfrom⟩ := (direct_upstreams_local localhostEnv).1 _ _ _ _ localhostRoute _ _ _
    resolved_reachable hp rfl (by decide)
  exact ⟨hp, hlocal, hfrom⟩

end Runs

end X2rp.Proxy
