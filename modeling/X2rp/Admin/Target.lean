import X2rp.Admin.Names
import X2rp.Proto.Ssrf

/-! What a resource may point at. -/
namespace X2rp.Admin

open Proto

structure IpNet where
  addr : IpAddr
  prefixLen : Nat
deriving DecidableEq, Repr

/-- `IpNet::from`: the block of one address. -/
def IpNet.ofAddr : IpAddr → IpNet
  | .v4 addr => ⟨.v4 addr, 32⟩
  | .v6 addr => ⟨.v6 addr, 128⟩

/-- The parts of a parsed URI that are read. -/
structure Uri where
  scheme : Option String
  host : Option String
  port : Option UInt16
  pathAndQuery : Option (String × Option String)
deriving DecidableEq

/-- What the server uses of other crates, of text forms and of Unicode: URIs, addresses and
blocks, SHA-256 in hex, and the alphanumeric characters. -/
structure Env extends Lowering where
  parseUri : String → Option Uri
  parseNet : String → Option IpNet
  parseAddr : String → Option IpAddr
  displayAddr : IpAddr → String
  displayNet : IpNet → String
  hashToken : String → String
  isAlphanumeric : Char → Bool

/-- Port the admin API binds, and the one port no proxied origin may point at. -/
def adminApiPort : UInt16 := 8800

/-- Take away `[` and `]`, if the host has both. -/
def stripBrackets (host : String) : String :=
  match host.toList with
  | '[' :: rest => if rest.getLast? = some ']' then .ofList rest.dropLast else host
  | _ => host

variable (E : Env)

/-- Unbracketed host, port, and whether to use TLS. -/
def parseHttpTargetHostPort (target : String) : Except String (String × UInt16 × Bool) := do
  let some uri := E.parseUri target | throw "Invalid target URL"
  let some scheme := uri.scheme | throw "Invalid scheme"
  let tls ← match scheme with
    | "http" => pure false
    | "https" => pure true
    | _ => throw "Invalid scheme"
  if uri.pathAndQuery.any fun pq => !(pq.1 == "" || pq.1 == "/") || pq.2.isSome then
    throw "Target must not include a path or query"
  let some host := uri.host | throw "Missing host"
  return (stripBrackets host, uri.port.getD (if tls then 443 else 80), tls)

/-- The gate for targets on this host. `answer` is what the name resolves to, if it does in
time. -/
def checkSsrfLocal (answer : Option (List SocketAddr)) (port : UInt16) : Except String Unit :=
  if port = adminApiPort then
    .error "Targets on this host must not use the local admin API port"
  else
    match answer with
    | none | some [] => .error "Target hostname could not be resolved"
    | some addrs =>
      if addrs.all fun addr => isLocalDirectTargetIp addr.ip then .ok ()
      else .error ("Targets without a connector must be on this host (127.0.0.1 / ::1 / " ++
        "localhost); use a connector for LAN or remote services")

/-- The gate for targets behind a connector. -/
def checkSsrfStrict (host : String) : Except String Unit :=
  match E.parseAddr host with
  | some ip =>
    if isStrictlyDangerousIp ip then .error "Target is a restricted link-local/metadata IP"
    else .ok ()
  | none => .ok ()

/-- Shape and SSRF gate, before any state lock is taken. -/
def validateTarget (answer : Option (List SocketAddr)) (target : String)
    (connectorId : Option String) : Except StatusCode Unit :=
  match parseHttpTargetHostPort E target with
  | .error _ => .error .badRequest
  | .ok (host, port, tls) =>
    if (E.parseAddr host).isNone && !isValidHost host then .error .badRequest
    else if connectorId.isSome && tls then .error .badRequest
    else
      let ssrf := match connectorId with
        | some _ => checkSsrfStrict E host
        | none => checkSsrfLocal answer port
      ssrf.mapError fun _ => .forbidden

/-- What the gate promises of a target: behind a connector, plain http and no forbidden literal;
on this host, neither the admin API nor, as the name resolved at the time, another host. -/
def TargetOk (answer : Option (List SocketAddr)) (target : String) : Option String → Prop
  | some _ => ∃ host port, parseHttpTargetHostPort E target = .ok (host, port, false) ∧
      ∀ ip, E.parseAddr host = some ip → isStrictlyDangerousIp ip = false
  | none => ∃ host port tls addrs, parseHttpTargetHostPort E target = .ok (host, port, tls) ∧
      port ≠ adminApiPort ∧ answer = some addrs ∧ addrs ≠ [] ∧
      ∀ addr ∈ addrs, isLocalDirectTargetIp addr.ip = true

variable {E} {answer : Option (List SocketAddr)} {target : String} {connectorId : Option String}

theorem checkSsrfLocal_ok {port : UInt16} (h : checkSsrfLocal answer port = .ok ()) :
    port ≠ adminApiPort ∧ ∃ addrs, answer = some addrs ∧ addrs ≠ [] ∧
      ∀ addr ∈ addrs, isLocalDirectTargetIp addr.ip = true := by
  unfold checkSsrfLocal at h
  split at h
  · cases h
  · rename_i hport
    refine ⟨hport, ?_⟩
    match answer, h with
    | some (addr :: addrs), h =>
      refine ⟨addr :: addrs, rfl, by simp, ?_⟩
      dsimp only at h
      split at h
      · rename_i hall
        exact List.all_eq_true.mp hall
      · cases h

theorem checkSsrfStrict_ok {host : String} (h : checkSsrfStrict E host = .ok ()) :
    ∀ ip, E.parseAddr host = some ip → isStrictlyDangerousIp ip = false := by
  intro ip hip
  rw [checkSsrfStrict, hip] at h
  cases hd : isStrictlyDangerousIp ip with
  | false => rfl
  | true => simp [hd] at h

theorem mapError_eq_ok {ε δ α : Type} {x : Except ε α} {f : ε → δ} {a : α} :
    x.mapError f = .ok a ↔ x = .ok a := by
  cases x <;> simp [Except.mapError]

/-- A target that passes the gate is as the gate promises. -/
theorem targetOk_of_validateTarget (h : validateTarget E answer target connectorId = .ok ()) :
    TargetOk E answer target connectorId := by
  unfold validateTarget at h
  split at h
  · cases h
  · rename_i host port tls hp
    split at h
    · cases h
    · split at h
      · cases h
      · rename_i htls
        cases connectorId with
        | some id =>
          obtain rfl : tls = false := by simpa using htls
          exact ⟨host, port, hp, checkSsrfStrict_ok (mapError_eq_ok.mp h)⟩
        | none =>
          obtain ⟨hport, addrs, ha⟩ := checkSsrfLocal_ok (mapError_eq_ok.mp h)
          exact ⟨host, port, tls, addrs, hp, hport, ha⟩

end X2rp.Admin
