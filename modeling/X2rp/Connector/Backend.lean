import X2rp.Proto.Ssrf

/-! How the connector reaches the backend that a `Connect` names. -/
namespace X2rp.Connector

open Proto

inductive ErrorKind
  | invalidInput
  | permissionDenied
  | timedOut
  | other
deriving DecidableEq, Repr

structure IoError where
  kind : ErrorKind
  message : String
deriving DecidableEq, Repr

/-- What is read of a parsed URL. -/
structure Url where
  hostStr : Option String
  portOrKnownDefault : Option UInt16

/-- What `connect_backend` asks of the URL crate, the resolver and the network. A question without
an answer is still open at the deadline. -/
structure Network (τ : Type*) where
  parseUrl : String → Except String Url
  lookupHost : String → UInt16 → Option (Except String (List SocketAddr))
  connect : List SocketAddr → Option (Except IoError τ)

def trimBrackets (s : String) : String :=
  let bracket (c : Char) := c == '[' || c == ']'
  .ofList ((s.toList.dropWhile bracket).reverse.dropWhile bracket).reverse

variable {τ : Type*} (N : Network τ)

/-- Host and port, the scheme's default unless given, of an http(s) URL. -/
def hostPort (url : String) : Except IoError (String × UInt16) :=
  match N.parseUrl url with
  | .error e => .error ⟨.invalidInput, url ++ ": " ++ e⟩
  | .ok u => .ok (trimBrackets (u.hostStr.getD ""), u.portOrKnownDefault.getD 443)

/-- The answers that may be dialled. -/
def safe (resolved : List SocketAddr) : List SocketAddr :=
  resolved.filter fun addr => !isStrictlyDangerousIp addr.ip

/-- With what it returns, each list of addresses that it hands to `TcpStream::connect`. -/
def connectBackend (target : String) : List (List SocketAddr) × Except IoError τ :=
  let late : IoError := ⟨.timedOut, "backend connect to " ++ target ++ " timed out after 20s"⟩
  match hostPort N target with
  | .error e => ([], .error e)
  | .ok (host, port) =>
    match N.lookupHost host port with
    | none => ([], .error late)
    | some (.error e) => ([], .error ⟨.other, "failed to resolve " ++ host ++ ": " ++ e⟩)
    | some (.ok resolved) =>
      if (safe resolved).isEmpty then
        let why := if resolved.isEmpty then "did not resolve to any address"
          else "resolved only to restricted addresses"
        ([], .error ⟨.permissionDenied, host ++ " " ++ why⟩)
      else ([safe resolved], (N.connect (safe resolved)).getD (.error late))

/-- The resolver's answer to a target, if there is one in time. -/
def answers (target : String) : Option (List SocketAddr) :=
  match hostPort N target with
  | .error _ => none
  | .ok (host, port) => (N.lookupHost host port).bind Except.toOption

variable {N} {target : String}

/-- Either the answers that are safe are dialled, all of them and at once, or none is and the call
fails. -/
theorem connectBackend_spec (N : Network τ) (target : String) :
    (∃ resolved, answers N target = some resolved ∧ safe resolved ≠ [] ∧
      (connectBackend N target).1 = [safe resolved]) ∨
    ((∀ resolved, answers N target = some resolved → safe resolved = []) ∧
      (connectBackend N target).1 = [] ∧ ∃ e, (connectBackend N target).2 = .error e) := by
  unfold connectBackend answers
  cases hostPort N target with
  | error e => exact .inr ⟨by simp, rfl, e, rfl⟩
  | ok hp =>
    obtain ⟨host, port⟩ := hp
    dsimp only
    generalize N.lookupHost host port = answer
    rcases answer with _ | e | resolved
    · exact .inr ⟨by simp, rfl, _, rfl⟩
    · exact .inr ⟨by simp [Except.toOption], rfl, _, rfl⟩
    · by_cases hs : safe resolved = []
      · exact .inr (by simp [hs, Except.toOption])
      · exact .inl ⟨resolved, by simp [hs, Except.toOption]⟩

/-- Whatever a target resolves to, only the answers that are not forbidden are dialled, in their
order, and no spelling of an address changes its verdict. -/
theorem never_dials_forbidden :
    (∀ target resolved, answers N target = some resolved →
      (safe resolved ≠ [] → (connectBackend N target).1 = [safe resolved]) ∧
      (safe resolved = [] →
        (connectBackend N target).1 = [] ∧ ∃ e, (connectBackend N target).2 = .error e)) ∧
    (∀ target, answers N target = none →
      (connectBackend N target).1 = [] ∧ ∃ e, (connectBackend N target).2 = .error e) ∧
    (∀ a : Ipv4Addr,
      isStrictlyDangerousIp (.v6 a.toIpv6Mapped) = isStrictlyDangerousIp (.v4 a) ∧
      isStrictlyDangerousIp (.v6 a.toNat64) = isStrictlyDangerousIp (.v4 a) ∧
      (isStrictlyDangerousIp (.v4 a) = true ↔ ForbiddenIpv4 a)) ∧
    ∀ addr : Ipv6Addr, (∀ a : Ipv4Addr, addr ≠ a.toIpv6Mapped ∧ addr ≠ a.toNat64) →
      (isStrictlyDangerousIp (.v6 addr) = true ↔ ForbiddenIpv6 addr) := by
  refine ⟨fun target resolved h => ?_, fun target h => ?_, fun a => ⟨?_, ?_, ?_⟩, ?_⟩
  · rcases connectBackend_spec N target with ⟨r, hr, hs, hd⟩ | ⟨hr, hd⟩
    · obtain rfl : resolved = r := Option.some_inj.mp (h.symm.trans hr)
      exact ⟨fun _ => hd, fun h => absurd h hs⟩
    · exact ⟨fun hs => absurd (hr resolved h) hs, fun _ => hd⟩
  · rcases connectBackend_spec N target with ⟨r, hr, -⟩ | ⟨-, hd⟩
    · simp [h] at hr
    · exact hd
  · exact isStrictlyDangerousIp_under (.inl rfl)
  · exact isStrictlyDangerousIp_under (.inr rfl)
  · exact isStrictlyDangerousIpv4_iff
  · intro addr hne
    rw [isStrictlyDangerousIp_v6_iff]
    refine or_iff_left ?_
    rintro ⟨a, h | h, -⟩
    exacts [(hne a).1 h, (hne a).2 h]

/-- A name with the metadata service under it, spelled in two ways, beside a LAN address. -/
def lanNetwork : Network Unit where
  parseUrl url := if url = "http://nas.lan:8080" then .ok ⟨some "nas.lan", some 8080⟩ else .error "no"
  lookupHost host _ := if host = "nas.lan" then some (.ok [
      ⟨.v6 (Ipv4Addr.new 169 254 169 254).toNat64, 8080⟩, ⟨.v4 (.new 192 168 1 10), 8080⟩,
      ⟨.v6 (Ipv4Addr.new 169 254 169 254).toIpv6Mapped, 8080⟩]) else some (.error "no such name")
  connect _ := some (.ok ())

theorem never_dials_forbidden_lan :
    (connectBackend lanNetwork "http://nas.lan:8080").1 =
      [[⟨.v4 (.new 192 168 1 10), 8080⟩]] := by
  have h := (never_dials_forbidden (N := lanNetwork)).1 "http://nas.lan:8080" _ rfl
  exact h.1 (by decide)

end X2rp.Connector
