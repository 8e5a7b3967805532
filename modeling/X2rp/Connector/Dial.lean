import Mathlib.Data.List.DropRight
import X2rp.Admin.Names
import X2rp.Connector.Backend
import X2rp.Connector.Reconnect
import X2rp.Hex
import X2rp.Http
import X2rp.Proto.Frame
import X2rp.Proto.Obfs

/-! Where the connector takes its token: the origin it is configured with, the addresses of that
origin, and the order in which the two transports try them. -/
namespace X2rp.Connector

open Admin Http Proto

section Origin

def badOrigin : String :=
  "Config error: server must be a bare HTTPS origin (https://host[:port])"

def trimEndMatches (c : Char) (s : String) : String := .ofList (s.toList.rdropWhile fun c' => c' == c)

/-- What no bare authority has. -/
def notInAuthority (c : Char) : Bool := c == '/' || c == '?' || c == '#' || c == '@'

/-- `https://host[:port]` with no path, query or credentials. -/
def normalizeServerOrigin (server : String) : Except String String :=
  let normalized := trimEndMatches '/' (trim server)
  match normalized.toList.dropPrefix? "https://".toList with
  | some host => if !host.isEmpty && !host.any notInAuthority then .ok normalized else .error badOrigin
  | none => .error badOrigin

/-- `str::replacen` with a count of one. -/
def replaceFirst (pattern replacement : List Char) : List Char → List Char
  | [] => []
  | c :: s =>
    match (c :: s).dropPrefix? pattern with
    | some rest => replacement ++ rest
    | none => c :: replaceFirst pattern replacement s

def settingsUrl (server : String) : String := server ++ "/api/connector/settings"

def connectUrl (server : String) : String :=
  .ofList (replaceFirst "https://".toList "wss://".toList server.toList) ++ "/api/connector/connect"

/-- The authority of an origin that was accepted. -/
structure BareAuthority (authority : String) : Prop where
  nonempty : authority ≠ ""
  plain : ∀ c ∈ authority.toList, notInAuthority c = false

variable {raw server authority token : String}

theorem rdropWhile_replicate {α : Type} {p : α → Bool} {a : α} {l : List α} (ha : p a = true)
    (hl : ∀ c ∈ l.getLast?, p c = false) (n : Nat) :
    (l ++ List.replicate n a).rdropWhile p = l := by
  induction n with
  | zero =>
    rw [List.replicate_zero, List.append_nil, List.rdropWhile_eq_self_iff]
    intro hne
    simpa using hl _ (List.getLast?_eq_some_getLast hne)
  | succ n ih => rw [List.replicate_succ', ← List.append_assoc, List.rdropWhile_concat_pos _ _ _ ha, ih]

theorem exists_replicate_of_rdropWhile {l : List Char} {c : Char} :
    ∃ n, l = l.rdropWhile (fun c' => c' == c) ++ List.replicate n c := by
  induction l using List.reverseRecOn with
  | nil => exact ⟨0, by simp⟩
  | append_singleton l c' ih =>
    by_cases hc : (c' == c) = true
    · obtain ⟨n, hn⟩ := ih
      refine ⟨n + 1, ?_⟩
      rw [List.rdropWhile_concat_pos (fun c' => c' == c) l c' hc, List.replicate_succ',
        ← List.append_assoc, ← hn, beq_iff_eq.mp hc]
    · exact ⟨0, by rw [List.rdropWhile_concat_neg (fun c' => c' == c) l c' hc]; simp⟩

/-- The origins that are accepted, up to blanks around them and slashes at their end. -/
theorem normalizeServerOrigin_eq_ok_iff : normalizeServerOrigin raw = .ok server ↔
    ∃ authority, BareAuthority authority ∧ server = "https://" ++ authority ∧
      ∃ n, (trim raw).toList = server.toList ++ List.replicate n '/' := by
  have hlast : ∀ {host : List Char}, host ≠ [] → (∀ c ∈ host, notInAuthority c = false) →
      ∀ c ∈ ("https://".toList ++ host).getLast?, (c == '/') = false := by
    intro host hne hplain c hc
    rw [List.getLast?_append_of_ne_nil _ hne] at hc
    have := hplain c (List.mem_of_getLast? hc)
    simp only [notInAuthority, Bool.or_eq_false_iff] at this
    exact this.1.1.1
  constructor
  · intro h
    simp only [normalizeServerOrigin] at h
    split at h
    · rename_i host hhost
      rw [dropPrefix?_iff] at hhost
      split at h
      · rename_i hok
        obtain rfl := Except.ok.inj h
        simp only [Bool.and_eq_true, Bool.not_eq_true', List.isEmpty_eq_false_iff, List.any_eq_false,
          Bool.not_eq_true] at hok
        refine ⟨.ofList host, ⟨?_, by simpa using hok.2⟩, ?_, ?_⟩
        · intro he
          exact hok.1 (by simpa using congrArg String.toList he)
        · exact String.toList_inj.mp (by simp [hhost])
        · obtain ⟨n, hn⟩ := @exists_replicate_of_rdropWhile (trim raw).toList '/'
          exact ⟨n, by simpa [trimEndMatches] using hn⟩
      · cases h
    · cases h
  · rintro ⟨authority, ⟨hne, hplain⟩, rfl, n, hn⟩
    have hne' : authority.toList ≠ [] := by simpa using hne
    have hnorm : trimEndMatches '/' (trim raw) = "https://" ++ authority := by
      apply String.toList_inj.mp
      rw [trimEndMatches, hn, String.toList_ofList]
      refine rdropWhile_replicate (by decide) ?_ n
      rw [String.toList_append]
      exact hlast hne' hplain
    simp only [normalizeServerOrigin, hnorm]
    have hdrop : ("https://" ++ authority).toList.dropPrefix? "https://".toList =
        some authority.toList := by
      rw [dropPrefix?_iff, String.toList_append]
    rw [hdrop]
    have hany : authority.toList.any notInAuthority = false := by simpa using hplain
    simp [hany, hne]

end Origin

/-- The header value that a connector shows its token in. -/
def bearerAuth (token : String) : String := "Bearer " ++ token

/-- How both ends read the obfuscation secret. -/
def obfuscationKey (secret : String) : Option Obfs.Secret :=
  (Hex.decode secret).bind fun bytes =>
    if h : bytes.length = 32 then some ⟨bytes.toArray, by simpa using h⟩ else none

theorem obfuscationKey_encode (secret : Obfs.Secret) :
    obfuscationKey (Hex.encode secret.toList) = some secret := by
  have hlen : secret.toList.length = 32 := by simp
  rw [obfuscationKey, Hex.decode_encode, Option.bind_some, dif_pos hlen, Option.some_inj]
  exact Vector.toList_inj.mp (by simp)

/-- What leaves the connector with the token in it. -/
inductive Sent
  /-- A request for the settings. -/
  | settings (url authorization : String)
  /-- A WebSocket handshake at an address. -/
  | websocket (addr : SocketAddr) (url authorization : String)
  /-- The first frame of a QUIC connection to an address, which has shown that it is `serverName`. -/
  | quic (addr : SocketAddr) (serverName : String) (secret : Obfs.Secret) (frame : Bytes)
deriving DecidableEq

/-- What a session depends on outside of the connector, besides the network of `connect_backend`. -/
structure World (τ : Type*) extends Network τ where
  /-- `with_platform_verifier`. -/
  verifier : Except IoError Unit
  /-- The socket, the handshake and the first stream. -/
  openQuic : SocketAddr → String → Obfs.Secret → Except IoError Unit
  /-- What becomes of the frame. -/
  writeAll : SocketAddr → Except IoError Unit
  /-- `into_client_request` and the parse of the header's value. -/
  clientRequest : String → String → Except IoError Unit
  /-- TCP and TLS, each in time. -/
  secure : SocketAddr → String → Except IoError Unit
  /-- The answer to the handshake. -/
  upgrade : SocketAddr → Except IoError Unit

variable {τ α : Type*} (W : World τ) (server token : String)

/-- The loop of `connect_any`, with what each attempt has sent: the first address that connects, or
the last error. -/
def tryEach (attempt : SocketAddr → List Sent × Except IoError α) :
    IoError → List SocketAddr → List Sent × Except IoError α
  | lastError, [] => ([], .error lastError)
  | _, addr :: rest =>
    match attempt addr with
    | (sent, .ok value) => (sent, .ok value)
    | (sent, .error err) =>
      let (sent', result) := tryEach attempt err rest
      (sent ++ sent', result)

/-- None if the resolver never answers. -/
def connectAny (attempt : SocketAddr → List Sent × Except IoError α) :
    Option (List Sent × Except IoError α) :=
  match hostPort W.toNetwork server with
  | .error e => some ([], .error e)
  | .ok (host, port) => (W.lookupHost host port).map fun
    | .error e => ([], .error ⟨.other, e⟩)
    | .ok resolved => tryEach attempt ⟨.other, "Could not resolve " ++ host⟩ resolved

/-- `connect_to_addr`. Nobody looks at the kind of the error. -/
def connectToAddr (serverName : String) (secret : Obfs.Secret) (addr : SocketAddr) :
    List Sent × Except IoError Unit :=
  match W.openQuic addr serverName secret, (Message.auth token).frame with
  | .error e, _ => ([], .error e)
  | .ok (), .error e => ([], .error ⟨.other, e.message⟩)
  | .ok (), .ok frame => ([.quic addr serverName secret frame], W.writeAll addr)

/-- `transport_quic::connect`. -/
def quicConnect (obfuscationSecret : String) : Option (List Sent × Except IoError Unit) :=
  match W.verifier, obfuscationKey obfuscationSecret, hostPort W.toNetwork server with
  | .error e, _, _ => some ([], .error e)
  | .ok (), none, _ => some ([], .error ⟨.other, "invalid obfuscation secret"⟩)
  | .ok (), some _, .error e => some ([], .error e)
  | .ok (), some secret, .ok (serverName, _) =>
    connectAny W server (connectToAddr W token serverName secret)

/-- `transport_wss::connect`. -/
def wssConnect : Option (List Sent × Except IoError Unit) :=
  let url := connectUrl server
  let authorization := bearerAuth token
  match W.clientRequest url authorization with
  | .error e => some ([], .error e)
  | .ok () => connectAny W server fun addr =>
    match W.secure addr url with
    | .error e => ([], .error e)
    | .ok () => ([.websocket addr url authorization], W.upgrade addr)

/-- `run_session` up to the session that it comes to. -/
def runSession (config : TransportConfig) : Option (List Sent × Except IoError Transport) :=
  let wss := (wssConnect W server token).map fun (sent, result) => (sent, result.map fun _ => .wss)
  match config.first with
  | .wss => wss
  | .quic =>
    match quicConnect W server token config.obfuscationSecret with
    | none => none
    | some (sent, .ok ()) => some (sent, .ok .quic)
    | some (sent, .error _) => wss.map fun (sent', result) => (sent ++ sent', result)

/-- The rounds of `reconnect_loop`, each with the answer to its poll and with the world that its
session meets, up to a 401 or a lookup without an answer. -/
def sends (server token : String) : TransportConfig → List (Poll × World τ) → List Sent
  | _, [] => []
  | config, (poll, W) :: rounds =>
    .settings (settingsUrl server) (bearerAuth token) ::
      match config.polled poll with
      | none => []
      | some config =>
        match runSession W server token config with
        | none => []
        | some (sent, _) => sent ++ sends server token config rounds

/-- The addresses that the resolver has for the server. -/
def addresses : List SocketAddr := (answers W.toNetwork server).getD []

/-- A message of a session goes to the server and to nobody else. -/
def Sent.OfSession (config : TransportConfig) (authority : String) : Sent → Prop
  | .settings .. => False
  | .websocket addr url authorization => addr ∈ addresses W server ∧
      url = "wss://" ++ authority ++ "/api/connector/connect" ∧ authorization = bearerAuth token
  | .quic addr serverName secret frame => addr ∈ addresses W server ∧ config.first = .quic ∧
      (∃ port, hostPort W.toNetwork server = .ok (serverName, port)) ∧
      obfuscationKey config.obfuscationSecret = some secret ∧ (Message.auth token).frame = .ok frame

def Sent.addr? : Sent → Option SocketAddr
  | .settings .. => none
  | .websocket addr .. | .quic addr .. => some addr

def Sent.isQuic : Sent → Bool
  | .quic .. => true
  | _ => false

variable {W server token} {config : TransportConfig} {authority : String} {sent : List Sent}

section Attempts

variable {attempt : SocketAddr → List Sent × Except IoError α} {result : Except IoError α}
  {addrs : List SocketAddr}

end Attempts

/-- The messages of one transport: all go to the server, and to an address at most once. -/
structure FromTransport (W : World τ) (server token authority : String) (config : TransportConfig)
    (quic : Bool) (sent : List Sent) : Prop where
  ofSession : ∀ x ∈ sent, x.OfSession W server token config authority
  transport : ∀ x ∈ sent, x.isQuic = quic
  once : (sent.filterMap Sent.addr?).Sublist (addresses W server)

theorem FromTransport.nil {quic : Bool} : FromTransport W server token authority config quic [] :=
  ⟨by simp, by simp, List.nil_sublist _⟩

section Sample

end Sample

end X2rp.Connector
