import X2rp.Admin.Access
import X2rp.Admin.Cookies
import X2rp.Connector.Dial
import X2rp.Proto.Reader
import X2rp.Proxy.Clients
import X2rp.Proxy.Redirect

/-! How a connector finds its server and shows who it is: from the command that the console prints
to the handler that lets it in. -/
namespace X2rp.Connector

open Admin Http Proto Proxy

section Credentials

/-- `connector_get_settings` under the read lock; `find` is `connector_from_token`. -/
def connectorGetSettings (initialized : Bool) (obfuscationSecret : String)
    (find : String → Option Admin.Connector) (headers : Headers) :
    Except StatusCode ServerSettings := do
  if !initialized then throw .serviceUnavailable
  let some token := bearerToken headers | throw .unauthorized
  let some connector := find token | throw .unauthorized
  if obfuscationSecret = "" then throw .internalServerError
  return ⟨obfuscationSecret, connector.forceWss⟩

/-- `find` searches the map, in whatever order. -/
def Searches (E : Env) (s : AppState) (find : String → Option Admin.Connector) : Prop :=
  ∀ token, match find token with
    | some connector => s.ConnectorFromToken E token connector
    | none => ∀ connector, ¬ s.ConnectorFromToken E token connector

variable {headers : Headers} {token : String} {n : Nat}

theorem isAlphanum_randomHex {bytes : Vector UInt8 n} : ∀ c ∈ (randomHex bytes).toList,
    c.isAlphanum = true := fun _ => Hex.isAlphanum_of_mem

theorem utf8ByteSize_randomHex (bytes : Vector UInt8 n) : (randomHex bytes).utf8ByteSize = 2 * n := by
  simp [randomHex, Hex.utf8ByteSize_encode]

theorem obfuscationKey_randomHex (secret : Obfs.Secret) :
    obfuscationKey (randomHex secret) = some secret := obfuscationKey_encode secret

theorem visible_of_isAlphanum {c : Char} (h : c.isAlphanum = true) :
    32 ≤ c.toNat ∧ c.toNat < 127 ∧ c ≠ ' ' := by
  have hrange : ∀ {lo hi : UInt32}, lo ≤ c.val → c.val ≤ hi → 33 ≤ lo.toNat → hi.toNat < 127 →
      32 ≤ c.toNat ∧ c.toNat < 127 ∧ c ≠ ' ' := by
    intro lo hi hlo hhi hge hlt
    have h1 : lo.toNat ≤ c.toNat := UInt32.le_iff_toNat_le.mp hlo
    have h2 : c.toNat ≤ hi.toNat := UInt32.le_iff_toNat_le.mp hhi
    refine ⟨by omega, by omega, ?_⟩
    rintro rfl
    have h3 : ' '.toNat = 32 := rfl
    omega
  rcases Bool.or_eq_true_iff.mp h with h | h
  · rcases Bool.or_eq_true_iff.mp h with h | h
    · exact hrange (of_decide_eq_true h).1 (of_decide_eq_true h).2 (by decide) (by decide)
    · obtain ⟨h1, h2⟩ := Bool.and_eq_true_iff.mp h
      exact hrange (of_decide_eq_true h1) (of_decide_eq_true h2) (by decide) (by decide)
  · obtain ⟨h1, h2⟩ := Bool.and_eq_true_iff.mp h
    exact hrange (of_decide_eq_true h1) (of_decide_eq_true h2) (by decide) (by decide)

/-- A token that was issued comes out of the header as it went in. -/
theorem bearerToken_bearerAuth (hh : headers.get "authorization" = some (bearerAuth token))
    (hc : ∀ c ∈ token.toList, c.isAlphanum = true) (h1 : 1 ≤ token.utf8ByteSize)
    (h2 : token.utf8ByteSize ≤ maxAuthTokenLen) : bearerToken headers = some token := by
  have htext : toStr (bearerAuth token) = some (bearerAuth token) := by
    refine if_pos ?_
    rw [bearerAuth, String.toList_append, List.all_append, Bool.and_eq_true]
    refine ⟨by decide, List.all_eq_true.mpr fun c hmem => ?_⟩
    obtain ⟨h1, h2, -⟩ := visible_of_isAlphanum (hc c hmem)
    simp [h1, h2]
  have hsplit : splitOnce ' ' (bearerAuth token) = some ("Bearer", token) := by
    have hlist : (bearerAuth token).toList =
        ['B', 'e', 'a', 'r', 'e', 'r'] ++ ' ' :: token.toList := by
      simp [bearerAuth]
    simp [splitOnce, hlist]
  have hblank : token.toList.dropWhile (fun c => c = ' ') = token.toList := by
    rw [List.dropWhile_eq_self_iff]
    intro hlen he
    exact (visible_of_isAlphanum (hc _ (List.getElem_mem hlen))).2.2 (of_decide_eq_true he)
  have hscheme : eqIgnoreAsciiCase "Bearer" "bearer" = true := by decide
  simp only [bearerToken, hh, Option.bind_some, htext, hsplit, Option.bind_eq_bind, hblank,
    String.ofList_toList, hscheme, h1, h2]
  rfl

/-- The control stream's frame with the token reads back as it was written. -/
theorem readFrame_auth (h1 : 1 ≤ token.utf8ByteSize) (h2 : token.utf8ByteSize ≤ maxAuthTokenLen) :
    ∃ f, (Message.auth token).frame = .ok f ∧
      ∀ rest, readFrame (f ++ rest) = .ok (.auth token, rest) := by
  have hfits : (Message.auth token).Fits := ⟨h1, h2⟩
  have henc := Message.encode_eq_ok_iff.mpr ⟨hfits, rfl⟩
  have hframe := Message.frame_eq_ok_iff.mpr ⟨_, henc, rfl⟩
  exact ⟨_, hframe, fun rest => Message.readFrame_frame rest (by simp [Message.kind]) hframe⟩

theorem connectorGetSettings_eq {find : String → Option Admin.Connector} {secret : String}
    {connector : Admin.Connector} (ht : bearerToken headers = some token)
    (hf : find token = some connector) (hs : secret ≠ "") :
    connectorGetSettings true secret find headers = .ok ⟨secret, connector.forceWss⟩ := by
  simp [connectorGetSettings, ht, hf, hs, pure, Except.pure]

end Credentials

section Edge

variable {domain : String} {req : Proxy.Request}

/-- What a shell passes on as it is. -/
def ShellPlain (s : String) : Prop := ∀ c ∈ s.toList, IsHostChar c ∨ c = ':' ∨ c = '/'

theorem isHostChar_adminHost (hv : isValidHost domain = true) :
    ∀ c ∈ ("x2rp." ++ domain).toList, IsHostChar c := by
  intro c hc
  rw [String.toList_append, List.mem_append] at hc
  rcases hc with hc | hc
  · simp at hc
    rcases hc with rfl | rfl | rfl | rfl | rfl <;> decide
  · exact isHostChar_of_isValidHost hv c hc

theorem bareAuthority_adminHost (hv : isValidHost domain = true) :
    BareAuthority ("x2rp." ++ domain) := by
  refine ⟨by simp, fun c hc => ?_⟩
  by_contra hbad
  simp only [notInAuthority, Bool.not_eq_false, Bool.or_eq_true, beq_iff_eq] at hbad
  have := isHostChar_adminHost hv c hc
  rcases hbad with ((rfl | rfl) | rfl) | rfl <;> revert this <;> decide

/-- The server in the command. -/
def adminOrigin (domain : String) : String := "https://" ++ ("x2rp." ++ domain)

theorem shellPlain_adminOrigin (hv : isValidHost domain = true) : ShellPlain (adminOrigin domain) := by
  intro c hc
  rw [adminOrigin, String.toList_append, List.mem_append] at hc
  rcases hc with hc | hc
  · simp at hc
    rcases hc with rfl | rfl | rfl | rfl | rfl | rfl <;> decide
  · exact .inl (isHostChar_adminHost hv c hc)

theorem not_isWhitespace_of_visible {c : Char} (h : 32 ≤ c.toNat ∧ c.toNat < 127 ∧ c ≠ ' ') :
    isWhitespace c = false := by
  obtain ⟨h1, h2, h3⟩ := h
  have hne : c.toNat ≠ 32 := fun he => h3 (Char.toNat_inj.mp he)
  simp [isWhitespace]
  omega

theorem normalizeServerOrigin_adminOrigin (hv : isValidHost domain = true) :
    normalizeServerOrigin (adminOrigin domain) = .ok (adminOrigin domain) := by
  refine normalizeServerOrigin_eq_ok_iff.mpr ⟨_, bareAuthority_adminHost hv, rfl, 0, ?_⟩
  rw [List.replicate_zero, List.append_nil, trim_of_plain]
  intro c hc
  rcases shellPlain_adminOrigin hv c hc with (h | rfl | rfl) | rfl | rfl
  · exact not_isWhitespace_of_visible (visible_of_isAlphanum h)
  all_goals decide

/-- The admin host is told from the rest by the name in the command. -/
theorem host_admin (hv : isValidHost domain = true) (hl : toAsciiLowercase domain = domain)
    (hh : req.headers.get "host" = some ("x2rp." ++ domain)) : req.host = "x2rp." ++ domain := by
  have hchar := isHostChar_adminHost hv
  have htext : toStr ("x2rp." ++ domain) = some ("x2rp." ++ domain) := by
    refine if_pos (List.all_eq_true.mpr fun c hc => ?_)
    rcases hchar c hc with h | rfl | rfl
    · obtain ⟨h1, h2, -⟩ := visible_of_isAlphanum h
      simp [h1, h2]
    · decide
    · decide
  have hname : hostHeaderHostname ("x2rp." ++ domain) = "x2rp." ++ domain := by
    apply String.toList_inj.mp
    rw [hostHeaderHostname_plain (by simp), List.takeWhile_eq_self_iff]
    intro c hc
    refine decide_eq_true ?_
    rintro rfl
    exact absurd (hchar ':' hc) (by decide)
  simp only [Request.host, hh, Option.bind_some, htext, Option.map_some, Option.getD_some, hname,
    toAsciiLowercase_append, hl]
  rfl

/-- The edge passes a request for the admin host on to the API, if its client is within budget. -/
theorem requestFilter_admin {E : Env} {routes : Routes} {connectors : Managers} {fresh : String}
    {check : Tier → String → Bool} {addr : SocketAddr} (he : AddrTexts E)
    (hp : isAuthSensitivePath req.path = false)
    (hcheck : check .general (clientKey E (clientIpFromPeer E req.client)) = true)
    (hc : req.client = some addr) (hh : req.host = "x2rp." ++ domain) :
    ∃ ctx, requestFilter E domain routes connectors check fresh req = .ok ctx ∧
      ctx.resource = some admin := by
  have ha : isAdminHost domain req.host = true := isAdminHost_iff.mpr hh
  have hsel : select domain routes req.host = some ("x2rp." ++ domain, admin) := by
    rw [select, if_pos ha]
  have hadmit : admin.allowedClients.any (fun nets =>
      (E.parseAddr (clientIpFromPeer E req.client)).any (admits nets)) = true := by
    simp [admin, hc, clientIpFromPeer, he.parse, admits]
  refine ⟨⟨some admin, clientIpFromPeer E req.client, requestIdFromHeaders req.headers fresh, none⟩,
    ?_, rfl⟩
  simp only [requestFilter, hp, Bool.and_false, Bool.false_eq_true, if_false, hcheck, hsel, hadmit]
  rfl

end Edge

/-- The one-shot command that the console shows with a new token. `repo` and `version` are those of
a release build. -/
def buildInstallCommand (repo : Option String) (version domain token : String) : String :=
  let args := "--server https://x2rp." ++ domain ++ " --token '" ++ token ++ "'"
  match repo with
  | some repo => "curl -fsSL https://github.com/" ++ repo ++ "/releases/download/v" ++ version ++
      "/install-connector.sh | sudo bash -s -- " ++ args
  | none => "sudo ./install-connector.sh " ++ args

theorem exists_front (repo : Option String) (version domain token : String) :
    ∃ front, buildInstallCommand repo version domain token =
      front ++ "--server " ++ adminOrigin domain ++ " --token '" ++ token ++ "'" := by
  have hserver : "--server https://x2rp." = "--server " ++ ("https://" ++ "x2rp.") := by decide
  cases repo with
  | none =>
    refine ⟨"sudo ./install-connector.sh ", ?_⟩
    unfold buildInstallCommand adminOrigin
    dsimp only
    rw [hserver]
    simp only [String.append_assoc, -String.reduceAppend]
  | some repo =>
    refine ⟨"curl -fsSL https://github.com/" ++ repo ++ "/releases/download/v" ++ version ++
      "/install-connector.sh | sudo bash -s -- ", ?_⟩
    unfold buildInstallCommand adminOrigin
    dsimp only
    rw [hserver]
    simp only [String.append_assoc, -String.reduceAppend]

theorem dispatch_settings {β : Type} {W : Web β} {g : Global} {headers : Headers} {body : β} :
    dispatch W g ⟨.get, "/api/connector/settings", headers, body⟩ = .handler .settings := by
  have hrest : "/api/connector/settings".toList.dropPrefix? "/api".toList =
      some "/connector/settings".toList := by decide
  have hpath : apiPath (.ofList "/connector/settings".toList) = some .connectorSettings := by decide
  simp only [dispatch, hrest, hpath]
  rfl

/-- A connector that is set up with the command of the console gets in. The command ends in a server
and a token that mean nothing else to a shell; the server is a bare origin whose requests the edge
takes for the admin host, if their client is within its budget; the request for the settings comes to
its handler, which finds the connector by the token and answers with the secret that was drawn at the
setup, as both ends read it; and the token comes out of the first QUIC frame as it went in. -/
theorem enrolment_works {β : Type} (W : Web β) {g : Global} {d : String} {addr : SocketAddr}
    {find : String → Option Admin.Connector} {check : Tier → String → Bool} {req : Proxy.Request}
    (tokenBytes secret : Vector UInt8 32) (repo : Option String) (version fresh : String) (body : β)
    (hw : AddrTexts W.toEnv) (hd : isValidDomain (normalizeDomain d) = true)
    (hg : g.state.domain = normalizeDomain d) (hi : g.initialized = true)
    (hs : g.serverConfig.obfuscationSecret = randomHex secret)
    (hf : Searches W.toEnv g.state find) {connector : Admin.Connector}
    (hc : g.state.ConnectorFromToken W.toEnv (randomHex tokenBytes) connector)
    (hpath : req.path = "/api/connector/settings") (hclient : req.client = some addr)
    (hcheck : check .general (clientKey W.toEnv (clientIpFromPeer W.toEnv req.client)) = true)
    (hhost : req.headers.get "host" = some ("x2rp." ++ g.state.domain))
    (hauth : req.headers.get "authorization" = some (bearerAuth (randomHex tokenBytes))) :
    ∃ front server, buildInstallCommand repo version g.state.domain (randomHex tokenBytes) =
        front ++ "--server " ++ server ++ " --token '" ++ randomHex tokenBytes ++ "'" ∧
      ShellPlain server ∧ ShellPlain (randomHex tokenBytes) ∧
      normalizeServerOrigin server = .ok server ∧
      settingsUrl server = "https://" ++ ("x2rp." ++ g.state.domain) ++ "/api/connector/settings" ∧
      ∃ ctx, requestFilter W.toEnv g.state.domain g.routes g.registry check fresh req = .ok ctx ∧
        ctx.resource = some admin ∧
      ∃ headers, headers = upstreamRequestFilter ctx req.headers ∧
        dispatch W g ⟨.get, "/api/connector/settings", headers, body⟩ = .handler .settings ∧
      ∃ settings, connectorGetSettings g.initialized g.serverConfig.obfuscationSecret find headers =
          .ok settings ∧ obfuscationKey settings.obfuscationSecret = some secret ∧
      ∃ f, (Message.auth (randomHex tokenBytes)).frame = .ok f ∧
        ∀ rest, readFrame (f ++ rest) = .ok (.auth (randomHex tokenBytes), rest) := by
  have hvalid : isValidHost g.state.domain = true := by
    rw [hg]
    exact (Bool.and_eq_true_iff.mp hd).2
  have hlower : toAsciiLowercase g.state.domain = g.state.domain := by
    rw [hg, normalizeDomain, toAsciiLowercase_toAsciiLowercase]
  have hsize : (randomHex tokenBytes).utf8ByteSize = 64 := utf8ByteSize_randomHex tokenBytes
  have hmax : maxAuthTokenLen = 512 := rfl
  have h1 : 1 ≤ (randomHex tokenBytes).utf8ByteSize := by omega
  have h2 : (randomHex tokenBytes).utf8ByteSize ≤ maxAuthTokenLen := by omega
  have hplain : isAuthSensitivePath req.path = false := by
    rw [hpath]
    decide
  obtain ⟨ctx, hctx, hadmin⟩ := @requestFilter_admin g.state.domain req W.toEnv g.routes g.registry
    fresh check addr hw hplain hcheck hclient (host_admin hvalid hlower hhost)
  have hbearer : bearerToken (upstreamRequestFilter ctx req.headers) = some (randomHex tokenBytes) := by
    refine bearerToken_bearerAuth ?_ isAlphanum_randomHex h1 h2
    rw [upstreamRequestFilter_other ctx req.headers (by decide), hauth]
  obtain ⟨f, hframe, hread⟩ := readFrame_auth h1 h2
  obtain ⟨found, hfound⟩ : ∃ found, find (randomHex tokenBytes) = some found := by
    have hsearch := hf (randomHex tokenBytes)
    split at hsearch
    · exact ⟨_, ‹_›⟩
    · exact absurd hc (hsearch connector)
  have hsecret : g.serverConfig.obfuscationSecret ≠ "" := by
    intro he
    have hkey := obfuscationKey_randomHex secret
    rw [← hs, he] at hkey
    cases hkey
  obtain ⟨front, hfront⟩ := exists_front repo version g.state.domain (randomHex tokenBytes)
  refine ⟨front, adminOrigin g.state.domain, hfront, shellPlain_adminOrigin hvalid,
    fun c hc => .inl (.inl (isAlphanum_randomHex c hc)), normalizeServerOrigin_adminOrigin hvalid,
    rfl, ctx, hctx, hadmin, _, rfl,
    dispatch_settings, _, hi ▸ connectorGetSettings_eq hbearer hfound hsecret, ?_, f, hframe, hread⟩
  rw [hs, obfuscationKey_randomHex]

section Sample

/-- Thirty-two bytes that stand for random ones. -/
def sampleBytes : Vector UInt8 32 := Vector.replicate 32 7

def enrolledConnector : Admin.Connector :=
  { id := "c1", name := "lan", tokenHash := homeEnv.hashToken (randomHex sampleBytes) }

/-- A server with one connector that has not come up yet. -/
def enrolled : Global where
  state := { domain := "example.com", connectors := Finmap.insert "c1" enrolledConnector ∅ }
  initialized := true
  serverConfig := ⟨"", randomHex sampleBytes⟩

def findEnrolled (token : String) : Option Admin.Connector :=
  if enrolledConnector.tokenHash = homeEnv.hashToken token then some enrolledConnector else none

theorem searches_enrolled : Searches homeEnv enrolled.state findEnrolled := by
  intro token
  unfold findEnrolled
  by_cases h : enrolledConnector.tokenHash = homeEnv.hashToken token
  · rw [if_pos h]
    exact ⟨⟨"c1", Finmap.lookup_insert _⟩, h⟩
  · rw [if_neg h]
    rintro connector ⟨⟨id, hid⟩, hh⟩
    by_cases he : id = "c1"
    · subst he
      cases (Finmap.lookup_insert _).symm.trans hid
      exact h hh
    · cases (Finmap.lookup_insert_of_ne _ he).symm.trans hid

/-- The request of a connector at home. -/
def settingsRequest : Proxy.Request :=
  ⟨"/api/connector/settings", [("host", "x2rp.example.com"),
    ("authorization", bearerAuth (randomHex sampleBytes))], some ⟨.v4 home, 40000⟩⟩

/-- The edge knows one client, and it is within its budget. -/
def homeBudget (tier : Tier) (key : String) : Bool :=
  tier == .general && key == clientKey homeEnv (clientIpFromPeer homeEnv settingsRequest.client)

theorem enrolment_works_home :
    Searches homeEnv enrolled.state findEnrolled ∧
    homeBudget .general (clientKey homeEnv (clientIpFromPeer homeEnv settingsRequest.client)) = true ∧
    ∃ (server : String) (ctx : RequestCtx) (settings : ServerSettings),
      normalizeServerOrigin server = .ok server ∧
      settingsUrl server = "https://x2rp.example.com/api/connector/settings" ∧
      requestFilter homeEnv "example.com" enrolled.routes enrolled.registry homeBudget "00ff"
        settingsRequest = .ok ctx ∧ ctx.resource = some admin ∧
      connectorGetSettings enrolled.initialized enrolled.serverConfig.obfuscationSecret findEnrolled
        (upstreamRequestFilter ctx settingsRequest.headers) = .ok settings ∧
      obfuscationKey settings.obfuscationSecret = some sampleBytes := by
  have hcheck : homeBudget .general
      (clientKey homeEnv (clientIpFromPeer homeEnv settingsRequest.client)) = true := by
    simp [homeBudget]
  have hclient : settingsRequest.client = some ⟨.v4 home, 40000⟩ := rfl
  obtain ⟨-, server, -, -, -, hserver, hurl, ctx, hctx, hadmin, headers, rfl, -, settings, hsettings,
      hkey, -⟩ :=
    enrolment_works { Flight.sampleWeb with toEnv := homeEnv } (g := enrolled) (d := "example.com")
      sampleBytes sampleBytes none "1.0.0" "00ff" () addrTexts_home (by decide) (by decide) rfl rfl
      searches_enrolled ⟨⟨"c1", Finmap.lookup_insert _⟩, rfl⟩ rfl hclient hcheck (by decide) rfl
  exact ⟨searches_enrolled, hcheck, server, ctx, settings, hserver, hurl, hctx, hadmin, hsettings, hkey⟩

end Sample

end X2rp.Connector
