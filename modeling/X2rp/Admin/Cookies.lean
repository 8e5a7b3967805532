import X2rp.Admin.Api
import X2rp.Admin.Lifetime
import X2rp.Hex
import X2rp.Jar

/-! A login on its way through the browser: the cookies it sets, what the console sends back, and
what the sites behind the proxy, which share the domain, can do about it. -/
namespace X2rp.Admin

open Http Browser

/-- `random_hex`. -/
def randomHex {n : Nat} (bytes : Vector UInt8 n) : String := Hex.encode bytes.toList

def adminCsrfCookie : String := "__Host-x2rp_csrf"

/-- A `Set-Cookie` header; what it ends with is for how long. -/
def setCookie (name value attrs : String) : String :=
  name ++ "=" ++ value ++ attrs ++ toString sessionAbsoluteTtlSecs

/-- The `Set-Cookie` headers of a login. -/
def loginCookies (sessionId csrfToken : String) : List String :=
  [setCookie adminSessionCookie sessionId "; Path=/; HttpOnly; Secure; SameSite=Strict; Max-Age=",
    setCookie adminCsrfCookie csrfToken "; Path=/; Secure; SameSite=Strict; Max-Age="]

/-- `csrfToken` of the console: the first match of `/(?:^|;\s*)__Host-x2rp_csrf=([^;]*)/`. -/
def csrfToken (documentCookie : String) : Option String :=
  match documentCookie.toList.splitOn ';' with
  | [] => none
  | first :: rest => (first :: rest.map (·.dropWhile isWhitespace)).findSome? fun part =>
      (part.dropPrefix? (adminCsrfCookie ++ "=").toList).map .ofList

/-- What `request` of the console sends for a path under `/api`: the cookies that the browser adds,
and the token that the page at the root has read. -/
structure Sends {σ : Type*} (b : Agent σ) (now : Nat) (kept : σ) (cookies : List Cookie)
    (method : Method) (path : String) (headers : Headers) : Prop where
  sent : b.sends now ("/api" ++ path).toList kept cookies
  cookie : headers.get "cookie" = if cookies = [] then none else some (.ofList (header cookies))
  token : ∃ seen : List Cookie, b.shows now ['/'] kept seen ∧
    headers.get "x-csrf-token" =
      if method = .get then none else (csrfToken (.ofList (header seen))).filter (· ≠ "")

/-- The request gets through to an admin handler, and past its first line. -/
def Accepted (g : Global) (method : Method) (path : String) (headers : Headers) : Prop :=
  enforceApiCsrf g method path headers = true ∧ (verifyAdmin g headers).2 = true

/-- The cookie is ASCII. -/
def Visible (k : Cookie) : Prop := ∀ c ∈ k.piece, c.toNat < 127

section Reading

variable {k : Cookie} {cookies : List Cookie} {name : String}

theorem isWhitespace_eq_isBlank {c : Char} (hc : c.toNat ≥ 32 ∨ c = '\t') (hlt : c.toNat < 127) :
    isWhitespace c = isBlank c := by
  rcases hc with hc | rfl
  · have htab : c ≠ '\t' := by
      rintro rfl
      exact absurd hc (by decide)
    have hspace : c = ' ' ↔ c.toNat = 32 := by
      rw [← Char.toNat_inj]
      rfl
    rw [Bool.eq_iff_iff]
    simp only [isWhitespace, isBlank, Bool.or_eq_true, Bool.and_eq_true, decide_eq_true_eq,
      beq_iff_eq, htab, or_false, hspace]
    omega
  · decide

theorem Visible.whitespace (hv : Visible k) {c : Char} (hc : c ∈ k.piece) :
    isWhitespace c = isBlank c :=
  isWhitespace_eq_isBlank (k.clean_piece c hc).2.1 (hv c hc)

theorem Visible.dropWhile (hv : Visible k) : k.piece.dropWhile isWhitespace = k.piece := by
  refine dropWhile_of_head fun c hc => ?_
  rw [hv.whitespace (List.mem_of_head? hc)]
  exact k.ends_piece.1 c hc

theorem Visible.trim (hv : Visible k) : Admin.trim (.ofList k.piece) = .ofList k.piece := by
  have hlast : k.piece.reverse.dropWhile isWhitespace = k.piece.reverse := by
    refine dropWhile_of_head fun c hc => ?_
    rw [List.head?_reverse] at hc
    rw [hv.whitespace (List.mem_of_getLast? hc)]
    exact k.ends_piece.2 c hc
  rw [Admin.trim, String.toList_ofList, hv.dropWhile, hlast, List.reverse_reverse]

theorem trim_blank (text : Text) : trim (.ofList (' ' :: text)) = trim (.ofList text) := by
  rw [trim, trim, String.toList_ofList, String.toList_ofList,
    List.dropWhile_cons_of_pos (by decide : isWhitespace ' ' = true)]

theorem splitOnce_ofList (text : Text) : splitOnce '=' (.ofList text) =
    (cut text).map fun p => (String.ofList p.1, String.ofList p.2) := by
  rw [splitOnce, cut, String.toList_ofList]
  cases text.dropWhile (· ≠ '=') <;> rfl

theorem findSome?_congr {f f' : Cookie → Option String} (h : ∀ k ∈ cookies, f k = f' k) :
    cookies.findSome? f = cookies.findSome? f' := by
  rw [← List.head?_filterMap, List.filterMap_congr h, List.head?_filterMap]

/-- What is read from one cookie. -/
def valueOf (name : String) (k : Cookie) : Option String :=
  if k.name = name.toList then some (.ofList k.value) else none

theorem read_piece (hp : hostPrefixed name.toList = true) (hv : Visible k) : (do
    let (key, v) ← splitOnce '=' (trim (.ofList k.piece))
    if key = name then some v else none) = valueOf name k := by
  rw [hv.trim, splitOnce_ofList, valueOf]
  split
  · rename_i hn
    rw [(Cookie.cut_piece hp).mpr ⟨hn, rfl⟩]
    simp
  · rename_i hn
    cases hcut : cut k.piece with
    | none => rfl
    | some p =>
      simp only [Option.map_some, Option.bind_eq_bind, Option.bind_some, ite_eq_right_iff]
      intro he
      refine absurd ((Cookie.cut_piece hp).mp (?_ : _ = some (name.toList, p.2))).1 hn
      rw [hcut, ← he, String.toList_ofList]

/-- The server finds a cookie that only the host can set under its name. -/
theorem extractCookie_header (hp : hostPrefixed name.toList = true) (hv : ∀ k ∈ cookies, Visible k) :
    extractCookie (.ofList (header cookies)) name = cookies.findSome? (valueOf name) := by
  rw [extractCookie, String.toList_ofList]
  cases cookies with
  | nil => rfl
  | cons k cookies =>
    rw [splitOn_header, List.findSome?_cons, read_piece hp (hv k List.mem_cons_self),
      List.findSome?_map, List.findSome?_cons]
    simp only [Function.comp_def, trim_blank]
    rw [findSome?_congr fun k' hk' => read_piece hp (hv k' (List.mem_cons_of_mem k hk'))]

theorem hostPrefixed_csrf : hostPrefixed adminCsrfCookie.toList = true := by decide

theorem hostPrefixed_session : hostPrefixed adminSessionCookie.toList = true := by decide

theorem match_piece (k : Cookie) : (k.piece.dropPrefix? (adminCsrfCookie ++ "=").toList).map .ofList =
    valueOf adminCsrfCookie k := by
  have hsplit : ∀ rest, k.piece = (adminCsrfCookie ++ "=").toList ++ rest ↔
      k.name = adminCsrfCookie.toList ∧ k.value = rest := by
    intro rest
    rw [← Cookie.cut_piece hostPrefixed_csrf]
    constructor
    · intro he
      rw [he, String.toList_append, List.append_assoc]
      exact cut_append (by decide)
    · intro he
      obtain ⟨hn, hr⟩ := (Cookie.cut_piece hostPrefixed_csrf).mp he
      have hne : k.name ≠ [] := by
        rw [hn]
        decide
      rw [Cookie.piece, if_neg hne, hn, hr, String.toList_append, List.append_assoc]
      rfl
  rw [valueOf]
  split
  · rename_i hn
    rw [dropPrefix?_iff.mpr ((hsplit k.value).mpr ⟨hn, rfl⟩)]
    rfl
  · rename_i hn
    rw [Option.map_eq_none_iff, Option.eq_none_iff_forall_ne_some]
    exact fun rest he => hn ((hsplit rest).mp (dropPrefix?_iff.mp he)).1

/-- And so does the page. -/
theorem csrfToken_header (hv : ∀ k ∈ cookies, Visible k) :
    csrfToken (.ofList (header cookies)) = cookies.findSome? (valueOf adminCsrfCookie) := by
  rw [csrfToken, String.toList_ofList]
  cases cookies with
  | nil => decide
  | cons k cookies =>
    rw [splitOn_header]
    simp only [List.map_map]
    have hparts : cookies.map ((·.dropWhile isWhitespace) ∘ fun k' => ' ' :: k'.piece) =
        cookies.map Cookie.piece := by
      refine List.map_congr_left fun k' hk' => ?_
      rw [Function.comp_apply, List.dropWhile_cons_of_pos (by decide : isWhitespace ' ' = true),
        (hv k' (List.mem_cons_of_mem k hk')).dropWhile]
    rw [hparts, ← List.map_cons, List.findSome?_map]
    exact findSome?_congr fun k' _ => match_piece k'

/-- A value is read if and only if there is such a cookie, and it is the only one of its name. -/
theorem findSome?_valueOf {v : String} (hone : ∀ k ∈ cookies, ∀ k' ∈ cookies,
    k.name = name.toList → k'.name = name.toList → k.value = k'.value) :
    cookies.findSome? (valueOf name) = some v ↔
      ∃ k ∈ cookies, k.name = name.toList ∧ k.value = v.toList := by
  have hvalue : ∀ k v, valueOf name k = some v ↔ k.name = name.toList ∧ k.value = v.toList := by
    intro k v
    rw [valueOf]
    split
    · rename_i hn
      rw [Option.some_inj, ← String.toList_inj, String.toList_ofList]
      exact ⟨fun h => ⟨hn, h⟩, fun h => h.2⟩
    · rename_i hn
      exact ⟨fun h => (nomatch h), fun h => absurd h.1 hn⟩
  constructor
  · intro h
    obtain ⟨k, hk, hv⟩ := List.exists_of_findSome?_eq_some h
    exact ⟨k, hk, (hvalue k v).mp hv⟩
  · rintro ⟨k, hk, hn, hv⟩
    obtain ⟨v', hv'⟩ : ∃ v', cookies.findSome? (valueOf name) = some v' := by
      rw [← Option.isSome_iff_exists, List.findSome?_isSome_iff]
      exact ⟨k, hk, by rw [(hvalue k v).mpr ⟨hn, hv⟩]; rfl⟩
    obtain ⟨k', hk', hval⟩ := List.exists_of_findSome?_eq_some hv'
    obtain ⟨hn', hval'⟩ := (hvalue k' v').mp hval
    rw [hv', Option.some_inj, ← String.toList_inj, ← hval', ← hv]
    exact hone k' hk' k hk hn' hn

/-- A header value is text only if all the cookies are. -/
theorem toStr_header : (toStr (.ofList (header cookies))).isSome = true ↔ ∀ k ∈ cookies, Visible k := by
  have hpiece : ∀ k : Cookie,
      k.piece.all (fun c => (32 ≤ c.toNat && c.toNat < 127) || c == '\t') = true ↔ Visible k := by
    intro k
    rw [List.all_eq_true]
    refine forall₂_congr fun c hc => ?_
    rcases (k.clean_piece c hc).2.1 with hge | rfl
    · have htab : c ≠ '\t' := by
        rintro rfl
        exact absurd hge (by decide)
      simp [htab, hge]
    · decide
  rw [toStr, String.toList_ofList, Option.isSome_ite]
  induction cookies with
  | nil => simp [header]
  | cons k cookies ih =>
    rw [List.forall_mem_cons]
    refine Iff.trans ?_ (and_congr (hpiece k) ih)
    cases cookies with
    | nil => simp [header]
    | cons k' cookies =>
      rw [header_cons_cons, List.all_append, List.all_append, Bool.and_eq_true, Bool.and_eq_true]
      exact and_congr_left' (and_iff_left (by decide))

theorem toStr_eq (hv : ∀ k ∈ cookies, Visible k) :
    toStr (.ofList (header cookies)) = some (.ofList (header cookies)) := by
  obtain ⟨text, htext⟩ := Option.isSome_iff_exists.mp (toStr_header.mpr hv)
  rw [htext]
  unfold toStr at htext
  split at htext
  · exact htext.symm
  · cases htext

theorem toStr_value {k : Cookie} (hv : Visible k) :
    toStr (.ofList k.value) = some (.ofList k.value) := by
  have hmem : ∀ c ∈ k.value, c ∈ k.piece := by
    intro c hc
    unfold Cookie.piece
    split
    · exact hc
    · exact List.mem_append_right _ (List.mem_cons_of_mem _ hc)
  rw [toStr, if_pos]
  rw [String.toList_ofList, List.all_eq_true]
  intro c hc
  have hlt := hv c (hmem c hc)
  rcases (k.clean_piece c (hmem c hc)).2.1 with hge | rfl
  · simp [hge, hlt]
  · decide

end Reading

section Console

open AuthService

variable {σ : Type*} {b : Agent σ} {second : Nat} {s : AuthService} {g : Global} {kept : σ}
  {cookies : List Cookie} {now : Nat} {method : Method} {path sid token : String} {headers : Headers}

theorem head_api (path : String) : ("/api" ++ path).toList.head? = some '/' := by
  rw [String.toList_append]
  rfl

section Browsing

variable (hb : b.Lawful second) (h : Sends b now kept cookies method path headers)
include hb h

/-- The session that a request of the console is for. -/
theorem Sends.session : adminSession headers = some sid ↔ (∀ k ∈ cookies, Visible k) ∧
    ∃ c, b.own kept adminSessionCookie.toList = some c ∧ c.value = sid.toList ∧
      c.live now = true := by
  have hone := Agent.value_eq fun _ => (hb.sends h.sent (head_api path) hostPrefixed_session).mp
  rw [← hb.sends h.sent (head_api path) hostPrefixed_session, adminSession, h.cookie]
  by_cases hne : cookies = []
  · simp [hne]
  · rw [if_neg hne, Option.bind_some]
    by_cases hv : ∀ k ∈ cookies, Visible k
    · rw [toStr_eq hv, Option.bind_some, extractCookie_header hostPrefixed_session hv,
        findSome?_valueOf hone]
      exact (and_iff_right hv).symm
    · have hnone := toStr_header.not.mpr hv
      rw [Bool.not_eq_true, Option.isSome_eq_false_iff, Option.isNone_iff_eq_none] at hnone
      rw [hnone]
      exact ⟨fun h => (nomatch h), fun h => absurd h.1 hv⟩

/-- The token that it shows. -/
theorem Sends.csrf (hm : method ≠ .get) (hv : ∀ k ∈ cookies, Visible k) :
    (headers.get "x-csrf-token").bind toStr = some token ↔ token ≠ "" ∧
      ∃ c, b.own kept adminCsrfCookie.toList = some c ∧ c.value = token.toList ∧
        c.live now = true ∧ c.httpOnly = false := by
  obtain ⟨seen, hseen, htoken⟩ := h.token
  have hvisible : ∀ k ∈ seen, Visible k := fun k hk => hv k (hb.root h.sent hseen (head_api path) hk)
  have hone := Agent.value_eq fun _ => (hb.shows hseen rfl hostPrefixed_csrf).mp
  have hfound : ∀ {token}, csrfToken (.ofList (header seen)) = some token ↔
      ∃ k ∈ seen, k.name = adminCsrfCookie.toList ∧ k.value = token.toList := by
    intro token
    rw [csrfToken_header hvisible, findSome?_valueOf hone]
  rw [← hb.shows hseen rfl hostPrefixed_csrf, ← hfound, htoken, if_neg hm, Option.bind_eq_some_iff]
  simp only [Option.filter_eq_some_iff, decide_eq_true_eq]
  constructor
  · rintro ⟨token', ⟨hcsrf, hne⟩, htext⟩
    unfold toStr at htext
    split at htext
    · cases htext
      exact ⟨hne, hcsrf⟩
    · cases htext
  · rintro ⟨hne, hcsrf⟩
    obtain ⟨k, hk, -, hval⟩ := hfound.mp hcsrf
    have htext := toStr_value (hvisible k hk)
    rw [hval, String.ofList_toList] at htext
    exact ⟨token, ⟨hcsrf, hne⟩, htext⟩

end Browsing

section Answers

variable (hs : system.Reachable s) (ht : ∀ e ∈ s.history, e.1 ≤ now)
include hs ht

theorem validateAdminCsrf_iff_good :
    s.sessions.validateAdminCsrf now sid token = true ↔ Good s.history sid token now := by
  obtain ⟨f, hplays, hsim⟩ := plays_run hs
  rw [hsim.csrf_eq ht, ← hplays.told.good_iff, Option.any_eq_true]
  simp only [beq_iff_eq]

theorem validateAdminSession_of_good (hgood : Good s.history sid token now) :
    (s.sessions.validateAdminSession now sid).2 = true := by
  obtain ⟨f, hplays, hsim⟩ := plays_run hs
  obtain ⟨a, ha, -⟩ := hplays.told.good_iff.mpr hgood
  rw [hsim.validate_snd ht, ha]
  rfl

end Answers

/-- A request of the console that changes something is accepted if all its cookies are text, and
the browser has those of one good session. -/
theorem Sends.accepted_iff (hb : b.Lawful second) (h : Sends b now kept cookies method path headers)
    (hs : system.Reachable s) (ht : ∀ e ∈ s.history, e.1 ≤ g.now) (hg : g.sessions = s.sessions)
    (hi : g.initialized = true) (hm : [Method.get, .head, .options].contains method = false)
    (hp : ["/auth/login", "/setup", "/connector/disconnect"].contains path = false) :
    Accepted g method path headers ↔ (∀ k ∈ cookies, Visible k) ∧ ∃ sid token,
      (∃ c, b.own kept adminSessionCookie.toList = some c ∧ c.value = sid.toList ∧
        c.live now = true) ∧
      (token ≠ "" ∧ ∃ c, b.own kept adminCsrfCookie.toList = some c ∧ c.value = token.toList ∧
        c.live now = true ∧ c.httpOnly = false) ∧ Good s.history sid token g.now := by
  have hget : method ≠ .get := by
    rintro rfl
    simp at hm
  have hcsrf : enforceApiCsrf g method path headers = true ↔ ∃ sid token,
      adminSession headers = some sid ∧ (headers.get "x-csrf-token").bind toStr = some token ∧
        Good s.history sid token g.now := by
    simp only [enforceApiCsrf_iff hm hp, hg, validateAdminCsrf_iff_good hs ht]
  have hverify : ∀ {sid token}, adminSession headers = some sid → Good s.history sid token g.now →
      (verifyAdmin g headers).2 = true := by
    intro sid token hsid hgood
    rw [verifyAdmin, if_pos hi, hsid, hg]
    exact validateAdminSession_of_good hs ht hgood
  rw [Accepted, hcsrf]
  constructor
  · rintro ⟨⟨sid, token, hsid, htoken, hgood⟩, -⟩
    obtain ⟨hv, hsid⟩ := (h.session hb).mp hsid
    exact ⟨hv, sid, token, hsid, (h.csrf hb hget hv).mp htoken, hgood⟩
  · rintro ⟨hv, sid, token, hsid, htoken, hgood⟩
    have hsid := (h.session hb).mpr ⟨hv, hsid⟩
    exact ⟨⟨sid, token, hsid, (h.csrf hb hget hv).mpr htoken, hgood⟩, hverify hsid hgood⟩

end Console

section Login

open AuthService

variable {σ : Type*} {b : Agent σ} {second : Nat}

theorem token_randomHex {n : Nat} (bytes : Vector UInt8 n) :
    (randomHex bytes).toList.all isToken = true := by
  rw [List.all_eq_true]
  intro c hc
  obtain ⟨d, hd, rfl⟩ := Hex.exists_of_mem_encode hc
  exact (by decide : ∀ d < 16, isToken (Hex.digit d) = true) d hd

theorem length_randomHex {n : Nat} (bytes : Vector UInt8 n) : (randomHex bytes).toList.length = 2 * n := by
  rw [randomHex, Hex.length_encode, Vector.length_toList]

/-- A cookie of a login, for as long as a session can last. -/
def loginSetting (name : String) (httpOnly : Bool) (bytes : Vector UInt8 32)
    (hp : hostPrefixed name.toList = true)
    (hname : name.toList.all isToken = true ∧ name.toList.length ≤ 4032) : Setting where
  name := name.toList
  value := (randomHex bytes).toList
  httpOnly := httpOnly
  maxAge := sessionAbsoluteTtlSecs
  prefixed := hp
  token := ⟨hname.1, token_randomHex bytes⟩
  size := by
    rw [length_randomHex]
    omega
  age := by decide

def sessionSetting (id : Vector UInt8 32) : Setting :=
  loginSetting adminSessionCookie true id hostPrefixed_session (by decide)

def csrfSetting (secret : Vector UInt8 32) : Setting :=
  loginSetting adminCsrfCookie false secret hostPrefixed_csrf (by decide)

/-- Both headers of a login set cookies for the host alone. -/
theorem loginCookies_eq (id secret : Vector UInt8 32) :
    (loginCookies (randomHex id) (randomHex secret)).map String.toList =
      [(sessionSetting id).text, (csrfSetting secret).text] := by
  simp [loginCookies, setCookie, Setting.text, Setting.attrs, sessionSetting, csrfSetting, loginSetting]

/-- What the browser keeps after a login. -/
theorem own_login (hb : b.Lawful second) {t : Nat} {before after : σ} {id secret : Vector UInt8 32}
    (h : b.Receives t ((loginCookies (randomHex id) (randomHex secret)).map String.toList)
      before after) :
    b.own after adminSessionCookie.toList = some ⟨(randomHex id).toList, true,
      some (t + second * sessionAbsoluteTtlSecs)⟩ ∧
    b.own after adminCsrfCookie.toList = some ⟨(randomHex secret).toList, false,
      some (t + second * sessionAbsoluteTtlSecs)⟩ := by
  rw [loginCookies_eq] at h
  refine hb.own_of_receives h ?_
  exact (by decide : adminSessionCookie.toList ≠ adminCsrfCookie.toList)

/-- What the sites behind the proxy do to the browser's cookies never puts another session in the
place of the admin's. They cannot end it either, except that one cookie which is not ASCII, set for
the whole domain, has all requests refused for as long as it stays. -/
theorem login_outlasts_siblings {s : AuthService} {g : Global} {before after kept : σ} {t now : Nat}
    {cookies : List Cookie} {method : Method} {path : String} {headers : Headers}
    {id secret : Vector UInt8 32} (hb : b.Lawful second)
    (hs : system.Reachable s) (ht : ∀ e ∈ s.history, e.1 ≤ g.now) (hg : g.sessions = s.sessions)
    (hi : g.initialized = true) (hm : [Method.get, .head, .options].contains method = false)
    (hp : ["/auth/login", "/setup", "/connector/disconnect"].contains path = false)
    (hlogin : b.Receives t ((loginCookies (randomHex id) (randomHex secret)).map String.toList)
      before after)
    (hrun : Relation.ReflTransGen b.Alien after kept)
    (h : Sends b now kept cookies method path headers) :
    (Accepted g method path headers →
      (∀ k ∈ cookies, Visible k) ∧ Good s.history (randomHex id) (randomHex secret) g.now) ∧
    (Relation.ReflTransGen b.Toss after kept → now < t + second * sessionAbsoluteTtlSecs →
      Good s.history (randomHex id) (randomHex secret) g.now → (∀ k ∈ cookies, Visible k) →
      Accepted g method path headers) := by
  obtain ⟨hsession, hcsrf⟩ := own_login hb hlogin
  rw [h.accepted_iff hb hs ht hg hi hm hp]
  constructor
  · rintro ⟨hv, sid, token, ⟨c, hc, hsid, -⟩, ⟨-, c', hc', htoken, -⟩, hgood⟩
    -- The browser had both after the login, so they are the ones that it set.
    have hold := hb.own_of_aliens hrun hostPrefixed_session hc
    have hold' := hb.own_of_aliens hrun hostPrefixed_csrf hc'
    rw [hsession, Option.some_inj] at hold
    rw [hcsrf, Option.some_inj] at hold'
    rw [← hold, String.toList_inj] at hsid
    rw [← hold', String.toList_inj] at htoken
    subst hsid htoken
    exact ⟨hv, hgood⟩
  · intro htoss hlt hgood hv
    have hlive : ∀ value httpOnly,
        (⟨value, httpOnly, some (t + second * sessionAbsoluteTtlSecs)⟩ : Own).live now = true :=
      fun _ _ => decide_eq_true hlt
    rw [hb.own_of_tosses htoss hostPrefixed_session, hb.own_of_tosses htoss hostPrefixed_csrf,
      hsession, hcsrf]
    refine ⟨hv, randomHex id, randomHex secret, ⟨_, rfl, rfl, hlive _ _⟩,
      ⟨?_, _, rfl, rfl, hlive _ _, rfl⟩, hgood⟩
    intro he
    have hlen := length_randomHex secret
    rw [he] at hlen
    cases hlen

theorem get_optional (name other : String) (value : Option String) :
    Headers.get (value.map (name, ·)).toList other = if name = other then value else none := by
  cases value with
  | none => simp [Headers.get]
  | some value =>
    by_cases h : name = other
    · simp [Headers.get, h]
    · simp [Headers.get, h]

/-- The console can send such a request at any time. -/
theorem exists_sends {now : Nat} {path : String} {kept : σ} {cookies seen : List Cookie}
    (hsent : b.sends now ("/api" ++ path).toList kept cookies) (hseen : b.shows now ['/'] kept seen) :
    ∃ headers, Sends b now kept cookies .post path headers := by
  let cookie : Option String := if cookies = [] then none else some (.ofList (header cookies))
  let token := (csrfToken (.ofList (header seen))).filter (· ≠ "")
  refine ⟨(cookie.map ("cookie", ·)).toList ++ (token.map ("x-csrf-token", ·)).toList, hsent, ?_, _,
    hseen, ?_⟩
  · rw [Headers.get_append, get_optional, get_optional, if_pos rfl, if_neg (by decide),
      Option.or_none]
  · rw [Headers.get_append, get_optional, get_optional, if_pos rfl, if_neg (by decide),
      Option.none_or, if_neg Method.noConfusion]

end Login

section Siblings

open AuthService

theorem Visible.of_token {k : Cookie} (h : k.name.all isToken = true ∧ k.value.all isToken = true) :
    Visible k := by
  have hlt : ∀ {text : Text}, text.all isToken = true → ∀ c ∈ text, c.toNat < 127 :=
    fun ht c hc => (isToken_iff.mp (List.all_eq_true.mp ht c hc)).2.1
  intro c hc
  unfold Cookie.piece at hc
  split at hc
  · exact hlt h.2 c hc
  · rcases List.mem_append.mp hc with hc | hc
    · exact hlt h.1 c hc
    · rcases List.mem_cons.mp hc with rfl | hc
      · decide
      · exact hlt h.2 c hc

/-- All that the jar keeps is ASCII. -/
def Plain (jar : Jar) : Prop := ∀ k ∈ jar.cookies, Visible k.toCookie

theorem Plain.take {jar : Jar} (h : Plain jar) (c : Setting) (second t : Nat) :
    Plain (jar.take (fun _ => true) second t ['/'] c.text) := by
  obtain ⟨k, hk, hname, hown⟩ := c.exists_kept second t ['/']
  have hvalue : k.value = c.value := congrArg Own.value hown
  rw [Jar.take, hk, Option.filter_some, if_pos rfl]
  intro k' hk'
  rcases Jar.mem_store.mp hk' with ⟨hk', -⟩ | rfl
  · exact h k' hk'
  · exact .of_token (by rw [hname, hvalue]; exact c.token)

/-- A first login sets no cookie that would be refused. -/
theorem exists_login (second t : Nat) (id secret : Vector UInt8 32) : ∃ after, Plain after ∧
    (Jar.agent second).Receives t ((loginCookies (randomHex id) (randomHex secret)).map String.toList)
      .empty after := by
  have hempty : Plain .empty := fun _ h => absurd h List.not_mem_nil
  rw [loginCookies_eq]
  exact ⟨_, (hempty.take (sessionSetting id) second t).take (csrfSetting secret) second t, _,
    ⟨_, rfl⟩, _, ⟨_, rfl⟩, rfl⟩

/-- A cookie for the whole domain, as any site of it may set one. -/
def theme : Cookie where
  name := "theme".toList
  value := "dark".toList
  clean := by decide
  stripped := by decide
  unequal := by decide
  nameless := fun h => absurd h (by decide)

/-- One that no site but the console's can set. -/
def forged : Cookie where
  name := adminSessionCookie.toList
  value := "forged".toList
  clean := by decide
  stripped := by decide
  unequal := by decide
  nameless := fun h => absurd h (by decide)

/-- What the session map holds right after a login. -/
theorem exists_session (id secret : String) : ∃ s, system.Reachable s ∧ (∀ e ∈ s.history, e.1 ≤ 3) ∧
    Good s.history id secret 3 := by
  have hreach := (LTS.Reachable.init (L := system) rfl).step
    (@Step.create {} 0 id secret [] (by simp) (fun _ _ _ h => absurd h List.not_mem_nil) (.refl _))
  have ht : ∀ e ∈ [((0 : Nat), Call.create id secret [])], e.1 ≤ 3 := by
    intro e he
    rcases List.mem_singleton.mp he with rfl
    exact Nat.zero_le 3
  refine ⟨_, hreach, ht, (validateAdminCsrf_iff_good hreach ht).mp ?_⟩
  rw [Sessions.validateAdminCsrf_iff]
  have hkeyed := (Sessions.makeRoom_spec (s := []) (t := 0) List.nodup_nil (Nat.zero_le _)).1
  have hnew : adminSessionExpired 3 ⟨secret, 0, 0⟩ = false :=
    expired_eq_false.mpr (by decide : elapsedSecsSince 3 0 ≤ _ ∧ elapsedSecsSince 3 0 ≤ _)
  refine ⟨⟨secret, 0, 0⟩, ?_, hnew, rfl⟩
  exact congrFun (Sessions.get_insert hkeyed) _ |>.trans (Function.update_self ..)

/-- A login, then another site that tries to set a session and sets a theme, then a request. -/
theorem login_outlasts_siblings_tossed : ∃ (s : AuthService) (g : Global) (after mid kept : Jar)
    (cookies : List Cookie) (headers : Headers) (id secret : Vector UInt8 32),
    system.Reachable s ∧ (∀ e ∈ s.history, e.1 ≤ g.now) ∧ g.sessions = s.sessions ∧
      g.initialized = true ∧
      (Jar.agent (10 ^ 9)).Receives 0
        ((loginCookies (randomHex id) (randomHex secret)).map String.toList) .empty after ∧
      (Jar.agent (10 ^ 9)).tossed 1 (domainText forged "example.com".toList) after mid ∧
      (Jar.agent (10 ^ 9)).tossed 2 (domainText theme "example.com".toList) mid kept ∧
      Sends (Jar.agent (10 ^ 9)) 3 kept cookies .post "/connectors" headers ∧ theme ∈ cookies ∧
      Good s.history (randomHex id) (randomHex secret) g.now ∧
      Accepted g .post "/connectors" headers := by
  let id : Vector UInt8 32 := .replicate 32 0
  let secret : Vector UInt8 32 := .replicate 32 1
  obtain ⟨s, hs, ht, hgood⟩ := exists_session (randomHex id) (randomHex secret)
  obtain ⟨after, hplain, hlogin⟩ := exists_login (10 ^ 9) 0 id secret
  have hdomain : "example.com".toList.all isToken = true ∧ "example.com".toList ≠ [] := by decide
  have hforged := Jar.tossed_hostPrefixed (c := forged) (by decide) hdomain.1 hdomain.2 (10 ^ 9) 1
    (by decide) after
  obtain ⟨kept, htheme, hold, hsent⟩ := Jar.exists_tossed (c := theme) (by decide) hdomain.1
    hdomain.2 (10 ^ 9) 2 (by decide) after
  have hsends : (Jar.agent (10 ^ 9)).sends 3 ("/api" ++ "/connectors").toList kept
    ((kept.sent 3 ("/api" ++ "/connectors").toList).map Kept.toCookie) := .refl _
  have hshows : (Jar.agent (10 ^ 9)).shows 3 ['/'] kept ((kept.script 3 ['/']).map Kept.toCookie) :=
    .refl _
  obtain ⟨headers, hreq⟩ := exists_sends hsends hshows
  have htosses : Relation.ReflTransGen (Jar.agent (10 ^ 9)).Toss after kept :=
    .tail (.single ⟨1, _, hforged⟩) ⟨2, _, htheme⟩
  have haliens : Relation.ReflTransGen (Jar.agent (10 ^ 9)).Alien after kept :=
    .tail (.single (.inl ⟨1, _, hforged⟩)) (.inl ⟨2, _, htheme⟩)
  refine ⟨s, { state := {}, now := 3, initialized := true, sessions := s.sessions }, after, after,
    kept, _, headers, id, secret, hs, ht, rfl, rfl, hlogin, hforged, htheme, hreq,
    hsent _ _ _ (head_api _) hsends, hgood, ?_⟩
  refine (login_outlasts_siblings (Jar.lawful (10 ^ 9)) hs ht rfl rfl (by decide) (by decide)
    hlogin haliens hreq).2 htosses (by decide) hgood ?_
  intro k hk
  obtain ⟨k', hk', rfl⟩ := List.mem_map.mp hk
  rcases hold k' (List.mem_filter.mp hk').1 with hk' | he
  · exact hplain k' hk'
  · exact he ▸ Visible.of_token (k := theme) (by decide)

/-- Any site of the domain may have all requests refused, by a cookie that is not ASCII. -/
theorem sibling_locks_out (jar : Jar) {k : Cookie} {domain : Text} (hk : k.name ≠ [])
    (hp : hostPrefixed k.name = false) (hv : ¬ Visible k) (hd : domain.all isToken = true)
    (hne : domain ≠ []) (second : Nat) : ∃ jar', (Jar.agent second).Toss jar jar' ∧
      ∀ {g : Global} {now : Nat} {cookies : List Cookie} {method : Method} {path : String}
        {headers : Headers}, Sends (Jar.agent second) now jar' cookies method path headers →
        (verifyAdmin g headers).2 = false := by
  obtain ⟨jar', htoss, -, hsent⟩ := Jar.exists_tossed hk hd hne second 0 hp jar
  refine ⟨jar', ⟨0, _, htoss⟩, ?_⟩
  intro g now cookies method path headers h
  have hnone : adminSession headers = none := by
    rw [Option.eq_none_iff_forall_ne_some]
    exact fun sid hsid => hv (((h.session (Jar.lawful second)).mp hsid).1 k
      (hsent _ _ _ (head_api path) h.sent))
  rw [verifyAdmin, hnone]
  split <;> rfl

end Siblings

end X2rp.Admin
