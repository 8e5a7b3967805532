import X2rp.Proxy.Gateway

/-! The listener on port 80, which sends every request for the domain to HTTPS. -/
namespace X2rp.Proxy

open Admin Http

/-- The path and query of a request target, as `http::Uri` has them. -/
structure PathAndQuery where
  text : String
  form : text = "*" ∨ text.toList.head? = some '/' ∨ text.toList.head? = some '?'

inductive Reply
  | badRequest
  | permanentRedirect (location : String)
deriving DecidableEq

/-- What the request asks for on its host; nothing is the root. -/
def pathOf (target : Option PathAndQuery) : String := target.elim "/" PathAndQuery.text

/-- The answer to one request; `target` is missing for `CONNECT`. -/
def runHttpRedirect (domain : String) (headers : Headers) (target : Option PathAndQuery) : Reply :=
  let suffix := "." ++ domain
  let host := ((headers.get "host").bind toStr).map
    fun raw => toAsciiLowercase (hostHeaderHostname raw)
  let host := host.filter fun host =>
    (host == domain || suffix.toList.isSuffixOf host.toList) && isValidDomain host
  match host with
  | none => .badRequest
  | some host => .permanentRedirect ("https://" ++ host ++ pathOf target)

/-- The authority of a URL goes up to the first of these. -/
def endsAuthority (c : Char) : Bool := c == '/' || c == '?' || c == '#'

/-- The authority of an HTTPS URL. -/
def authorityOf (location : String) : Option String :=
  (location.toList.dropPrefix? "https://".toList).map fun rest =>
    .ofList (rest.takeWhile fun c => !endsAuthority c)

/-- A plain hostname of the domain. -/
structure OfDomain (domain authority : String) : Prop where
  valid : isValidHost authority = true
  no_userinfo : '@' ∉ authority.toList
  no_port : ':' ∉ authority.toList
  within : authority = domain ∨ ∃ sub, authority = sub ++ "." ++ domain

/-- A redirect leads to what was asked for, on a host of the domain. -/
def Reply.Stays (domain : String) (target : Option PathAndQuery) : Reply → Prop
  | .badRequest => True
  | .permanentRedirect location => ∃ authority, authorityOf location = some authority ∧
      OfDomain domain authority ∧ location = "https://" ++ authority ++ pathOf target

/-- The request is for the domain or a host under it, by a name that can be one. -/
def AsksDomain (domain : String) (headers : Headers) : Prop :=
  ∃ raw, (headers.get "host").bind toStr = some raw ∧
    OfDomain domain (toAsciiLowercase (hostHeaderHostname raw)) ∧
    '.' ∈ (toAsciiLowercase (hostHeaderHostname raw)).toList

variable {domain host path : String} {headers : Headers} {target : Option PathAndQuery}

/-- What a hostname is made of. -/
def IsHostChar (c : Char) : Prop := c.isAlphanum = true ∨ c = '-' ∨ c = '.'

instance (c : Char) : Decidable (IsHostChar c) := inferInstanceAs (Decidable (_ ∨ _ ∨ _))

theorem mem_intercalate {α : Type} {sep a : α} {l : List (List α)} (h : a ∈ [sep].intercalate l) :
    a = sep ∨ ∃ part ∈ l, a ∈ part := by
  induction l with
  | nil => cases h
  | cons part l ih =>
    cases l with
    | nil => exact .inr ⟨part, List.mem_cons_self, by simpa [List.intercalate] using h⟩
    | cons next l =>
      have hsplit : a ∈ part ∨ a = sep ∨ a ∈ [sep].intercalate (next :: l) := by
        simpa [List.intercalate] using h
      rcases hsplit with h | h | h
      · exact .inr ⟨part, List.mem_cons_self, h⟩
      · exact .inl h
      · exact (ih h).imp id fun ⟨part', hp, ha⟩ => ⟨part', List.mem_cons_of_mem _ hp, ha⟩

theorem isHostChar_of_isValidHost (h : isValidHost host = true) : ∀ c ∈ host.toList, IsHostChar c := by
  intro c hc
  have hjoin : ['.'].intercalate (host.toList.splitOn '.') = host.toList := List.intercalate_splitOn '.'
  rcases mem_intercalate (hjoin ▸ hc) with rfl | ⟨label, hlabel, hc⟩
  · exact .inr (.inr rfl)
  · simp only [isValidHost, Bool.and_eq_true, List.all_eq_true] at h
    have hchars := h.2 label hlabel
    simp only [isValidLabel, Bool.and_eq_true, List.all_eq_true, Bool.or_eq_true, beq_iff_eq,
      String.toList_ofList] at hchars
    exact (hchars.2 c hc).imp id .inl

theorem not_endsAuthority_of_isHostChar {c : Char} (h : IsHostChar c) : endsAuthority c = false := by
  by_contra hends
  simp only [endsAuthority, Bool.not_eq_false, Bool.or_eq_true, beq_iff_eq] at hends
  rcases hends with (rfl | rfl) | rfl <;> revert h <;> decide

/-- A host is wholly in the authority, and so is what follows it up to the path. -/
theorem authorityOf_append (hvalid : isValidHost host = true) :
    authorityOf ("https://" ++ host ++ path) =
      some (host ++ .ofList (path.toList.takeWhile fun c => !endsAuthority c)) := by
  have hrest : ("https://" ++ host ++ path).toList.dropPrefix? "https://".toList =
      some (host.toList ++ path.toList) := by
    rw [dropPrefix?_iff]
    simp
  have hhost : ∀ c ∈ host.toList, (!endsAuthority c) = true := by
    intro c hc
    rw [not_endsAuthority_of_isHostChar (isHostChar_of_isValidHost hvalid c hc), Bool.not_false]
  rw [authorityOf, hrest, Option.map_some, List.takeWhile_append_of_pos hhost, String.ofList_append,
    String.ofList_toList]

theorem ofDomain_of_isValidHost (hvalid : isValidHost host = true)
    (hwithin : host = domain ∨ ∃ sub, host = sub ++ "." ++ domain) : OfDomain domain host where
  valid := hvalid
  no_userinfo h := absurd (isHostChar_of_isValidHost hvalid '@' h) (by decide)
  no_port h := absurd (isHostChar_of_isValidHost hvalid ':' h) (by decide)
  within := hwithin

theorem within_iff : (host == domain || ("." ++ domain).toList.isSuffixOf host.toList) = true ↔
    host = domain ∨ ∃ sub, host = sub ++ "." ++ domain := by
  rw [Bool.or_eq_true, beq_iff_eq, List.isSuffixOf_iff_suffix]
  refine or_congr_right ⟨?_, ?_⟩
  · rintro ⟨sub, hsub⟩
    refine ⟨.ofList sub, String.toList_inj.mp ?_⟩
    simp [← hsub]
  · rintro ⟨sub, rfl⟩
    exact ⟨sub.toList, by simp⟩

/-- The test that a host has to pass is the one for a name of the domain. -/
theorem ofDomain_iff : (((host == domain || ("." ++ domain).toList.isSuffixOf host.toList) &&
    isValidDomain host) = true) ↔ OfDomain domain host ∧ '.' ∈ host.toList := by
  rw [Bool.and_eq_true, within_iff, isValidDomain, Bool.and_eq_true, List.contains_iff_mem]
  constructor
  · rintro ⟨hwithin, hdot, hvalid⟩
    exact ⟨ofDomain_of_isValidHost hvalid hwithin, hdot⟩
  · rintro ⟨hdomain, hdot⟩
    exact ⟨hdomain.within, hdot, hdomain.valid⟩

/-- Who asks for the domain is redirected to the host that it asks for, and nobody else is. -/
theorem runHttpRedirect_cases (domain : String) (headers : Headers) (target : Option PathAndQuery) :
    (¬ AsksDomain domain headers ∧ runHttpRedirect domain headers target = .badRequest) ∨
      (AsksDomain domain headers ∧ ∃ host, OfDomain domain host ∧
        runHttpRedirect domain headers target =
          .permanentRedirect ("https://" ++ host ++ pathOf target)) := by
  cases hraw : (headers.get "host").bind toStr with
  | none =>
    refine .inl ⟨fun ⟨raw, h, _⟩ => ?_, by simp only [runHttpRedirect, hraw]; rfl⟩
    simp [hraw] at h
  | some raw =>
    simp only [runHttpRedirect, hraw, Option.map_some, Option.filter_some]
    by_cases h : OfDomain domain (toAsciiLowercase (hostHeaderHostname raw)) ∧
        '.' ∈ (toAsciiLowercase (hostHeaderHostname raw)).toList
    · rw [if_pos (ofDomain_iff.mpr h)]
      exact .inr ⟨⟨raw, hraw, h⟩, _, h.1, rfl⟩
    · rw [if_neg (ofDomain_iff.not.mpr h)]
      refine .inl ⟨fun ⟨raw', hraw', h'⟩ => h ?_, rfl⟩
      obtain rfl : raw = raw' := Option.some_inj.mp (hraw.symm.trans hraw')
      exact h'

theorem authorityOf_host (hvalid : isValidHost host = true)
    (hpath : path.toList.head? = some '/' ∨ path.toList.head? = some '?') :
    authorityOf ("https://" ++ host ++ path) = some host := by
  have hend : path.toList.takeWhile (fun c => !endsAuthority c) = [] := by
    cases hl : path.toList with
    | nil => rfl
    | cons c rest =>
      rw [hl] at hpath
      rcases hpath with h | h <;> cases h <;> rfl
  rw [authorityOf_append hvalid, hend, String.ofList_nil, String.append_empty]

/-- The asterisk is read as a part of the host. -/
theorem not_stays_asterisk (hvalid : isValidHost host = true) (ht : pathOf target = "*") :
    ¬ (Reply.permanentRedirect ("https://" ++ host ++ pathOf target)).Stays domain target := by
  rintro ⟨authority, ha, hdomain, -⟩
  rw [authorityOf_append hvalid, ht, Option.some_inj] at ha
  refine absurd (isHostChar_of_isValidHost hdomain.valid '*' ?_) (by decide)
  rw [← ha, String.toList_append]
  exact List.mem_append_right _ (by decide)

/-- Exactly the requests for the domain are redirected, and exactly those of them that ask for `*`
are led away from it. -/
theorem redirect_stays (domain : String) (headers : Headers) (target : Option PathAndQuery) :
    ((runHttpRedirect domain headers target).Stays domain target ↔
      ¬ (pathOf target = "*" ∧ AsksDomain domain headers)) ∧
    (runHttpRedirect domain headers target = .badRequest ↔ ¬ AsksDomain domain headers) := by
  rcases runHttpRedirect_cases domain headers target with ⟨hasks, h⟩ | ⟨hasks, host, hdomain, h⟩
  · rw [h]
    exact ⟨iff_of_true trivial fun ha => hasks ha.2, iff_of_true rfl hasks⟩
  · rw [h]
    refine ⟨?_, iff_of_false (by simp) (not_not.mpr hasks)⟩
    by_cases ht : pathOf target = "*"
    · exact iff_of_false (not_stays_asterisk hdomain.valid ht) (not_not.mpr ⟨ht, hasks⟩)
    · refine iff_of_true ⟨host, authorityOf_host hdomain.valid ?_, hdomain, rfl⟩ fun ha => ht ha.1
      cases target with
      | none => exact .inl rfl
      | some target => exact target.form.resolve_left ht

/-- A page of a resource, asked for in the clear. -/
def loginPage : PathAndQuery := ⟨"/login?next=%2F", .inr (.inl rfl)⟩

theorem redirect_stays_subdomain :
    runHttpRedirect "example.com" [("host", "App.example.com:80")] (some loginPage) =
        .permanentRedirect "https://app.example.com/login?next=%2F" ∧
      (Reply.permanentRedirect "https://app.example.com/login?next=%2F").Stays "example.com"
        (some loginPage) := by
  have hreply : runHttpRedirect "example.com" [("host", "App.example.com:80")] (some loginPage) =
      .permanentRedirect "https://app.example.com/login?next=%2F" := by decide
  have h := (redirect_stays "example.com" [("host", "App.example.com:80")] (some loginPage)).1
  rw [hreply] at h
  exact ⟨hreply, h.mpr fun ha => absurd ha.1 (by decide)⟩

/-- The target of `OPTIONS *`. -/
def asterisk : PathAndQuery := ⟨"*", .inl rfl⟩

/-- `OPTIONS *` to the domain itself leads to a host that cannot be. -/
theorem asterisk_leaves_domain :
    isValidDomain "example.com" = true ∧
      runHttpRedirect "example.com" [("host", "example.com")] (some asterisk) =
        .permanentRedirect "https://example.com*" ∧
      authorityOf "https://example.com*" = some "example.com*" ∧
      isValidHost "example.com*" = false ∧
      ¬ (Reply.permanentRedirect "https://example.com*").Stays "example.com" (some asterisk) := by
  refine ⟨by decide, by decide, by decide, by decide, ?_⟩
  exact @not_stays_asterisk "example.com" "example.com" (some asterisk) (by decide) rfl

end X2rp.Proxy
