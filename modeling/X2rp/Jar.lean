import X2rp.Browser

/-! A browser that does what a host may expect: a jar that reads `Set-Cookie` headers and keeps at
most one cookie for each name, domain and path. -/
namespace Browser

/-- A cookie as it is kept. Without a domain it is for the host alone. -/
structure Kept extends Cookie where
  domain : Option Text
  path : Text
  httpOnly : Bool
  expires : Option Nat
  host : hostPrefixed name = true → domain = none ∧ path = ['/']

namespace Kept

/-- One cookie takes the place of another if these agree. -/
def key (k : Kept) : Text × Option Text × Text := (k.name, k.domain, k.path)

def own (k : Kept) : Own := ⟨k.value, k.httpOnly, k.expires⟩

def pathMatch (path : Text) (k : Kept) : Bool :=
  k.path == path || (k.path.isPrefixOf path &&
    (k.path.getLast? == some '/' || (path.drop k.path.length).head? == some '/'))

end Kept

section Reading

/-- An attribute's name in lower case, and its value. -/
def readAttr (text : Text) : Text × Text :=
  match cut text with
  | none => (lower (strip text), [])
  | some (name, value) => (lower (strip name), strip value)

/-- The last one of a name counts. -/
def attr? (attrs : List (Text × Text)) (name : String) : Option Text :=
  (attrs.reverse.find? (·.1 == name.toList)).map Prod.snd

/-- A number of seconds; a negative one is over at once. -/
def maxAge? : Text → Option Nat
  | '-' :: digits => if digits.all Char.isDigit then some 0 else none
  | digits =>
    if digits ≠ [] ∧ digits.all Char.isDigit then some (Nat.ofDigitChars 10 digits 0) else none

/-- What comes before the first `;` of a `Set-Cookie` header, as name and value. -/
def nameValue (text : Text) : Text × Text :=
  match cut text with
  | none => ([], strip text)
  | some (name, value) => (strip name, strip value)

/-- What a response's `Set-Cookie` header says, if it is accepted. `dir` is where the request was
for. -/
def setCookie? (second now : Nat) (dir text : Text) : Option Kept :=
  match text.splitOn ';' with
  | [] => none
  | pair :: rest =>
    let attrs := rest.map readAttr
    let name := (nameValue pair).1
    let value := (nameValue pair).2
    let domain := (attr? attrs "domain").filter (· ≠ [])
    let path := ((attr? attrs "path").filter (·.head? = some '/')).getD dir
    if h : ((Clean name ∧ Clean value) ∧ (strip name = name ∧ strip value = value) ∧ '=' ∉ name) ∧
        (name = [] → value ≠ [] ∧ hostPrefixed value = false) ∧
        (hostPrefixed name = true → domain = none ∧ path = ['/']) ∧
        (hostPrefixed name = true → (attr? attrs "secure").isSome) then
      some
        { name, value, domain, path
          httpOnly := (attr? attrs "httponly").isSome
          expires := ((attr? attrs "max-age").bind maxAge?).map (now + second * ·)
          clean := h.1.1
          stripped := h.1.2.1
          unequal := h.1.2.2
          nameless := h.2.1
          host := h.2.2.1 }
    else none

theorem isDigit_of_mem {n : Nat} {c : Char} (hc : c ∈ (toString n).toList) : c.isDigit = true := by
  rw [Nat.toString_eq_ofList_toDigits, String.toList_ofList] at hc
  exact Nat.isDigit_of_mem_toDigits (by decide) (by decide) hc

theorem maxAge?_toString (n : Nat) : maxAge? (toString n).toList = some n := by
  have hdigits : (toString n).toList.all Char.isDigit = true :=
    List.all_eq_true.mpr fun c hc => isDigit_of_mem hc
  have hne : (toString n).toList ≠ [] := by simp
  unfold maxAge?
  split
  · rename_i h
    rw [h] at hdigits
    simp at hdigits
  · rw [if_pos ⟨hne, hdigits⟩]
    simp

theorem intercalate_eq_flatMap (first : Text) (rest : List Text) :
    [';'].intercalate (first :: rest) = first ++ rest.flatMap (';' :: ·) := by
  induction rest generalizing first with
  | nil => simp
  | cons part rest ih => simp [List.intercalate_cons_cons, ih]

/-- A header is split into the parts it was made of. -/
theorem splitOn_parts {first : Text} {rest : List Text} (hf : ';' ∉ first)
    (hr : ∀ part ∈ rest, ';' ∉ part) : (first ++ rest.flatMap (';' :: ·)).splitOn ';' = first :: rest := by
  rw [← intercalate_eq_flatMap]
  exact List.splitOn_intercalate ';' (List.forall_mem_cons.mpr ⟨hf, hr⟩) (List.cons_ne_nil _ _)

namespace Setting

variable (c : Setting)

theorem token_toString (n : Nat) : (toString n).toList.all isToken = true := by
  rw [List.all_eq_true]
  intro c hc
  have h := isDigit_of_mem hc
  simp only [Char.isDigit, Bool.and_eq_true, decide_eq_true_eq, UInt32.le_iff_toNat_le] at h
  have hge : 48 ≤ c.toNat := h.1
  have hle : c.toNat ≤ 57 := h.2
  refine isToken_iff.mpr ⟨by omega, by omega, ?_, ?_⟩
  · rintro rfl
    exact absurd hle (by decide)
  · rintro rfl
    exact absurd hle (by decide)

/-- The attributes as they are read. -/
theorem map_readAttr : c.attrs.map readAttr = ("path".toList, ['/']) ::
    (if c.httpOnly then [("httponly".toList, [])] else []) ++ [("secure".toList, []),
      ("samesite".toList, "Strict".toList), ("max-age".toList, (toString c.maxAge).toList)] := by
  have hage : readAttr (" Max-Age=".toList ++ (toString c.maxAge).toList) =
      ("max-age".toList, (toString c.maxAge).toList) := by
    rw [show " Max-Age=".toList ++ (toString c.maxAge).toList =
      " Max-Age".toList ++ '=' :: (toString c.maxAge).toList from rfl, readAttr,
      cut_append (by decide)]
    simp only [strip_of_token (token_toString c.maxAge)]
    rw [show lower (strip " Max-Age".toList) = "max-age".toList by decide]
  have hpath : readAttr " Path=/".toList = ("path".toList, ['/']) := by decide
  have honly : readAttr " HttpOnly".toList = ("httponly".toList, []) := by decide
  have hsecure : readAttr " Secure".toList = ("secure".toList, []) := by decide
  have hsite : readAttr " SameSite=Strict".toList = ("samesite".toList, "Strict".toList) := by decide
  rw [attrs, List.map_append, List.map_cons, hpath]
  split <;> simp only [List.map_cons, List.map_nil, hage, honly, hsecure, hsite]

theorem splitOn_text : c.text.splitOn ';' = (c.name ++ '=' :: c.value) :: c.attrs := by
  refine splitOn_parts ?_ ?_
  · simp [(notMem_of_token c.token.1).2, (notMem_of_token c.token.2).2]
  · have hage : ';' ∉ " Max-Age=".toList ++ (toString c.maxAge).toList := by
      rw [List.mem_append, not_or]
      exact ⟨by decide, (notMem_of_token (token_toString c.maxAge)).2⟩
    intro part hpart
    rw [attrs] at hpart
    cases honly : c.httpOnly <;> simp only [honly, List.mem_append, List.mem_cons, if_true, if_false,
      Bool.false_eq_true, List.not_mem_nil, or_false, or_assoc] at hpart
    · rcases hpart with rfl | rfl | rfl | rfl
      all_goals first | exact hage | decide
    · rcases hpart with rfl | rfl | rfl | rfl | rfl
      all_goals first | exact hage | decide

theorem attr?_attrs : attr? (c.attrs.map readAttr) "domain" = none ∧
    attr? (c.attrs.map readAttr) "path" = some ['/'] ∧
    attr? (c.attrs.map readAttr) "secure" = some [] ∧
    attr? (c.attrs.map readAttr) "max-age" = some (toString c.maxAge).toList ∧
    (attr? (c.attrs.map readAttr) "httponly").isSome = c.httpOnly := by
  rw [map_readAttr]
  cases c.httpOnly <;> exact ⟨rfl, rfl, rfl, rfl, rfl⟩

/-- A host's own cookie is taken as it is. -/
theorem exists_kept (second now : Nat) (dir : Text) : ∃ k,
    setCookie? second now dir c.text = some k ∧ k.name = c.name ∧
      k.own = ⟨c.value, c.httpOnly, some (now + second * c.maxAge)⟩ := by
  have hpair : nameValue (c.name ++ '=' :: c.value) = (c.name, c.value) := by
    rw [nameValue, cut_append (notMem_of_token c.token.1).1]
    simp only [strip_of_token c.token.1, strip_of_token c.token.2]
  have hne : c.name ≠ [] := by
    intro he
    have := c.prefixed
    rw [he] at this
    cases this
  obtain ⟨hdomain, hpath, hsecure, hage, honly⟩ := c.attr?_attrs
  rw [setCookie?, splitOn_text]
  simp only [hpair, hdomain, hpath]
  rw [dif_pos ⟨⟨⟨clean_of_token c.token.1, clean_of_token c.token.2⟩,
    ⟨strip_of_token c.token.1, strip_of_token c.token.2⟩, (notMem_of_token c.token.1).1⟩,
    fun he => absurd he hne, fun _ => ⟨rfl, rfl⟩, fun _ => by rw [hsecure]; rfl⟩]
  refine ⟨_, rfl, rfl, ?_⟩
  simp only [Kept.own, honly, hage, Option.bind_some, maxAge?_toString, Option.map_some]

end Setting

/-- How a host sets a cookie for its whole domain. -/
def domainText (k : Cookie) (domain : Text) : Text :=
  k.piece ++ [" Domain=".toList ++ domain, " Path=/".toList].flatMap (';' :: ·)

/-- It is taken as it is, but not under a name that only a host can set. -/
theorem setCookie?_domainText {k : Cookie} {domain : Text} (hk : k.name ≠ [])
    (hd : domain.all isToken = true) (hne : domain ≠ []) (second now : Nat) (dir : Text) :
    (hostPrefixed k.name = true → setCookie? second now dir (domainText k domain) = none) ∧
    (hostPrefixed k.name = false → ∃ kept, setCookie? second now dir (domainText k domain) = some kept ∧
      kept.toCookie = k ∧ kept.domain = some domain ∧ kept.path = ['/'] ∧ kept.expires = none) := by
  have hsplit : (domainText k domain).splitOn ';' =
      [k.piece, " Domain=".toList ++ domain, " Path=/".toList] := by
    refine splitOn_parts k.notMem_piece ?_
    simp [(notMem_of_token hd).2]
  have hpair : nameValue k.piece = (k.name, k.value) := by
    rw [Cookie.piece, if_neg hk, nameValue, cut_append k.unequal]
    simp only [k.stripped]
  have hread : [" Domain=".toList ++ domain, " Path=/".toList].map readAttr =
      [("domain".toList, domain), ("path".toList, ['/'])] := by
    have hdomain : readAttr (" Domain".toList ++ '=' :: domain) = ("domain".toList, domain) := by
      rw [readAttr, cut_append (by decide)]
      simp only [strip_of_token hd]
      rw [show lower (strip " Domain".toList) = "domain".toList by decide]
    have hpath : readAttr " Path=/".toList = ("path".toList, ['/']) := by decide
    rw [List.map_cons, List.map_cons, List.map_nil, hpath, ← hdomain]
    rfl
  have hdomain : (attr? [("domain".toList, domain), ("path".toList, ['/'])] "domain").filter
      (· ≠ []) = some domain := by
    rw [show attr? _ "domain" = some domain from rfl]
    simp [hne]
  rw [setCookie?, hsplit]
  simp only [hread, hdomain, hpair]
  constructor
  · intro hp
    rw [dif_neg]
    exact fun h => nomatch (h.2.2.1 hp).1
  · intro hp
    have hnot : ∀ {p : Prop}, hostPrefixed k.name = true → p := fun h => absurd (hp.symm.trans h) (by decide)
    rw [dif_pos ⟨⟨k.clean, k.stripped, k.unequal⟩, k.nameless, hnot, hnot⟩]
    exact ⟨_, rfl, rfl, rfl, rfl, rfl⟩

end Reading

/-- At most one cookie of each key. -/
structure Jar where
  cookies : List Kept
  keyed : (cookies.map Kept.key).Nodup

namespace Jar

variable {jar jar' : Jar} {k k' : Kept} {now : Nat} {path name value : Text}

def empty : Jar := ⟨[], List.nodup_nil⟩

theorem keyed_store (jar : Jar) (k : Kept) :
    ((jar.cookies.filter (·.key ≠ k.key) ++ [k]).map Kept.key).Nodup := by
  rw [List.map_append, List.nodup_append']
  refine ⟨jar.keyed.sublist (List.filter_sublist.map _), List.nodup_singleton _, ?_⟩
  intro key hkey hk
  obtain ⟨k', hk', rfl⟩ := List.mem_map.mp hkey
  simp only [List.map_cons, List.map_nil, List.mem_singleton] at hk
  simpa [hk] using (List.mem_filter.mp hk').2

def store (jar : Jar) (k : Kept) : Jar :=
  ⟨jar.cookies.filter (·.key ≠ k.key) ++ [k], jar.keyed_store k⟩

def remove (jar : Jar) (k : Kept) : Jar :=
  ⟨jar.cookies.filter (·.key ≠ k.key), jar.keyed.sublist (List.filter_sublist.map _)⟩

@[simp] theorem mem_remove : k' ∈ (jar.remove k).cookies ↔ k' ∈ jar.cookies ∧ k'.key ≠ k.key := by
  simp [remove]

@[simp] theorem mem_store : k' ∈ (jar.store k).cookies ↔ k' ∈ jar.cookies ∧ k'.key ≠ k.key ∨ k' = k := by
  simp [store]

def own (jar : Jar) (name : Text) : Option Own :=
  (jar.cookies.find? (·.name = name)).map Kept.own

/-- What goes with a request for a path. -/
def sent (jar : Jar) (now : Nat) (path : Text) : List Kept :=
  jar.cookies.filter fun k => k.own.live now && k.pathMatch path

/-- What scripts of a page may read. -/
def script (jar : Jar) (now : Nat) (path : Text) : List Kept :=
  (jar.sent now path).filter fun k => !k.httpOnly

/-- Cookies that only the host can set are told apart by their names. -/
theorem eq_of_hostPrefixed (hk : k ∈ jar.cookies) (hk' : k' ∈ jar.cookies) (hn : k.name = k'.name)
    (hp : hostPrefixed k.name = true) : k = k' := by
  refine List.inj_on_of_nodup_map jar.keyed hk hk' ?_
  obtain ⟨hd, hpath⟩ := k.host hp
  obtain ⟨hd', hpath'⟩ := k'.host (hn ▸ hp)
  rw [Kept.key, Kept.key, hn, hd, hd', hpath, hpath']

theorem own_eq_some (hp : hostPrefixed name = true) {c : Own} :
    jar.own name = some c ↔ ∃ k ∈ jar.cookies, k.name = name ∧ k.own = c := by
  rw [own, Option.map_eq_some_iff]
  constructor
  · rintro ⟨k, hk, hc⟩
    exact ⟨k, List.mem_of_find?_eq_some hk, by simpa using List.find?_some hk, hc⟩
  · rintro ⟨k, hk, hn, hc⟩
    obtain ⟨k', hk'⟩ : ∃ k', jar.cookies.find? (·.name = name) = some k' := by
      rw [← Option.isSome_iff_exists, List.find?_isSome]
      exact ⟨k, hk, by simpa using hn⟩
    have hn' : k'.name = name := by simpa using List.find?_some hk'
    have hsame := eq_of_hostPrefixed hk (List.mem_of_find?_eq_some hk') (hn.trans hn'.symm) (hn ▸ hp)
    exact ⟨k', hk', hsame ▸ hc⟩

/-- The jar after a header is read, of which only what `p` holds of is taken. -/
def take (jar : Jar) (p : Kept → Bool) (second now : Nat) (dir text : Text) : Jar :=
  ((setCookie? second now dir text).filter p).elim jar jar.store

/-- A browser with such a jar. -/
def agent (second : Nat) : Agent Jar where
  own := own
  takes t text jar jar' := ∃ dir, jar' = jar.take (fun _ => true) second t dir text
  tossed t text jar jar' := ∃ dir, jar' = jar.take (·.domain.isSome) second t dir text
  forgets jar jar' := ∃ k, jar' = jar.remove k
  sends now path jar cookies := cookies.Perm ((jar.sent now path).map Kept.toCookie)
  shows now path jar cookies := cookies.Perm ((jar.script now path).map Kept.toCookie)

theorem exists_of_head (hpath : path.head? = some '/') : ∃ rest, path = '/' :: rest := by
  cases path with
  | nil => cases hpath
  | cons c rest =>
    rw [List.head?_cons, Option.some_inj] at hpath
    exact ⟨rest, by rw [hpath]⟩

theorem mem_sent (hp : hostPrefixed k.name = true) (hpath : path.head? = some '/') :
    k ∈ jar.sent now path ↔ k ∈ jar.cookies ∧ k.own.live now = true := by
  obtain ⟨rest, rfl⟩ := exists_of_head hpath
  have hm : k.pathMatch ('/' :: rest) = true := by
    simp [Kept.pathMatch, (k.host hp).2]
  rw [sent, List.mem_filter, hm, Bool.and_true]

/-- What the page at the root can read goes with every request. -/
theorem script_subset (hpath : path.head? = some '/') : jar.script now ['/'] ⊆ jar.sent now path := by
  obtain ⟨rest, rfl⟩ := exists_of_head hpath
  intro k hk
  obtain ⟨hmem, hlive⟩ := List.mem_filter.mp (List.mem_filter.mp hk).1
  rw [Bool.and_eq_true] at hlive
  refine List.mem_filter.mpr ⟨hmem, Bool.and_eq_true_iff.mpr ⟨hlive.1, ?_⟩⟩
  have hm := hlive.2
  unfold Kept.pathMatch at hm ⊢
  rcases hp : k.path with _ | ⟨c, _ | ⟨c', rest'⟩⟩ <;> simp_all

theorem own_store (hp : hostPrefixed name = true) :
    (jar.store k).own name = if name = k.name then some k.own else jar.own name := by
  refine Option.ext fun c => ?_
  rw [own_eq_some hp]
  split
  · rename_i hn
    rw [Option.some_inj]
    constructor
    · rintro ⟨k', hk', hn', rfl⟩
      rw [eq_of_hostPrefixed hk' (mem_store.mpr (.inr rfl)) (hn'.trans hn) (hn' ▸ hp)]
    · exact fun hc => ⟨k, mem_store.mpr (.inr rfl), hn.symm, hc⟩
  · rename_i hn
    rw [own_eq_some hp]
    refine exists_congr fun k' => and_congr_left fun ⟨hn', _⟩ => ?_
    have hne : k'.name ≠ k.name := fun he => hn (hn'.symm.trans he)
    have hkey : k'.key ≠ k.key := fun he => hne (congrArg Prod.fst he)
    have hk : k' ≠ k := fun he => hne (by rw [he])
    simp [hkey, hk]

/-- What names a kept cookie has, and what it says, for a part of the jar. -/
theorem exists_toCookie {kept : List Kept} {cookies : List Cookie}
    (h : cookies.Perm (kept.map Kept.toCookie)) :
    (∃ k ∈ cookies, k.name = name ∧ k.value = value) ↔
      ∃ k ∈ kept, k.name = name ∧ k.value = value := by
  constructor
  · rintro ⟨k, hk, hn, hv⟩
    obtain ⟨k', hk', rfl⟩ := List.mem_map.mp (h.mem_iff.mp hk)
    exact ⟨k', hk', hn, hv⟩
  · rintro ⟨k, hk, hn, hv⟩
    exact ⟨k.toCookie, h.mem_iff.mpr (List.mem_map_of_mem hk), hn, hv⟩

/-- The jar keeps what browsers promise. -/
theorem lawful (second : Nat) : (agent second).Lawful second where
  takes := by
    rintro t c jar _ name ⟨dir, rfl⟩ hp
    obtain ⟨k, hk, hn, hown⟩ := c.exists_kept second t dir
    simp only [agent, take, hk, Option.filter_some, if_true, Option.elim_some]
    rw [own_store hp, hn, hown]
  tossed := by
    rintro t text jar _ name ⟨dir, rfl⟩ hp
    simp only [agent, take]
    cases hk : (setCookie? second t dir text).filter (·.domain.isSome) with
    | none => rfl
    | some k =>
      -- The cookie has a domain, so it has another name.
      have hd := (Option.filter_eq_some_iff.mp hk).2
      have hne : name ≠ k.name := by
        rintro rfl
        rw [(k.host hp).1] at hd
        cases hd
      rw [Option.elim_some, own_store hp, if_neg hne]
  forgets := by
    rintro jar _ name ⟨k, rfl⟩ hp
    cases hc : (jar.remove k).own name with
    | none => exact .inr hc
    | some c =>
      obtain ⟨k', hk', hn, hown⟩ := (own_eq_some hp).mp hc
      exact .inl (hc.trans ((own_eq_some hp).mpr ⟨k', (mem_remove.mp hk').1, hn, hown⟩).symm)
  sends := by
    intro now path jar cookies name value h hpath hp
    rw [exists_toCookie h]
    constructor
    · rintro ⟨k, hk, rfl, rfl⟩
      obtain ⟨hmem, hlive⟩ := (mem_sent hp hpath).mp hk
      exact ⟨k.own, (own_eq_some hp).mpr ⟨k, hmem, rfl, rfl⟩, rfl, hlive⟩
    · rintro ⟨c, hc, rfl, hlive⟩
      obtain ⟨k, hk, rfl, rfl⟩ := (own_eq_some hp).mp hc
      exact ⟨k, (mem_sent hp hpath).mpr ⟨hk, hlive⟩, rfl, rfl⟩
  shows := by
    intro now path jar cookies name value h hpath hp
    rw [exists_toCookie h]
    constructor
    · rintro ⟨k, hk, rfl, rfl⟩
      obtain ⟨hk, honly⟩ := List.mem_filter.mp hk
      obtain ⟨hmem, hlive⟩ := (mem_sent hp hpath).mp hk
      exact ⟨k.own, (own_eq_some hp).mpr ⟨k, hmem, rfl, rfl⟩, rfl, hlive,
        by simpa [Kept.own] using honly⟩
    · rintro ⟨c, hc, rfl, hlive, honly⟩
      obtain ⟨k, hk, rfl, rfl⟩ := (own_eq_some hp).mp hc
      refine ⟨k, List.mem_filter.mpr ⟨(mem_sent hp hpath).mpr ⟨hk, hlive⟩, ?_⟩, rfl, rfl⟩
      rw [show k.httpOnly = false from honly]
      rfl
  root := by
    intro now path jar cookies seen hcookies hseen hpath k hk
    obtain ⟨k', hk', rfl⟩ := List.mem_map.mp (hseen.mem_iff.mp hk)
    exact hcookies.mem_iff.mpr (List.mem_map_of_mem (script_subset hpath hk'))

section Tossed

variable {c : Cookie} {domain : Text} (hc : c.name ≠ []) (hd : domain.all isToken = true)
  (hne : domain ≠ []) (second t : Nat)
include hc hd hne

/-- Nothing comes of a try to set what only the host can set. -/
theorem tossed_hostPrefixed (hp : hostPrefixed c.name = true) (jar : Jar) :
    (agent second).tossed t (domainText c domain) jar jar := by
  refine ⟨[], ?_⟩
  rw [take, (setCookie?_domainText hc hd hne second t []).1 hp]
  rfl

/-- Any other cookie is kept besides the host's own, and goes with every request to it. -/
theorem exists_tossed (hp : hostPrefixed c.name = false) (jar : Jar) :
    ∃ jar', (agent second).tossed t (domainText c domain) jar jar' ∧
      (∀ k ∈ jar'.cookies, k ∈ jar.cookies ∨ k.toCookie = c) ∧
      ∀ now path cookies, path.head? = some '/' → (agent second).sends now path jar' cookies →
        c ∈ cookies := by
  obtain ⟨k, hk, rfl, hdomain, hkpath, hexpires⟩ :=
    (setCookie?_domainText hc hd hne second t []).2 hp
  refine ⟨jar.store k, ⟨[], ?_⟩, ?_, ?_⟩
  · rw [take, hk, Option.filter_some, hdomain]
    rfl
  · intro k' hk'
    rcases mem_store.mp hk' with ⟨hk', -⟩ | rfl
    · exact .inl hk'
    · exact .inr rfl
  · intro now path cookies hpath hsends
    obtain ⟨rest, rfl⟩ := exists_of_head hpath
    refine hsends.mem_iff.mpr (List.mem_map_of_mem ?_)
    refine List.mem_filter.mpr ⟨mem_store.mpr (.inr rfl), ?_⟩
    rw [Kept.pathMatch, hkpath, Own.live, show k.own.expires = none from hexpires]
    simp

end Tossed

end Jar

end Browser
