import Mathlib.Data.List.DropRight

/-! The names the admin API stores and routes by, and the tests it puts them to. -/
namespace X2rp.Admin

inductive StatusCode
  | badRequest
  | unauthorized
  | forbidden
  | notFound
  | methodNotAllowed
  | conflict
  | tooManyRequests
  | internalServerError
  | serviceUnavailable
deriving DecidableEq, Repr

/-- `char::is_whitespace`: the code points with the property White_Space. -/
def isWhitespace (c : Char) : Bool :=
  let n := c.toNat
  (9 ≤ n && n ≤ 13) || n == 0x20 || n == 0x85 || n == 0xA0 || n == 0x1680 ||
    (0x2000 ≤ n && n ≤ 0x200A) || n == 0x2028 || n == 0x2029 || n == 0x202F || n == 0x205F ||
    n == 0x3000

def trim (s : String) : String :=
  .ofList ((s.toList.dropWhile isWhitespace).reverse.dropWhile isWhitespace).reverse

def toAsciiLowercase (s : String) : String := .ofList (s.toList.map Char.toLower)

def eqIgnoreAsciiCase (a b : String) : Bool := toAsciiLowercase a == toAsciiLowercase b

def isAscii (s : String) : Prop := ∀ c ∈ s.toList, c.toNat < 128

instance (s : String) : Decidable (isAscii s) :=
  List.decidableBAll (fun c : Char => c.toNat < 128) s.toList

def normalizeDomain (value : String) : String := toAsciiLowercase (trim value)

def normalizeSubdomain (subdomain : String) : String := toAsciiLowercase (trim subdomain)

def normalizeConnectorId (connectorId : Option String) : Option String :=
  (connectorId.map trim).filter (· ≠ "")

/-- One DNS label: 1-63 alphanumerics or hyphens, not starting or ending with a hyphen. -/
def isValidLabel (label : String) : Bool :=
  1 ≤ label.utf8ByteSize && label.utf8ByteSize ≤ 63 &&
    label.toList.head? != some '-' && label.toList.getLast? != some '-' &&
    label.toList.all fun c => c.isAlphanum || c == '-'

/-- A hostname: dot-separated labels. -/
def isValidHost (host : String) : Bool :=
  host.utf8ByteSize ≤ 253 && (host.toList.splitOn '.').all fun label => isValidLabel (.ofList label)

/-- A hostname with at least two labels. -/
def isValidDomain (domain : String) : Bool := domain.toList.contains '.' && isValidHost domain

/-- A DNS label, and not the admin host. -/
def validateSubdomain (subdomain : String) : Except StatusCode Unit :=
  if !isValidLabel subdomain then .error .badRequest
  else if ["x2rp", "www"].contains subdomain then .error .forbidden
  else .ok ()

variable {a b domain : String}

theorem toNat_toLower {c : Char} (h : c.val ≥ 'A'.val ∧ c.val ≤ 'Z'.val) :
    c.toLower.toNat = c.toNat + 32 ∧ 65 ≤ c.toNat ∧ c.toNat ≤ 90 := by
  have hlow : c.toLower.val = c.val + 32 := congrArg Char.val (dif_pos h)
  have h1 : 65 ≤ c.val.toNat := UInt32.le_iff_toNat_le.mp h.1
  have h2 : c.val.toNat ≤ 90 := UInt32.le_iff_toNat_le.mp h.2
  have h32 : (32 : UInt32).toNat = 32 := rfl
  refine ⟨?_, h1, h2⟩
  change c.toLower.val.toNat = c.val.toNat + 32
  rw [hlow, UInt32.toNat_add]
  omega

theorem toLower_ascii {c : Char} (h : c.toNat < 128) : c.toLower.toNat < 128 := by
  by_cases hc : c.val ≥ 'A'.val ∧ c.val ≤ 'Z'.val
  · obtain ⟨hlow, -, h2⟩ := toNat_toLower hc
    omega
  · have he : c.toLower = c := dif_neg hc
    rwa [he]

theorem toLower_toLower (c : Char) : c.toLower.toLower = c.toLower := by
  by_cases h : c.val ≥ 'A'.val ∧ c.val ≤ 'Z'.val
  · obtain ⟨hlow, h1, h2⟩ := toNat_toLower h
    refine dif_neg fun hn => ?_
    have : c.toLower.toNat ≤ 90 := UInt32.le_iff_toNat_le.mp hn.2
    omega
  · have hc : c.toLower = c := dif_neg h
    rw [hc, hc]

@[simp] theorem toAsciiLowercase_toAsciiLowercase (s : String) :
    toAsciiLowercase (toAsciiLowercase s) = toAsciiLowercase s := by
  have hmap : (s.toList.map Char.toLower).map Char.toLower = s.toList.map Char.toLower := by
    rw [List.map_map]
    exact List.map_congr_left fun c _ => toLower_toLower c
  rw [toAsciiLowercase, toAsciiLowercase, String.toList_ofList, hmap]

theorem toAsciiLowercase_append (s t : String) :
    toAsciiLowercase (s ++ t) = toAsciiLowercase s ++ toAsciiLowercase t := by
  apply String.toList_inj.mp
  simp [toAsciiLowercase]

theorem isWhitespace_toLower (c : Char) : isWhitespace c.toLower = isWhitespace c := by
  by_cases h : c.val ≥ 'A'.val ∧ c.val ≤ 'Z'.val
  · obtain ⟨hlow, h1, h2⟩ := toNat_toLower h
    simp only [isWhitespace, hlow]
    grind
  · have hc : c.toLower = c := dif_neg h
    rw [hc]

theorem trim_toAsciiLowercase (s : String) :
    trim (toAsciiLowercase s) = toAsciiLowercase (trim s) := by
  apply String.toList_inj.mp
  have hw : isWhitespace ∘ Char.toLower = isWhitespace := funext isWhitespace_toLower
  simp [trim, toAsciiLowercase, List.dropWhile_map, ← List.map_reverse, hw]

theorem trim_trim (s : String) : trim (trim s) = trim s := by
  apply String.toList_inj.mp
  have hr : ∀ s, (trim s).toList = (s.toList.dropWhile isWhitespace).rdropWhile isWhitespace := by
    simp [trim, List.rdropWhile]
  rw [hr (trim s), hr s]
  generalize hl : s.toList.dropWhile isWhitespace = l
  -- The first character that is left is a prefix's first character, so it stays as well.
  have hd : (l.rdropWhile isWhitespace).dropWhile isWhitespace = l.rdropWhile isWhitespace := by
    rw [List.dropWhile_eq_self_iff]
    intro hpos
    rw [(List.rdropWhile_prefix isWhitespace l).getElem hpos]
    subst hl
    exact List.dropWhile_get_zero_not _ _ _
  rw [hd, List.rdropWhile_idempotent]

@[simp] theorem normalizeDomain_normalizeDomain (d : String) :
    normalizeDomain (normalizeDomain d) = normalizeDomain d := by
  simp only [normalizeDomain, trim_toAsciiLowercase, trim_trim, toAsciiLowercase_toAsciiLowercase]

theorem isAscii_toAsciiLowercase (h : isAscii a) : isAscii (toAsciiLowercase a) := by
  intro c hc
  simp only [toAsciiLowercase, String.toList_ofList, List.mem_map] at hc
  obtain ⟨d, hd, rfl⟩ := hc
  exact toLower_ascii (h d hd)

theorem isAscii_trim (h : isAscii a) : isAscii (trim a) := by
  intro c hc
  simp only [trim, String.toList_ofList, List.mem_reverse] at hc
  have h1 := List.mem_reverse.mp ((List.dropWhile_sublist _).subset hc)
  exact h c ((List.dropWhile_sublist _).subset h1)

theorem isAscii_append (ha : isAscii a) (hb : isAscii b) : isAscii (a ++ b) := by
  intro c hc
  rw [String.toList_append, List.mem_append] at hc
  exact hc.elim (ha c) (hb c)

theorem ascii_of_isAlphanum {c : Char} (h : c.isAlphanum = true) : c.toNat < 128 := by
  have hle : ∀ {hi : UInt32}, c.val ≤ hi → hi.toNat < 128 → c.toNat < 128 := by
    intro hi hc hlt
    exact Nat.lt_of_le_of_lt (UInt32.le_iff_toNat_le.mp hc) hlt
  rcases Bool.or_eq_true_iff.mp h with h | h
  · rcases Bool.or_eq_true_iff.mp h with h | h
    · exact hle (of_decide_eq_true h).2 (by decide)
    · exact hle (of_decide_eq_true (Bool.and_eq_true_iff.mp h).2) (by decide)
  · exact hle (of_decide_eq_true (Bool.and_eq_true_iff.mp h).2) (by decide)

theorem isAscii_of_validLabel (h : isValidLabel a = true) : isAscii a := by
  intro c hc
  simp only [isValidLabel, Bool.and_eq_true, List.all_eq_true, Bool.or_eq_true, beq_iff_eq] at h
  rcases h.2 c hc with hc | rfl
  · exact ascii_of_isAlphanum hc
  · decide

theorem validateSubdomain_ok (h : validateSubdomain a = .ok ()) :
    isValidLabel a = true ∧ a ≠ "x2rp" ∧ a ≠ "www" := by
  unfold validateSubdomain at h
  split at h
  · cases h
  · split at h
    · cases h
    · rename_i hl hr
      exact ⟨by simpa using hl, by simpa using hr⟩

/-- What a resource may be called: a lower-case label that is not reserved. -/
structure SubdomainOk (subdomain : String) : Prop where
  label : isValidLabel subdomain = true
  lower : toAsciiLowercase subdomain = subdomain
  not_admin : subdomain ≠ "x2rp"
  not_www : subdomain ≠ "www"

theorem subdomainOk_of_validate (h : validateSubdomain (normalizeSubdomain a) = .ok ()) :
    SubdomainOk (normalizeSubdomain a) := by
  obtain ⟨hl, hx, hw⟩ := validateSubdomain_ok h
  exact ⟨hl, toAsciiLowercase_toAsciiLowercase _, hx, hw⟩

/-- What the names are lowered with for routing: Unicode lowering, which on ASCII is the usual
one. -/
structure Lowering where
  toLowercase : String → String
  ascii : ∀ s, isAscii s → toLowercase s = toAsciiLowercase s

/-- `ProxyContext::fqdn`. -/
def Lowering.fqdn (L : Lowering) (domain subdomain : String) : String :=
  L.toLowercase (subdomain ++ "." ++ normalizeDomain domain)

/-- Two names lead to the same route exactly if they differ in case only. -/
theorem Lowering.fqdn_inj (L : Lowering) (ha : isAscii a) (hb : isAscii b)
    (hd : isAscii domain) : L.fqdn domain a = L.fqdn domain b ↔
      toAsciiLowercase a = toAsciiLowercase b := by
  have hlow : ∀ s, isAscii s → L.fqdn domain s =
      toAsciiLowercase s ++ toAsciiLowercase ("." ++ normalizeDomain domain) := by
    intro s hs
    have hdot : isAscii "." := by simp [isAscii]
    have hnorm : isAscii (normalizeDomain domain) := isAscii_toAsciiLowercase (isAscii_trim hd)
    rw [Lowering.fqdn, L.ascii _ (isAscii_append (isAscii_append hs hdot) hnorm)]
    apply String.toList_inj.mp
    simp [toAsciiLowercase]
  rw [hlow a ha, hlow b hb]
  refine ⟨fun h => ?_, fun h => by rw [h]⟩
  have := congrArg String.toList h
  rw [String.toList_append, String.toList_append] at this
  exact String.toList_inj.mp (List.append_cancel_right this)

end X2rp.Admin
