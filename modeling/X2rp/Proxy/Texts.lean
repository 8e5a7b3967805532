import X2rp.Admin.Server

/-! What is relied on of addresses and blocks as text, and a way of writing them that has it. -/
namespace X2rp.Proxy

open Proto Admin

/-- What is relied on of `IpAddr` as text: it can be read back, and it has no slash. -/
structure AddrTexts (E : Env) : Prop where
  parse : ∀ ip, E.parseAddr (E.displayAddr ip) = some ip
  no_slash : ∀ ip, '/' ∉ (E.displayAddr ip).toList

/-- A block with no more leading bits than its addresses have. -/
def Valid (net : IpNet) : Prop :=
  match net.addr with
  | .v4 _ => net.prefixLen ≤ 32
  | .v6 _ => net.prefixLen ≤ 128

instance (net : IpNet) : Decidable (Valid net) := by
  unfold Valid
  split <;> infer_instance

/-- What is relied on of `IpNet` as text: it can be read back, and it has no blanks. -/
structure NetTexts (E : Env) : Prop where
  valid : ∀ text net, E.parseNet text = some net → Valid net
  parse : ∀ net, Valid net → E.parseNet (E.displayNet net) = some net
  plain : ∀ net, Valid net → ∀ c ∈ (E.displayNet net).toList, isWhitespace c = false
  nonempty : ∀ net, Valid net → E.displayNet net ≠ ""

variable {E : Env} {ip ip' : IpAddr} {net : IpNet}

theorem AddrTexts.inj (h : AddrTexts E) (he : E.displayAddr ip = E.displayAddr ip') : ip = ip' := by
  have := h.parse ip
  rw [he, h.parse ip'] at this
  exact (Option.some_inj.mp this).symm

def home : Ipv4Addr := .new 203 0 113 9

/-- A number for each address. -/
def code : IpAddr → Nat
  | .v4 addr => 2 * addr.toNat
  | .v6 addr => 2 * addr.toNat + 1

def decode (n : Nat) : IpAddr :=
  if n % 2 = 0 then .v4 (.ofNat 32 (n / 2)) else .v6 (.ofNat 128 (n / 2))

theorem decode_code : decode (code ip) = ip := by
  cases ip with
  | v4 addr => simp [decode, code]
  | v6 addr =>
    have h : (2 * addr.toNat + 1) / 2 = addr.toNat := by omega
    simp [decode, code, h]

/-- Right on the one host that is used here; all other addresses are numbers. -/
def displayHome (ip : IpAddr) : String :=
  if ip = .v4 home then "203.0.113.9"
  else if ip = .v6 home.toIpv6Mapped then "::ffff:203.0.113.9"
  else toString (code ip)

def parseHome (text : String) : Option IpAddr :=
  if text = "203.0.113.9" then some (.v4 home)
  else if text = "::ffff:203.0.113.9" then some (.v6 home.toIpv6Mapped)
  else if text.toList.all Char.isDigit then some (decode (Nat.ofDigitChars 10 text.toList 0))
  else none

theorem digits_toString (n : Nat) : (toString n).toList.all Char.isDigit = true := by
  rw [List.all_eq_true, Nat.toString_eq_ofList_toDigits, String.toList_ofList]
  exact fun c hc => Nat.isDigit_of_mem_toDigits (by decide) (by decide) hc

theorem ofDigitChars_toString (n : Nat) : Nat.ofDigitChars 10 (toString n).toList 0 = n := by
  simp

theorem ne_of_digits {text : String} {n : Nat} (h : text.toList.all Char.isDigit = false) :
    toString n ≠ text := by
  rintro rfl
  rw [digits_toString] at h
  cases h

theorem parseHome_displayHome : parseHome (displayHome ip) = some ip := by
  unfold displayHome
  split
  · rename_i h
    rw [h]
    rfl
  · split
    · rename_i h
      rw [h]
      rfl
    · have h1 : toString (code ip) ≠ "203.0.113.9" := ne_of_digits (by decide)
      have h2 : toString (code ip) ≠ "::ffff:203.0.113.9" := ne_of_digits (by decide)
      rw [parseHome, if_neg h1, if_neg h2, if_pos (digits_toString _), ofDigitChars_toString,
        decode_code]

/-- The signs of an address besides its digits. -/
def isSign (c : Char) : Bool := c == '.' || c == ':' || c == 'f'

/-- What an address looks like. -/
theorem mem_displayHome {c : Char} (h : c ∈ (displayHome ip).toList) :
    c.isDigit = true ∨ isSign c = true := by
  have hall : (displayHome ip).toList.all (fun c => c.isDigit || isSign c) = true := by
    unfold displayHome
    split
    · decide
    · split
      · decide
      · rw [List.all_eq_true]
        intro c hc
        rw [List.all_eq_true.mp (digits_toString _) c hc, Bool.true_or]
  exact Bool.or_eq_true_iff.mp (List.all_eq_true.mp hall c h)

/-- A block is its address, a slash and the length of its prefix. -/
def displayNetHome (net : IpNet) : String := displayHome net.addr ++ "/" ++ toString net.prefixLen

def parseNetHome (text : String) : Option IpNet := do
  let addr ← parseHome (.ofList (text.toList.takeWhile fun c => c ≠ '/'))
  match text.toList.dropWhile fun c => c ≠ '/' with
  | '/' :: digits =>
    let net := ⟨addr, Nat.ofDigitChars 10 digits 0⟩
    if digits.all Char.isDigit && decide (Valid net) then some net else none
  | _ => none

theorem slash_notMem : '/' ∉ (displayHome ip).toList := by
  intro h
  rcases mem_displayHome h with h | h <;> revert h <;> decide

theorem parseNetHome_displayNetHome (h : Valid net) :
    parseNetHome (displayNetHome net) = some net := by
  have htext : (displayNetHome net).toList =
      (displayHome net.addr).toList ++ '/' :: (toString net.prefixLen).toList := by
    simp [displayNetHome]
  have hne : ∀ c ∈ (displayHome net.addr).toList, decide (c ≠ '/') = true := by
    intro c hc
    exact decide_eq_true fun he => slash_notMem (he ▸ hc)
  have htake : (displayNetHome net).toList.takeWhile (fun c => decide (c ≠ '/')) =
      (displayHome net.addr).toList := by
    rw [htext, List.takeWhile_append_of_pos hne]
    simp
  have hdrop : (displayNetHome net).toList.dropWhile (fun c => decide (c ≠ '/')) =
      '/' :: (toString net.prefixLen).toList := by
    rw [htext, List.dropWhile_append_of_pos hne]
    simp
  unfold parseNetHome
  rw [htake, hdrop, String.ofList_toList, parseHome_displayHome]
  simp only [Option.bind_eq_bind, Option.bind_some, ofDigitChars_toString, digits_toString]
  rw [if_pos (by simpa using h)]

/-- The texts of one host are right, and all can be read back. -/
def homeEnv : Env :=
  { sampleEnv with
    parseNet := parseNetHome
    parseAddr := parseHome
    displayAddr := displayHome
    displayNet := displayNetHome }

theorem addrTexts_home : AddrTexts homeEnv := ⟨fun _ => parseHome_displayHome, fun _ => slash_notMem⟩

theorem isWhitespace_of_isDigit {c : Char} (h : c.isDigit = true) : isWhitespace c = false := by
  simp only [Char.isDigit, Bool.and_eq_true, decide_eq_true_eq] at h
  have h1 : 48 ≤ c.toNat := UInt32.le_iff_toNat_le.mp h.1
  have h2 : c.toNat ≤ 57 := UInt32.le_iff_toNat_le.mp h.2
  simp only [isWhitespace]
  grind

theorem isWhitespace_of_isSign {c : Char} (h : isSign c = true) : isWhitespace c = false := by
  simp only [isSign, Bool.or_eq_true, beq_iff_eq] at h
  rcases h with (rfl | rfl) | rfl <;> decide

theorem netTexts_home : NetTexts homeEnv where
  valid text net h := by
    change parseNetHome text = some net at h
    unfold parseNetHome at h
    simp only [Option.bind_eq_bind, Option.bind_eq_some_iff] at h
    obtain ⟨addr, -, h⟩ := h
    split at h
    · split at h
      · rename_i hv
        cases h
        exact of_decide_eq_true (Bool.and_eq_true_iff.mp hv).2
      · cases h
    · cases h
  parse net := parseNetHome_displayNetHome
  plain net _ c hc := by
    change c ∈ (displayNetHome net).toList at hc
    simp only [displayNetHome, String.toList_append, List.mem_append] at hc
    rcases hc with (hc | hc) | hc
    · rcases mem_displayHome hc with hc | hc
      · exact isWhitespace_of_isDigit hc
      · exact isWhitespace_of_isSign hc
    · rw [List.mem_singleton.mp hc]
      decide
    · exact isWhitespace_of_isDigit (List.all_eq_true.mp (digits_toString _) c hc)
  nonempty net _ h := by
    have := congrArg String.toList h
    change (displayNetHome net).toList = [] at this
    simp [displayNetHome] at this

end X2rp.Proxy
