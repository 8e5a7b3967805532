import Mathlib.Data.List.Nodup
import Mathlib.Data.List.DropRight
import Mathlib.Logic.Relation

/-! Cookies as a host meets them: how they are written in a request, and what the host may expect of
the browser that keeps them. -/
namespace Browser

abbrev Text := List Char

def isBlank (c : Char) : Bool := c == ' ' || c == '\t'

def strip (text : Text) : Text := (text.dropWhile isBlank).rdropWhile isBlank

def lower (text : Text) : Text := text.map Char.toLower

/-- Names that only the host itself can set, in any case of letters. -/
def hostPrefixed (text : Text) : Bool := "__host-".toList.isPrefixOf (lower text)

/-- Neither a separator nor a control character. -/
def Clean (text : Text) : Prop := ∀ c ∈ text, c ≠ ';' ∧ (c.toNat ≥ 32 ∨ c = '\t') ∧ c.toNat ≠ 127

instance (text : Text) : Decidable (Clean text) :=
  List.decidableBAll (fun c => c ≠ ';' ∧ (c.toNat ≥ 32 ∨ c = '\t') ∧ c.toNat ≠ 127) text

/-- A cookie as a request carries it. -/
structure Cookie where
  name : Text
  value : Text
  clean : Clean name ∧ Clean value
  stripped : strip name = name ∧ strip value = value
  unequal : '=' ∉ name
  nameless : name = [] → value ≠ [] ∧ hostPrefixed value = false

/-- How it is written. -/
def Cookie.piece (k : Cookie) : Text := if k.name = [] then k.value else k.name ++ '=' :: k.value

/-- What is left and right of the first `=`, if there is one. -/
def cut (text : Text) : Option (Text × Text) :=
  match text.dropWhile (· ≠ '=') with
  | [] => none
  | _ :: rest => some (text.takeWhile (· ≠ '='), rest)

theorem head_of_dropWhile {p : Char → Bool} {text : Text} (h : text.dropWhile p = text) (c : Char)
    (hc : text.head? = some c) : p c = false := by
  cases text with
  | nil => cases hc
  | cons c' text =>
    cases hc
    by_contra hp
    rw [Bool.not_eq_false] at hp
    rw [List.dropWhile_cons_of_pos hp] at h
    have := (List.dropWhile_suffix (l := text) p).length_le
    rw [h, List.length_cons] at this
    omega

theorem ends_of_strip {text : Text} (h : strip text = text) :
    (∀ c, text.head? = some c → isBlank c = false) ∧
      ∀ c, text.getLast? = some c → isBlank c = false := by
  have hdrop : text.dropWhile isBlank = text := by
    refine (List.dropWhile_sublist isBlank).eq_of_length_le ?_
    conv_lhs => rw [← h]
    exact (List.rdropWhile_prefix isBlank _).length_le
  refine ⟨head_of_dropWhile hdrop, fun c hc => ?_⟩
  rw [strip, hdrop, List.rdropWhile, List.reverse_eq_iff] at h
  exact head_of_dropWhile h c (by rwa [List.head?_reverse])

theorem dropWhile_of_head {p : Char → Bool} {text : Text}
    (h : ∀ c, text.head? = some c → p c = false) : text.dropWhile p = text := by
  cases text with
  | nil => rfl
  | cons c text => exact List.dropWhile_cons_of_neg (by simp [h c rfl])

/-- A character that nothing is done to on its way. -/
def isToken (c : Char) : Bool := 33 ≤ c.toNat && c.toNat < 127 && c != ';' && c != '='

theorem isToken_iff {c : Char} : isToken c = true ↔ 33 ≤ c.toNat ∧ c.toNat < 127 ∧ c ≠ ';' ∧ c ≠ '=' := by
  simp [isToken, and_assoc]

theorem isBlank_of_isToken {c : Char} (h : isToken c = true) : isBlank c = false := by
  rw [isToken_iff] at h
  have hblank : c ≠ ' ' := by
    rintro rfl
    exact absurd h.1 (by decide)
  have htab : c ≠ '\t' := by
    rintro rfl
    exact absurd h.1 (by decide)
  simp [isBlank, hblank, htab]

section Token

variable {text : Text} (h : text.all isToken = true)
include h

theorem clean_of_token : Clean text := by
  intro c hc
  obtain ⟨hge, hlt, hsemi, -⟩ := isToken_iff.mp (List.all_eq_true.mp h c hc)
  exact ⟨hsemi, .inl (by omega), by omega⟩

theorem strip_of_token : strip text = text := by
  have hblank : ∀ c ∈ text, isBlank c = false := fun c hc =>
    isBlank_of_isToken (List.all_eq_true.mp h c hc)
  have hstart : text.dropWhile isBlank = text :=
    dropWhile_of_head fun c hc => hblank c (List.mem_of_head? hc)
  have hend : text.reverse.dropWhile isBlank = text.reverse :=
    dropWhile_of_head fun c hc => hblank c (List.mem_reverse.mp (List.mem_of_head? hc))
  rw [strip, hstart, List.rdropWhile, hend, List.reverse_reverse]

theorem notMem_of_token : '=' ∉ text ∧ ';' ∉ text :=
  ⟨fun hc => (isToken_iff.mp (List.all_eq_true.mp h _ hc)).2.2.2 rfl,
    fun hc => (isToken_iff.mp (List.all_eq_true.mp h _ hc)).2.2.1 rfl⟩

end Token

theorem cut_append {name value : Text} (h : '=' ∉ name) : cut (name ++ '=' :: value) = some (name, value) := by
  have hname : ∀ c ∈ name, decide (c ≠ '=') = true := by
    intro c hc
    rw [decide_eq_true_eq]
    rintro rfl
    exact h hc
  rw [cut, List.dropWhile_append_of_pos hname, List.takeWhile_append_of_pos hname]
  simp

/-- The text of a `Cookie` header, and of what scripts read. -/
def header (cookies : List Cookie) : Text := "; ".toList.intercalate (cookies.map Cookie.piece)

variable {cookies : List Cookie} {k : Cookie} {c : Char}

theorem intercalate_blank (p : Text) (ps : List Text) :
    "; ".toList.intercalate (p :: ps) = [';'].intercalate (p :: ps.map (' ' :: ·)) := by
  induction ps generalizing p with
  | nil => simp
  | cons q ps ih =>
    have h := ih q
    simp only [List.map_cons, List.intercalate_cons_cons] at h ⊢
    rw [h]
    cases ps with
    | nil => simp
    | cons r ps => simp [List.intercalate_cons_cons]

theorem Cookie.clean_piece (k : Cookie) : Clean k.piece := by
  unfold piece
  split
  · exact k.clean.2
  · intro c hc
    rcases List.mem_append.mp hc with hc | hc
    · exact k.clean.1 c hc
    · rcases List.mem_cons.mp hc with rfl | hc
      · exact ⟨by decide, .inl (by decide), by decide⟩
      · exact k.clean.2 c hc

theorem Cookie.notMem_piece (k : Cookie) : ';' ∉ k.piece := fun h => (k.clean_piece _ h).1 rfl

/-- A cookie begins and ends with no blank, however it is written. -/
theorem Cookie.ends_piece (k : Cookie) : (∀ c, k.piece.head? = some c → isBlank c = false) ∧
    ∀ c, k.piece.getLast? = some c → isBlank c = false := by
  obtain ⟨hname, -⟩ := ends_of_strip k.stripped.1
  obtain ⟨hvalue, hend⟩ := ends_of_strip k.stripped.2
  unfold piece
  split
  · exact ⟨hvalue, hend⟩
  · rename_i hn
    constructor
    · intro c hc
      refine hname c ?_
      obtain ⟨c', rest, he⟩ := List.exists_cons_of_ne_nil hn
      rw [he] at hc ⊢
      exact hc
    · intro c hc
      rw [List.getLast?_append, List.getLast?_cons] at hc
      cases hv : k.value.getLast? with
      | none =>
        rw [hv] at hc
        cases hc
        rfl
      | some c' =>
        rw [hv] at hc
        cases hc
        exact hend _ hv

/-- A reader that splits the header at each `;` finds the cookies, all but the first after a
blank. -/
theorem splitOn_header (k : Cookie) (cookies : List Cookie) : (header (k :: cookies)).splitOn ';' =
    k.piece :: cookies.map fun k' => ' ' :: k'.piece := by
  rw [header, List.map_cons, intercalate_blank]
  rw [List.splitOn_intercalate ';' ?_ (List.cons_ne_nil _ _), List.map_map]
  · rfl
  · intro l hl
    rcases List.mem_cons.mp hl with rfl | hl
    · exact k.notMem_piece
    · obtain ⟨p, hp, rfl⟩ := List.mem_map.mp hl
      obtain ⟨k', -, rfl⟩ := List.mem_map.mp hp
      simp [k'.notMem_piece]

theorem header_cons_cons (k k' : Cookie) (cookies : List Cookie) :
    header (k :: k' :: cookies) = k.piece ++ "; ".toList ++ header (k' :: cookies) := by
  rw [header, List.map_cons, List.map_cons, List.intercalate_cons_cons]
  rfl

theorem hostPrefixed_of_prefix {text text' : Text} (h : text <+: text')
    (hp : hostPrefixed text = true) : hostPrefixed text' = true := by
  rw [hostPrefixed, List.isPrefixOf_iff_prefix] at hp ⊢
  exact hp.trans (h.map Char.toLower)

theorem prefix_of_cut {text name value : Text} (h : cut text = some (name, value)) : name <+: text := by
  unfold cut at h
  split at h
  · cases h
  · cases h
    exact List.takeWhile_prefix _

/-- Nobody but a cookie of that name is read under a name that only the host can set. -/
theorem Cookie.cut_piece {name value : Text} (hp : hostPrefixed name = true) :
    cut k.piece = some (name, value) ↔ k.name = name ∧ k.value = value := by
  unfold piece
  split
  · rename_i hn
    constructor
    · intro h
      have := hostPrefixed_of_prefix (prefix_of_cut h) hp
      rw [(k.nameless hn).2] at this
      cases this
    · rintro ⟨rfl, -⟩
      rw [hn] at hp
      cases hp
  · rw [cut_append k.unequal, Option.some_inj, Prod.mk.injEq]

section Agent

/-- A cookie that a host sets for itself alone, under a name that no other can set. The limits are
those of the browsers. -/
structure Setting where
  name : Text
  value : Text
  httpOnly : Bool
  maxAge : Nat
  prefixed : hostPrefixed name = true
  token : name.all isToken = true ∧ value.all isToken = true
  size : name.length + value.length ≤ 4096
  age : maxAge ≤ 400 * 86400

namespace Setting

def attrs (c : Setting) : List Text :=
  " Path=/".toList :: (if c.httpOnly then [" HttpOnly".toList] else []) ++
    [" Secure".toList, " SameSite=Strict".toList, " Max-Age=".toList ++ (toString c.maxAge).toList]

/-- The value of the `Set-Cookie` header. -/
def text (c : Setting) : Text := c.name ++ '=' :: c.value ++ c.attrs.flatMap (';' :: ·)

end Setting

/-- What is known of a cookie that only the host can have set. -/
structure Own where
  value : Text
  httpOnly : Bool
  expires : Option Nat

def Own.live (now : Nat) (c : Own) : Bool := c.expires.all (now < ·)

/-- A browser, as far as one host and its cookies are concerned. -/
structure Agent (σ : Type*) where
  /-- The cookie kept under a name that only the host can set. -/
  own : σ → Text → Option Own
  /-- The host sets a cookie, over a secure connection. -/
  takes : Nat → Text → σ → σ → Prop
  /-- Another host sets a cookie, or tries to. -/
  tossed : Nat → Text → σ → σ → Prop
  /-- Cookies have to make room. -/
  forgets : σ → σ → Prop
  /-- What goes with a request of the host's pages for a path. -/
  sends : Nat → Text → σ → List Cookie → Prop
  /-- What the scripts of a page can read. -/
  shows : Nat → Text → σ → List Cookie → Prop

namespace Agent

variable {σ : Type*}

/-- What browsers promise a host about the names that no other host can set. `second` is a second
of the clock. -/
structure Lawful (b : Agent σ) (second : Nat) : Prop where
  takes {t : Nat} {c : Setting} {s s' : σ} {name : Text} : b.takes t c.text s s' →
    hostPrefixed name = true → b.own s' name =
      if name = c.name then some ⟨c.value, c.httpOnly, some (t + second * c.maxAge)⟩
      else b.own s name
  tossed {t : Nat} {text : Text} {s s' : σ} {name : Text} : b.tossed t text s s' →
    hostPrefixed name = true → b.own s' name = b.own s name
  forgets {s s' : σ} {name : Text} : b.forgets s s' → hostPrefixed name = true →
    b.own s' name = b.own s name ∨ b.own s' name = none
  sends {now : Nat} {path : Text} {s : σ} {cookies : List Cookie} {name value : Text} :
    b.sends now path s cookies → path.head? = some '/' → hostPrefixed name = true →
    ((∃ k ∈ cookies, k.name = name ∧ k.value = value) ↔
      ∃ c, b.own s name = some c ∧ c.value = value ∧ c.live now = true)
  shows {now : Nat} {path : Text} {s : σ} {cookies : List Cookie} {name value : Text} :
    b.shows now path s cookies → path.head? = some '/' → hostPrefixed name = true →
    ((∃ k ∈ cookies, k.name = name ∧ k.value = value) ↔
      ∃ c, b.own s name = some c ∧ c.value = value ∧ c.live now = true ∧ c.httpOnly = false)
  /-- What a page at the root can read goes with every request. -/
  root {now : Nat} {path : Text} {s : σ} {cookies seen : List Cookie} : b.sends now path s cookies →
    b.shows now ['/'] s seen → path.head? = some '/' → seen ⊆ cookies

/-- The host's response has these `Set-Cookie` headers. -/
def Receives (b : Agent σ) (t : Nat) : List Text → σ → σ → Prop
  | [], s, s' => s' = s
  | text :: texts, s, s' => ∃ m, b.takes t text s m ∧ b.Receives t texts m s'

/-- Another host sets a cookie. -/
def Toss (b : Agent σ) (s s' : σ) : Prop := ∃ t text, b.tossed t text s s'

/-- What happens to the cookies besides. -/
def Alien (b : Agent σ) (s s' : σ) : Prop := b.Toss s s' ∨ b.forgets s s'

/-- Cookies that are all the same one of the host have one value. -/
theorem value_eq {own : Option Own} {p : Own → Prop} {cookies : List Cookie} {name : Text}
    (h : ∀ value, (∃ k ∈ cookies, k.name = name ∧ k.value = value) →
      ∃ c, own = some c ∧ c.value = value ∧ p c) :
    ∀ k ∈ cookies, ∀ k' ∈ cookies, k.name = name → k'.name = name → k.value = k'.value := by
  intro k hk k' hk' hn hn'
  obtain ⟨c, hc, hv, -⟩ := h k.value ⟨k, hk, hn, rfl⟩
  obtain ⟨c', hc', hv', -⟩ := h k'.value ⟨k', hk', hn', rfl⟩
  rw [hc, Option.some_inj] at hc'
  rw [← hv, ← hv', hc']

namespace Lawful

variable {b : Agent σ} {second : Nat} (hb : b.Lawful second) {s s' : σ} {name : Text}
include hb

/-- Others can do nothing to what only the host can set. -/
theorem own_of_tosses (h : Relation.ReflTransGen b.Toss s s') (hp : hostPrefixed name = true) :
    b.own s' name = b.own s name := by
  induction h with
  | refl => rfl
  | tail _ hs ih =>
    obtain ⟨t, text, hs⟩ := hs
    rw [hb.tossed hs hp, ih]

/-- The browser may forget it. -/
theorem own_of_aliens {c : Own} (h : Relation.ReflTransGen b.Alien s s')
    (hp : hostPrefixed name = true) (hc : b.own s' name = some c) : b.own s name = some c := by
  induction h with
  | refl => exact hc
  | tail _ hs ih =>
    rcases hs with ⟨t, text, hs⟩ | hs
    · exact ih (hb.tossed hs hp ▸ hc)
    · rcases hb.forgets hs hp with he | he
      · exact ih (he ▸ hc)
      · rw [he] at hc
        cases hc

/-- Two settings of different names both last. -/
theorem own_of_receives {t : Nat} {c c' : Setting} (h : b.Receives t [c.text, c'.text] s s')
    (hne : c.name ≠ c'.name) :
    b.own s' c.name = some ⟨c.value, c.httpOnly, some (t + second * c.maxAge)⟩ ∧
      b.own s' c'.name = some ⟨c'.value, c'.httpOnly, some (t + second * c'.maxAge)⟩ := by
  obtain ⟨m, hm, m', hm', rfl⟩ := h
  rw [hb.takes hm' c.prefixed, if_neg hne, hb.takes hm c.prefixed, if_pos rfl,
    hb.takes hm' c'.prefixed, if_pos rfl]
  exact ⟨rfl, rfl⟩

end Lawful

end Agent

end Agent

end Browser
