import Mathlib.Data.UInt
import Mathlib.Data.String.Basic

/-! Bytes as text in base 16. -/
namespace X2rp.Hex

/-- The digit of a number below 16. -/
def digit (n : Nat) : Char := if n < 10 then Char.ofNat (48 + n) else Char.ofNat (87 + n)

/-- Both cases are read. -/
def value? (c : Char) : Option Nat :=
  if '0' ≤ c ∧ c ≤ '9' then some (c.toNat - 48)
  else if 'a' ≤ c ∧ c ≤ 'f' then some (c.toNat - 87)
  else if 'A' ≤ c ∧ c ≤ 'F' then some (c.toNat - 55)
  else none

def digits (bytes : List UInt8) : List Char :=
  bytes.flatMap fun b => [digit (b.toNat / 16), digit (b.toNat % 16)]

def encode (bytes : List UInt8) : String := .ofList (digits bytes)

/-- None for an odd number of characters, and for any that is not a digit. -/
def decodeChars : List Char → Option (List UInt8)
  | [] => some []
  | [_] => none
  | a :: b :: rest => do
    let x ← value? a
    let y ← value? b
    let bytes ← decodeChars rest
    return UInt8.ofNat (16 * x + y) :: bytes

def decode (s : String) : Option (List UInt8) := decodeChars s.toList

variable {bytes : List UInt8} {c : Char}

theorem value?_digit : ∀ n < 16, value? (digit n) = some n := by decide

theorem decodeChars_digits (bytes : List UInt8) : decodeChars (digits bytes) = some bytes := by
  induction bytes with
  | nil => rfl
  | cons b bytes ih =>
    have hb : b.toNat < 256 := b.toNat_lt
    change decodeChars (digit (b.toNat / 16) :: digit (b.toNat % 16) :: digits bytes) = _
    rw [decodeChars, value?_digit _ (by omega), value?_digit _ (by omega), ih]
    change some (UInt8.ofNat (16 * (b.toNat / 16) + b.toNat % 16) :: bytes) = some (b :: bytes)
    rw [Nat.div_add_mod, UInt8.ofNat_toNat]

theorem decode_encode (bytes : List UInt8) : decode (encode bytes) = some bytes := by
  rw [decode, encode, String.toList_ofList, decodeChars_digits]

theorem exists_of_mem_encode (h : c ∈ (encode bytes).toList) : ∃ n < 16, c = digit n := by
  rw [encode, String.toList_ofList, digits, List.mem_flatMap] at h
  obtain ⟨b, -, hc⟩ := h
  have hb : b.toNat < 256 := b.toNat_lt
  simp only [List.mem_cons, List.not_mem_nil, or_false] at hc
  rcases hc with rfl | rfl
  · exact ⟨_, by omega, rfl⟩
  · exact ⟨_, by omega, rfl⟩

theorem length_encode (bytes : List UInt8) : (encode bytes).toList.length = 2 * bytes.length := by
  rw [encode, String.toList_ofList, digits, List.length_flatMap]
  simp [Nat.mul_comm]

theorem isAlphanum_digit : ∀ n < 16, (digit n).isAlphanum = true := by decide

theorem isAlphanum_of_mem (h : c ∈ (encode bytes).toList) : c.isAlphanum = true := by
  obtain ⟨n, hn, rfl⟩ := exists_of_mem_encode h
  exact isAlphanum_digit n hn

theorem utf8Size_digit : ∀ n < 16, (digit n).utf8Size = 1 := by decide

theorem utf8ByteSize_encode (bytes : List UInt8) :
    (encode bytes).utf8ByteSize = 2 * bytes.length := by
  rw [encode, String.utf8ByteSize_ofList]
  induction bytes with
  | nil => rfl
  | cons b bytes ih =>
    have hb : b.toNat < 256 := b.toNat_lt
    change String.utf8Len (digit (b.toNat / 16) :: digit (b.toNat % 16) :: digits bytes) = _
    rw [String.utf8Len_cons, String.utf8Len_cons, ih, utf8Size_digit _ (by omega),
      utf8Size_digit _ (by omega), List.length_cons]
    omega

end X2rp.Hex
