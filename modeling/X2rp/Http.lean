import Mathlib.Data.List.Basic

/-! Header maps. Names are in lower case, and a value's bytes are its characters. -/
namespace X2rp.Http

abbrev Headers := List (String × String)

/-- `HeaderValue::to_str`: only visible ASCII and tabs are text. -/
def toStr (value : String) : Option String :=
  if value.toList.all fun c => (32 ≤ c.toNat && c.toNat < 127) || c == '\t' then some value else none

namespace Headers

variable (headers : Headers) (name value : String)

/-- The first value under a name. -/
def get : Option String := (headers.find? fun entry => entry.1 == name).map Prod.snd

def remove : Headers := headers.filter fun entry => entry.1 ≠ name

def insert : Headers := headers.remove name ++ [(name, value)]

def containsKey : Bool := (headers.get name).isSome

variable {headers name value} {other : String}

theorem get_remove_of_ne (h : other ≠ name) : (headers.remove name).get other = headers.get other := by
  unfold get remove
  rw [List.find?_filter]
  congr 2
  funext entry
  by_cases he : entry.1 = other
  · simp [he, h]
  · simp [he]

@[simp] theorem get_remove_self : (headers.remove name).get name = none := by
  simp [get, remove]

theorem get_append {rest : Headers} :
    Headers.get (headers ++ rest) name = (headers.get name).or (Headers.get rest name) := by
  simp [get, List.find?_append, Option.map_or]

@[simp] theorem get_insert_self : (headers.insert name value).get name = some value := by
  rw [insert, get_append, get_remove_self]
  simp [get]

theorem get_insert_of_ne (h : other ≠ name) :
    (headers.insert name value).get other = headers.get other := by
  rw [insert, get_append, get_remove_of_ne h]
  simp [get, Ne.symm h]

end Headers

theorem dropPrefix?_iff {l p rest : List Char} : l.dropPrefix? p = some rest ↔ l = p ++ rest := by
  rw [List.dropPrefix?_eq_some_iff]
  constructor
  · rintro ⟨p', he, hp⟩
    rw [he, eq_of_beq hp]
  · intro h
    exact ⟨p, h, beq_self_eq_true p⟩

end X2rp.Http
