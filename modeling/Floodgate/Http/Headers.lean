/-
  Floodgate/Http/Headers.lean
  ===========================
  **Header fields.**  A header section is a list of fields in the order in which
  they were added.  Names are kept in lower case, so that they compare without
  regard to case; a name may occur more than once.  Values are bytes: a value has
  a text only if all its bytes are visible ASCII, spaces or tabs, and whatever
  looks at header text passes over values that have none.
-/
import Floodgate.Text.Scan

namespace Floodgate.Http

abbrev Bytes := List UInt8

def utf8 (s : String) : Bytes := s.toUTF8.toList

/-- A header field; the name is in lower case. -/
structure Header where
  name : String
  value : Bytes
deriving DecidableEq, Repr

abbrev Headers := List Header

def visible (b : UInt8) : Bool := (32 ≤ b && b ≤ 126) || b = 9

/-- The text of a value, if all its bytes can stand in text. -/
def text? (value : Bytes) : Option (List Char) :=
  if value.all visible then some (value.map fun b => Char.ofNat b.toNat) else none

/-- A field name as it is kept; names are the same in any case. -/
def fieldName (name : String) : String := String.ofList (name.toList.map Text.lower)

namespace Headers

/-- Adds a field at the end; its name may be in any case. -/
def append (hs : Headers) (name : String) (value : Bytes) : Headers :=
  hs ++ [⟨fieldName name, value⟩]

/-- The fields of a list, added in its order. -/
def ofList (fields : List (String × Bytes)) : Headers :=
  fields.foldl (fun hs f => hs.append f.1 f.2) []

/-- The values of a name, in order. -/
def values (hs : Headers) (name : String) : List Bytes :=
  (hs.filter fun h => h.name == name).map Header.value

/-- The texts of a name's values, in order; values without text are left out. -/
def texts (hs : Headers) (name : String) : List (List Char) := (hs.values name).filterMap text?

/-- The text of a name's first value, if there is one and it has a text. -/
def firstText? (hs : Headers) (name : String) : Option (List Char) :=
  match hs.values name with
  | [] => none
  | v :: _ => text? v

def has (hs : Headers) (name : String) : Bool := hs.any fun h => h.name == name

def remove (hs : Headers) (name : String) : Headers := hs.filter fun h => h.name != name

/-- One field of this name with this value, in place of all others of the name. -/
def replace (hs : Headers) (name : String) (value : Bytes) : Headers :=
  (hs.remove name).append name value

/-- The fields ordered by name; those of one name keep their order. -/
def byName (hs : Headers) : Headers := hs.mergeSort fun a b => !(decide (b.name < a.name))

theorem values_append_self (hs : Headers) (name : String) (value : Bytes)
    (h : fieldName name = name) :
    (hs.append name value).values name = hs.values name ++ [value] := by
  simp [append, values, h]

theorem values_remove_ne (hs : Headers) {name other : String} (h : other ≠ name) :
    (hs.remove name).values other = hs.values other := by
  simp only [remove, values, List.filter_filter]
  congr 1
  apply List.filter_congr
  intro x _
  by_cases hx : x.name = other
  · simp [hx, h]
  · simp [hx]

end Headers

end Floodgate.Http
