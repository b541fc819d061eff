/-
  Floodgate/Json/Value.lean
  =========================
  **JSON values and their text.**  A value is written compactly, members in the
  order in which the object holds them; `Value.sorted` puts them in the order of
  their names' code points first, which is the order of every response body.
  Numbers keep apart what JSON does not: counts, negative integers and
  floating-point values, because each is written by its own rule.
-/
import Floodgate.Number.Decimal

namespace Floodgate.Json

/-- A number: a count, the negation of one, or a floating-point value. -/
inductive Number where
  | natural (n : Nat)
  | negative (n : Nat)
  | real (x : Float)

inductive Value where
  | null
  | bool (b : Bool)
  | number (n : Number)
  | string (s : String)
  | array (items : List Value)
  | object (members : List (String × Value))

/-! ### Writing -/

def Number.text : Number → List Char
  | .natural n => Nat.toDigits 10 n
  | .negative n => '-' :: Nat.toDigits 10 n
  | .real x => (Decimal.text Decimal.json x).toList

def hexPair (n : Nat) : List Char :=
  [Nat.digitChar (n / 16 % 16), Nat.digitChar (n % 16)]

def writtenChar (c : Char) : List Char :=
  if c = '"' then ['\\', '"']
  else if c = '\\' then ['\\', '\\']
  else if c = '\n' then ['\\', 'n']
  else if c = '\r' then ['\\', 'r']
  else if c = '\t' then ['\\', 't']
  else if c.toNat = 8 then ['\\', 'b']
  else if c.toNat = 12 then ['\\', 'f']
  else if c.toNat < 32 then '\\' :: 'u' :: '0' :: '0' :: hexPair c.toNat
  else [c]

def writtenString (s : String) : List Char :=
  '"' :: (s.toList.flatMap writtenChar ++ ['"'])

mutual

def Value.written : Value → List Char
  | .null => ['n', 'u', 'l', 'l']
  | .bool true => ['t', 'r', 'u', 'e']
  | .bool false => ['f', 'a', 'l', 's', 'e']
  | .number n => n.text
  | .string s => writtenString s
  | .array items => '[' :: writtenItems items
  | .object members => '\x7b' :: writtenMembers members

def writtenItems : List Value → List Char
  | [] => [']']
  | [v] => v.written ++ [']']
  | v :: w :: rest => v.written ++ ',' :: writtenItems (w :: rest)

def writtenMembers : List (String × Value) → List Char
  | [] => ['\x7d']
  | [(name, v)] => writtenString name ++ ':' :: (v.written ++ ['\x7d'])
  | (name, v) :: m :: rest =>
    writtenString name ++ ':' :: (v.written ++ ',' :: writtenMembers (m :: rest))

end

def Value.text (v : Value) : String := String.ofList v.written

/-! ### Members in order -/

/-- Puts a member among others ordered by name; one of the same name is replaced. -/
def placed (name : String) (v : Value) : List (String × Value) → List (String × Value)
  | [] => [(name, v)]
  | (other, w) :: rest =>
    if name = other then (name, v) :: rest
    else if name < other then (name, v) :: (other, w) :: rest
    else (other, w) :: placed name v rest

mutual

/-- The value with the members of every object in the order of their names. -/
def Value.sorted : Value → Value
  | .array items => .array (sortedItems items)
  | .object members => .object (sortedMembers [] members)
  | v => v

/-- The items of an array, each sorted. -/
def sortedItems : List Value → List Value
  | [] => []
  | v :: rest => v.sorted :: sortedItems rest

/-- Members placed one after the other, so that of two of one name the later stays. -/
def sortedMembers (done : List (String × Value)) :
    List (String × Value) → List (String × Value)
  | [] => done
  | (name, v) :: rest => sortedMembers (placed name v.sorted done) rest

end

/-! ### Shorthands -/

def Value.nat (n : Nat) : Value := .number (.natural n)

/-- A floating-point value; what JSON has no number for is `null`. -/
def Value.real (x : Float) : Value :=
  if x.isNaN || x.isInf then .null else .number (.real x)

end Floodgate.Json
