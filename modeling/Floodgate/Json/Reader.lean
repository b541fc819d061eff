/-
  Floodgate/Json/Reader.lean
  ==========================
  **Reading JSON text.**  A reader takes the characters that are left and gives a
  value and what is left after it, or the fault that was met first from the left:
  the text breaks the grammar (`malformed`), it ends too early (`truncated`), or a
  well-formed value is not of the kind that was asked for (`mismatched`).

  The readers of nested values take a bound on their steps; every step consumes a
  character, so the length of the text suffices.
-/
import Floodgate.Json.Value

namespace Floodgate.Json

/-- Why a text could not be read. -/
inductive Fault where
  | malformed
  | truncated
  | mismatched
deriving Repr, DecidableEq

/-- The outcome of a reader: a value and the characters after it. -/
abbrev Reading (α : Type) := Except Fault (α × List Char)

/-! ### Blanks, words and digits -/

def isSpace (c : Char) : Bool := c = ' ' || c = '\n' || c = '\t' || c = '\r'

/-- What is left after blanks. -/
def skipSpace (cs : List Char) : List Char := cs.dropWhile isSpace

/-- What is left after a word whose characters must follow. -/
def skipWord : List Char → List Char → Except Fault (List Char)
  | [], cs => .ok cs
  | _ :: _, [] => .error .truncated
  | w :: ws, c :: cs => if w = c then skipWord ws cs else .error .malformed

def hexValue? (c : Char) : Option Nat :=
  if '0' ≤ c ∧ c ≤ '9' then some (c.toNat - 48)
  else if 'a' ≤ c ∧ c ≤ 'f' then some (c.toNat - 87)
  else if 'A' ≤ c ∧ c ≤ 'F' then some (c.toNat - 55)
  else none

def byteCount (cs : List Char) : Nat := cs.foldl (fun n c => n + c.utf8Size) 0

/-- The four hexadecimal digits of an escape.  The text is too short when fewer
    than four bytes are left of it. -/
def readHex (cs : List Char) : Reading Nat :=
  match cs with
  | a :: b :: c :: d :: rest =>
    match hexValue? a, hexValue? b, hexValue? c, hexValue? d with
    | some a, some b, some c, some d => .ok (((a * 16 + b) * 16 + c) * 16 + d, rest)
    | _, _, _, _ => .error .malformed
  | short => if byteCount short < 4 then .error .truncated else .error .malformed

/-! ### Strings -/

def shortEscape? (c : Char) : Option Char :=
  if c = '"' then some '"'
  else if c = '\\' then some '\\'
  else if c = '/' then some '/'
  else if c = 'b' then some (Char.ofNat 8)
  else if c = 'f' then some (Char.ofNat 12)
  else if c = 'n' then some '\n'
  else if c = 'r' then some '\r'
  else if c = 't' then some '\t'
  else none

/-- The character of an escape by code unit, after its `\u`.  A code point beyond
    the first plane is a pair of units; a unit of a pair never stands alone. -/
def readUnit (cs : List Char) : Reading Char :=
  match readHex cs with
  | .error e => .error e
  | .ok (high, rest) =>
    if 0xDC00 ≤ high ∧ high ≤ 0xDFFF then .error .malformed
    else if high < 0xD800 ∨ 0xDBFF < high then .ok (Char.ofNat high, rest)
    else
      match rest with
      | [] => .error .truncated
      | '\\' :: [] => .error .truncated
      | '\\' :: 'u' :: tail =>
        match readHex tail with
        | .error e => .error e
        | .ok (low, after) =>
          if 0xDC00 ≤ low ∧ low ≤ 0xDFFF then
            .ok (Char.ofNat (0x10000 + (high - 0xD800) * 1024 + (low - 0xDC00)), after)
          else .error .malformed
      | _ => .error .malformed

/-- The characters of a string after its opening quote, up to its closing one. -/
def readChars : Nat → List Char → Reading (List Char)
  | 0, _ => .error .truncated
  | _, [] => .error .truncated
  | _ + 1, '"' :: rest => .ok ([], rest)
  | _ + 1, '\\' :: [] => .error .truncated
  | fuel + 1, '\\' :: 'u' :: rest =>
    match readUnit rest with
    | .error e => .error e
    | .ok (c, after) => (readChars fuel after).map fun (s, r) => (c :: s, r)
  | fuel + 1, '\\' :: e :: rest =>
    match shortEscape? e with
    | none => .error .malformed
    | some c => (readChars fuel rest).map fun (s, r) => (c :: s, r)
  | fuel + 1, c :: rest =>
    if c.toNat < 32 then .error .malformed
    else (readChars fuel rest).map fun (s, r) => (c :: s, r)

/-- A string after its opening quote. -/
def readString (cs : List Char) : Reading (List Char) := readChars (cs.length + 1) cs

/-- Passes over a string after its opening quote; code units are not paired. -/
def skipChars : Nat → List Char → Except Fault (List Char)
  | 0, _ => .error .truncated
  | _, [] => .error .truncated
  | _ + 1, '"' :: rest => .ok rest
  | _ + 1, '\\' :: [] => .error .truncated
  | fuel + 1, '\\' :: 'u' :: rest =>
    match readHex rest with
    | .error e => .error e
    | .ok (_, after) => skipChars fuel after
  | fuel + 1, '\\' :: e :: rest =>
    match shortEscape? e with
    | none => .error .malformed
    | some _ => skipChars fuel rest
  | fuel + 1, c :: rest => if c.toNat < 32 then .error .malformed else skipChars fuel rest

/-- Passes over a string after its opening quote. -/
def skipString (cs : List Char) : Except Fault (List Char) := skipChars (cs.length + 1) cs

/-! ### Numbers

The digits of a number are gathered into a significand of 64 bits.  Digits of the
whole part that no longer fit are counted into the exponent, digits of the fraction
that do not fit are dropped.  The value is the significand scaled by a power of ten
in floating-point arithmetic: exact for short numbers, near for long ones. -/

structure NumberText where
  negative : Bool
  whole : List Char
  /-- The digits after the point, if there is one. -/
  fraction : Option (List Char)
  /-- Sign (`true` for minus) and digits of the exponent, if there is one. -/
  exponent : Option (Bool × List Char)

def digitValue (c : Char) : Nat := c.toNat - 48

def wordLimit : Nat := 18446744073709551615

/-- Takes digits into a significand while it fits; gives the digits left over. -/
def gather : Nat → List Char → Nat × List Char
  | s, [] => (s, [])
  | s, d :: ds =>
    if s * 10 + digitValue d ≤ wordLimit then gather (s * 10 + digitValue d) ds else (s, d :: ds)

/-- `f * 10^e` in floating-point arithmetic, if it is finite. -/
def scaled : Nat → Float → Int → Option Float
  | 0, f, _ => some f
  | fuel + 1, f, e =>
    if e.natAbs ≤ 308 then
      let power := Float.ofScientific 1 false e.natAbs
      if 0 ≤ e then
        if (f * power).isInf then none else some (f * power)
      else some (f / power)
    else if f == 0.0 then some f
    else if 0 ≤ e then none
    else scaled fuel (f / 1e308) (e + 308)

def exponentValue (ds : List Char) : Nat := ds.foldl (fun n d => n * 10 + digitValue d) 0

/-- The largest exponent that is computed with; larger ones make a number zero or infinite. -/
def exponentLimit : Nat := 2147483647

/-- The number that a text denotes; none if it is beyond all floating-point values. -/
def NumberText.number? (t : NumberText) : Option Number :=
  let (whole, excess) := gather 0 t.whole
  if t.fraction.isNone && t.exponent.isNone && excess.isEmpty then
    if !t.negative then some (.natural whole)
    else if whole = 0 ∨ Nat.pow 2 63 < whole then some (.real (-(Float.ofNat whole)))
    else some (.negative whole)
  else
    let places := t.fraction.getD []
    let (significand, unread) := gather whole places
    let start : Int := (excess.length : Int) - ((places.length - unread.length : Nat) : Int)
    let signed (x : Float) : Number := .real (if t.negative then -x else x)
    let finish (e : Int) : Option Number :=
      (scaled 8 (Float.ofNat significand) e).map signed
    match t.exponent with
    | none => finish start
    | some (minus, ds) =>
      let e := exponentValue ds
      if exponentLimit < e then
        if significand ≠ 0 ∧ minus = false then none else some (signed 0.0)
      else if minus then finish (max (start - (e : Int)) (-2147483648))
      else finish (min (start + (e : Int)) 2147483647)

def leadingDigits (cs : List Char) : List Char := cs.takeWhile Char.isDigit

/-- What is left after the digits at the front of a text. -/
def afterDigits (cs : List Char) : List Char := cs.dropWhile Char.isDigit

/-- The whole part of a number: no digit may follow a leading zero. -/
def readWhole (cs : List Char) : Reading (List Char) :=
  match cs with
  | [] => .error .truncated
  | c :: rest =>
    if c = '0' then
      if leadingDigits rest = [] then .ok (['0'], rest) else .error .malformed
    else if c.isDigit then .ok (leadingDigits cs, afterDigits cs)
    else .error .malformed

/-- The digits after a point or an exponent mark: at least one. -/
def readDigits (cs : List Char) : Reading (List Char) :=
  match cs with
  | [] => .error .truncated
  | c :: _ =>
    if c.isDigit then .ok (leadingDigits cs, afterDigits cs) else .error .malformed

/-- The exponent after its mark: an optional sign and digits. -/
def readExponent (cs : List Char) : Reading (Bool × List Char) :=
  let (minus, rest) := match cs with
    | '+' :: rest => (false, rest)
    | '-' :: rest => (true, rest)
    | rest => (false, rest)
  (readDigits rest).map fun (ds, r) => ((minus, ds), r)

def readExponent? (cs : List Char) : Reading (Option (Bool × List Char)) :=
  match cs with
  | [] => .ok (none, [])
  | c :: rest =>
    if c = 'e' ∨ c = 'E' then (readExponent rest).map fun (e, r) => (some e, r)
    else .ok (none, c :: rest)

/-- The fraction that may stand after the whole part of a number. -/
def readFraction? (cs : List Char) : Reading (Option (List Char)) :=
  match cs with
  | '.' :: rest => (readDigits rest).map fun (ds, r) => (some ds, r)
  | cs => .ok (none, cs)

/-- The parts of a number after its sign. -/
def readNumberText (negative : Bool) (cs : List Char) : Reading NumberText :=
  match readWhole cs with
  | .error e => .error e
  | .ok (whole, rest) =>
    match readFraction? rest with
    | .error e => .error e
    | .ok (fraction, rest) =>
      match readExponent? rest with
      | .error e => .error e
      | .ok (exponent, rest) => .ok (⟨negative, whole, fraction, exponent⟩, rest)

/-- A number from its sign or first digit on. -/
def readNumber (cs : List Char) : Reading Number :=
  let parts := match cs with
    | '-' :: rest => readNumberText true rest
    | rest => readNumberText false rest
  match parts with
  | .error e => .error e
  | .ok (t, rest) =>
    match t.number? with
    | some n => .ok (n, rest)
    | none => .error .malformed

/-- Passes over a number after its sign; a number that breaks off is malformed, and
    its size does not matter. -/
def skipNumber (cs : List Char) : Except Fault (List Char) :=
  match readNumberText false cs with
  | .ok (_, rest) => .ok rest
  | .error _ => .error .malformed

/-! ### Passing over values -/

mutual

/-- Passes over one value, whatever it is. -/
def skipValueWithin : Nat → List Char → Except Fault (List Char)
  | 0, _ => .error .truncated
  | fuel + 1, cs =>
    match skipSpace cs with
    | [] => .error .truncated
    | 'n' :: rest => skipWord ['u', 'l', 'l'] rest
    | 't' :: rest => skipWord ['r', 'u', 'e'] rest
    | 'f' :: rest => skipWord ['a', 'l', 's', 'e'] rest
    | '"' :: rest => skipString rest
    | '-' :: rest => skipNumber rest
    | '[' :: rest =>
      match skipSpace rest with
      | ']' :: rest => .ok rest
      | rest => skipItemsWithin fuel rest
    | '\x7b' :: rest =>
      match skipSpace rest with
      | '\x7d' :: rest => .ok rest
      | rest => skipMembersWithin fuel rest
    | c :: rest => if c.isDigit then skipNumber (c :: rest) else .error .malformed

/-- Passes over the items of an array that has one, up to its closing bracket. -/
def skipItemsWithin : Nat → List Char → Except Fault (List Char)
  | 0, _ => .error .truncated
  | fuel + 1, cs =>
    match skipValueWithin fuel cs with
    | .error e => .error e
    | .ok rest =>
      match skipSpace rest with
      | [] => .error .truncated
      | ',' :: rest => skipItemsWithin fuel rest
      | ']' :: rest => .ok rest
      | _ => .error .malformed

/-- Passes over the members of an object that has one, up to its closing brace. -/
def skipMembersWithin : Nat → List Char → Except Fault (List Char)
  | 0, _ => .error .truncated
  | fuel + 1, cs =>
    match skipSpace cs with
    | [] => .error .truncated
    | '"' :: rest =>
      match skipString rest with
      | .error e => .error e
      | .ok rest =>
        match skipSpace rest with
        | [] => .error .truncated
        | ':' :: rest =>
          match skipValueWithin fuel rest with
          | .error e => .error e
          | .ok rest =>
            match skipSpace rest with
            | [] => .error .truncated
            | ',' :: rest => skipMembersWithin fuel rest
            | '\x7d' :: rest => .ok rest
            | _ => .error .malformed
        | _ => .error .malformed
    | _ => .error .malformed

end

/-- Passes over one value; twice the length of the text bounds the steps. -/
def skipValue (cs : List Char) : Except Fault (List Char) :=
  skipValueWithin (2 * cs.length + 2) cs

/-! ### Reading values -/

mutual

/-- One value, whatever it is. -/
def readValueWithin : Nat → List Char → Reading Value
  | 0, _ => .error .truncated
  | fuel + 1, cs =>
    match skipSpace cs with
    | [] => .error .truncated
    | 'n' :: rest => (skipWord ['u', 'l', 'l'] rest).map fun r => (.null, r)
    | 't' :: rest => (skipWord ['r', 'u', 'e'] rest).map fun r => (.bool true, r)
    | 'f' :: rest => (skipWord ['a', 'l', 's', 'e'] rest).map fun r => (.bool false, r)
    | '"' :: rest => (readString rest).map fun (s, r) => (.string (String.ofList s), r)
    | '[' :: rest =>
      match skipSpace rest with
      | ']' :: rest => .ok (.array [], rest)
      | rest => (readItemsWithin fuel rest).map fun (vs, r) => (.array vs, r)
    | '\x7b' :: rest =>
      match skipSpace rest with
      | '\x7d' :: rest => .ok (.object [], rest)
      | rest => (readMembersWithin fuel rest).map fun (ms, r) => (.object ms, r)
    | c :: rest =>
      if c = '-' ∨ c.isDigit then (readNumber (c :: rest)).map fun (n, r) => (.number n, r)
      else .error .malformed

/-- The items of an array that has one, up to its closing bracket. -/
def readItemsWithin : Nat → List Char → Reading (List Value)
  | 0, _ => .error .truncated
  | fuel + 1, cs =>
    match readValueWithin fuel cs with
    | .error e => .error e
    | .ok (v, rest) =>
      match skipSpace rest with
      | [] => .error .truncated
      | ',' :: rest => (readItemsWithin fuel rest).map fun (vs, r) => (v :: vs, r)
      | ']' :: rest => .ok ([v], rest)
      | _ => .error .malformed

/-- The members of an object that has one, up to its closing brace. -/
def readMembersWithin : Nat → List Char → Reading (List (String × Value))
  | 0, _ => .error .truncated
  | fuel + 1, cs =>
    match skipSpace cs with
    | [] => .error .truncated
    | '"' :: rest =>
      match readString rest with
      | .error e => .error e
      | .ok (name, rest) =>
        match skipSpace rest with
        | [] => .error .truncated
        | ':' :: rest =>
          match readValueWithin fuel rest with
          | .error e => .error e
          | .ok (v, rest) =>
            let member := (String.ofList name, v)
            match skipSpace rest with
            | [] => .error .truncated
            | ',' :: rest => (readMembersWithin fuel rest).map fun (ms, r) => (member :: ms, r)
            | '\x7d' :: rest => .ok ([member], rest)
            | _ => .error .malformed
        | _ => .error .malformed
    | _ => .error .malformed

end

/-- One value; twice the length of the text bounds the steps. -/
def readValue (cs : List Char) : Reading Value := readValueWithin (2 * cs.length + 2) cs

/-- A whole document: what the reader takes and nothing but blanks after it. -/
def document {α : Type} (read : List Char → Reading α) (text : String) : Except Fault α :=
  match read text.toList with
  | .error e => .error e
  | .ok (a, rest) => if skipSpace rest = [] then .ok a else .error .malformed

end Floodgate.Json
