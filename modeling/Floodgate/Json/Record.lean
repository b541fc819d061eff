/-
  Floodgate/Json/Record.lean
  ==========================
  **Reading values of a given shape.**  Settings and snapshots are records: a list
  of named fields, each with a reader for its value.  A record may be written as an
  object, whose unknown members are passed over, or as an array of its fields in
  order.  A member that repeats a field is refused, and so is a value of the wrong
  kind; in both cases the fault is the first one from the left.
-/
import Floodgate.Json.Reader

namespace Floodgate.Json

/-! ### Single values -/

/-- The fault of a value that is not of the wanted kind: if the value itself cannot
    be read, that comes first. -/
def mismatch (cs : List Char) : Fault :=
  let tried {α : Type} (r : Except Fault α) : Fault := match r with
    | .ok _ => .mismatched
    | .error e => e
  match cs with
  | 'n' :: rest => tried (skipWord ['u', 'l', 'l'] rest)
  | 't' :: rest => tried (skipWord ['r', 'u', 'e'] rest)
  | 'f' :: rest => tried (skipWord ['a', 'l', 's', 'e'] rest)
  | '"' :: rest => tried (readString rest)
  | '[' :: _ => .mismatched
  | '\x7b' :: _ => .mismatched
  | c :: _ => if c = '-' ∨ c.isDigit then tried (readNumber cs) else .malformed
  | [] => .truncated

def readBool (cs : List Char) : Reading Bool :=
  match skipSpace cs with
  | 't' :: rest => (skipWord ['r', 'u', 'e'] rest).map fun r => (true, r)
  | 'f' :: rest => (skipWord ['a', 'l', 's', 'e'] rest).map fun r => (false, r)
  | cs => .error (mismatch cs)

def readAnyNumber (cs : List Char) : Reading Number :=
  match skipSpace cs with
  | [] => .error .truncated
  | c :: rest =>
    if c = '-' ∨ c.isDigit then readNumber (c :: rest) else .error (mismatch (c :: rest))

/-- A count up to a limit, written as an integer. -/
def readCount (limit : Nat) (cs : List Char) : Reading Nat :=
  match readAnyNumber cs with
  | .error e => .error e
  | .ok (.natural n, rest) => if n ≤ limit then .ok (n, rest) else .error .mismatched
  | .ok _ => .error .mismatched

/-- A floating-point value, which may be written as an integer. -/
def readReal (cs : List Char) : Reading Float :=
  match readAnyNumber cs with
  | .error e => .error e
  | .ok (.natural n, rest) => .ok (Float.ofNat n, rest)
  | .ok (.negative n, rest) => .ok (-(Float.ofNat n), rest)
  | .ok (.real x, rest) => .ok (x, rest)

/-! ### Arrays -/

/-- Where an array stands before its next item. -/
inductive NextItem where
  | item (rest : List Char)
  | closed (rest : List Char)

/-- Looks for the next item of an array; `first` before the first one. -/
def nextItem (first : Bool) (cs : List Char) : Except Fault NextItem :=
  match skipSpace cs with
  | [] => .error .truncated
  | ']' :: rest => .ok (.closed rest)
  | c :: rest =>
    if first then .ok (.item (c :: rest))
    else if c = ',' then
      match skipSpace rest with
      | [] => .error .truncated
      | ']' :: _ => .error .malformed
      | rest => .ok (.item rest)
    else .error .malformed

/-- The items of an array of counts, after its opening bracket. -/
def readCountsWithin (limit : Nat) : Nat → Bool → List Char → Reading (List Nat)
  | 0, _, _ => .error .truncated
  | fuel + 1, first, cs =>
    match nextItem first cs with
    | .error e => .error e
    | .ok (.closed rest) => .ok ([], rest)
    | .ok (.item rest) =>
      match readCount limit rest with
      | .error e => .error e
      | .ok (n, rest) =>
        (readCountsWithin limit fuel false rest).map fun (ns, r) => (n :: ns, r)

def readCounts (limit : Nat) (cs : List Char) : Reading (List Nat) :=
  match skipSpace cs with
  | '[' :: rest => readCountsWithin limit (rest.length + 1) true rest
  | cs => .error (mismatch cs)

/-! ### Records -/

/-- A field of a record under construction: its name and how its value is taken in. -/
structure Field (σ : Type) where
  name : List Char
  read : σ → List Char → Reading σ

/-- A field from its name, a reader and what the value does to the record. -/
def Field.of {σ α : Type} (name : String) (read : List Char → Reading α) (put : α → σ → σ) :
    Field σ :=
  ⟨name.toList, fun s cs => (read cs).map fun (a, rest) => (put a s, rest)⟩

variable {σ : Type}

/-- Looks for the next member's name, after its opening quote; none if the object is closed. -/
def nextName (first : Bool) (cs : List Char) : Except Fault (Option (List Char) × List Char) :=
  let name (rest : List Char) : Except Fault (Option (List Char) × List Char) :=
    (readString rest).map fun (s, r) => (some s, r)
  match skipSpace cs with
  | [] => .error .truncated
  | '\x7d' :: rest => .ok (none, rest)
  | c :: rest =>
    if first then if c = '"' then name rest else .error .malformed
    else if c = ',' then
      match skipSpace rest with
      | [] => .error .truncated
      | '"' :: rest => name rest
      | _ => .error .malformed
    else .error .malformed

/-- What is left after the colon between a name and its value. -/
def skipColon (cs : List Char) : Except Fault (List Char) :=
  match skipSpace cs with
  | [] => .error .truncated
  | ':' :: rest => .ok rest
  | _ => .error .malformed

/-- The members of a record, after its opening brace.  `seen` holds the names of the
    fields read so far; with `complete` every field must have been. -/
def readMembers (fields : List (Field σ)) (complete : Bool) :
    Nat → Bool → List (List Char) → σ → List Char → Reading σ
  | 0, _, _, _, _ => .error .truncated
  | fuel + 1, first, seen, s, cs =>
    match nextName first cs with
    | .error e => .error e
    | .ok (none, rest) =>
      if complete && fields.any fun f => !seen.contains f.name then .error .mismatched
      else .ok (s, rest)
    | .ok (some name, rest) =>
      match fields.find? fun f => f.name == name with
      | none =>
        match skipColon rest with
        | .error e => .error e
        | .ok rest =>
          match skipValue rest with
          | .error e => .error e
          | .ok rest => readMembers fields complete fuel false seen s rest
      | some f =>
        if seen.contains name then .error .mismatched
        else
          match skipColon rest with
          | .error e => .error e
          | .ok rest =>
            match f.read s rest with
            | .error e => .error e
            | .ok (s, rest) => readMembers fields complete fuel false (name :: seen) s rest

/-- The fields of a record written as an array, after its opening bracket. -/
def readInOrder (complete : Bool) : List (Field σ) → Bool → σ → List Char → Reading σ
  | [], first, s, cs =>
    match nextItem first cs with
    | .error .truncated => if skipSpace cs = [] then .error .truncated else .error .malformed
    | .error e => .error e
    | .ok (.closed rest) => .ok (s, rest)
    | .ok (.item _) => .error .malformed
  | f :: fs, first, s, cs =>
    match nextItem first cs with
    | .error e => .error e
    | .ok (.closed rest) => if complete then .error .mismatched else .ok (s, rest)
    | .ok (.item rest) =>
      match f.read s rest with
      | .error e => .error e
      | .ok (s, rest) => readInOrder complete fs false s rest

/-- A record that starts out as `s`. -/
def readRecord (fields : List (Field σ)) (complete : Bool) (s : σ) (cs : List Char) : Reading σ :=
  match skipSpace cs with
  | '\x7b' :: rest => readMembers fields complete (rest.length + 1) true [] s rest
  | '[' :: rest => readInOrder complete fields true s rest
  | cs => .error (mismatch cs)

end Floodgate.Json
