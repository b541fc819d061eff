/-
  Floodgate/Http/Address.lean
  ===========================
  **Addresses of peers.**  An address is written in its canonical form: four
  decimal octets, or eight hexadecimal groups in lower case of which the longest
  run of two or more zeros (the first of several) is written `::`.  A mapped
  version 4 address keeps its dotted form.  `ofSocket?` reads the address of an
  `address:port` pair.
-/
import Floodgate.Text.Scan

namespace Floodgate.Http

inductive Address where
  | v4 (octets : List Nat)
  | v6 (groups : List Nat)
deriving DecidableEq, Repr

namespace Address

/-! ### Writing -/

def dotted (octets : List Nat) : List Char :=
  ((octets.map (Nat.toDigits 10)).intersperse ['.']).flatten

def colons (groups : List Nat) : List Char :=
  ((groups.map (Nat.toDigits 16)).intersperse [':']).flatten

def zeroRun (groups : List Nat) : Nat := (groups.takeWhile (· == 0)).length

/-- Start and length of the longest run of zeros, the first of several; `start` is
    the position of the first group given. -/
def longestRun (start : Nat) : List Nat → Nat × Nat
  | [] => (start, 0)
  | g :: rest =>
    let here := zeroRun (g :: rest)
    let (later, length) := longestRun (start + 1) rest
    if length ≤ here then (start, here) else (later, length)

def text : Address → String
  | .v4 octets => String.ofList (dotted octets)
  | .v6 [0, 0, 0, 0, 0, 0xffff, high, low] =>
    "::ffff:" ++ String.ofList (dotted [high / 256, high % 256, low / 256, low % 256])
  | .v6 groups =>
    let (start, length) := longestRun 0 groups
    String.ofList <|
      if 2 ≤ length then
        colons (groups.take start) ++ ':' :: ':' :: colons (groups.drop (start + length))
      else colons groups

/-! ### Reading -/

/-- A number in a base, from a row of its digits. -/
def number? (base limit : Nat) (cs : List Char) : Option Nat :=
  let value? (c : Char) : Option Nat :=
    let v := if c.isDigit then c.toNat - 48
      else if 'a' ≤ c ∧ c ≤ 'f' then c.toNat - 87
      else if 'A' ≤ c ∧ c ≤ 'F' then c.toNat - 55
      else base
    if v < base then some v else none
  match cs.mapM value? with
  | some (d :: ds) =>
    let n := (d :: ds).foldl (fun n d => n * base + d) 0
    if n ≤ limit then some n else none
  | _ => none

def octets? (cs : List Char) : Option (List Nat) :=
  match (Text.split '.' cs).mapM (number? 10 255) with
  | some [a, b, c, d] => some [a, b, c, d]
  | _ => none

/-- The groups of one side of a `::`; the last piece may be a dotted address. -/
def groups? : List (List Char) → Option (List Nat)
  | [] => some []
  | [last] =>
    match octets? last with
    | some [a, b, c, d] => some [a * 256 + b, c * 256 + d]
    | _ => (number? 16 65535 last).map fun g => [g]
  | piece :: rest => do
    let g ← number? 16 65535 piece
    let gs ← groups? rest
    some (g :: gs)

/-- The text before and after the first `::`, if there is one. -/
def aroundGap? : List Char → Option (List Char × List Char)
  | [] => none
  | ':' :: ':' :: rest => some ([], rest)
  | c :: rest => (aroundGap? rest).map fun (before, after) => (c :: before, after)

/-- The groups of a text without `::`; an empty text has none. -/
def side? (cs : List Char) : Option (List Nat) :=
  if cs.isEmpty then some [] else groups? (Text.split ':' cs)

def v6? (cs : List Char) : Option Address :=
  match aroundGap? cs with
  | none =>
    match side? cs with
    | some gs => if gs.length = 8 then some (.v6 gs) else none
    | none => none
  | some (before, after) => do
    let left ← side? before
    let right ← side? after
    if left.length + right.length ≤ 8 then
      some (.v6 (left ++ List.replicate (8 - (left.length + right.length)) 0 ++ right))
    else none

/-- The address of an `address:port` pair; a version 6 address stands in brackets
    and may carry a zone after `%`. -/
def ofSocket? (s : String) : Option Address :=
  match s.toList with
  | '[' :: rest =>
    v6? ((rest.takeWhile (· != ']')).takeWhile (· != '%'))
  | cs => (octets? (cs.takeWhile (· != ':'))).map .v4

end Address

end Floodgate.Http
