/-
  Floodgate/Http/Coding.lean
  ==========================
  **Content-coding negotiation.**  A request accepts gzip when its
  `Accept-Encoding` values, read as one list of items, allow it.  Items that name
  gzip (or `x-gzip`, in any case) decide; only without any do the `*` items; of
  several the last one counts.  An item allows its coding when its quality, the
  first `q` parameter or one if there is none, is positive.

  The compressor and the coalescer both ask this question of the same headers, so
  there is one answer to it, `acceptsGzip`.
-/
import Floodgate.Http.Headers

namespace Floodgate.Http

/-! ### Qualities

A quality is a decimal number rounded to single precision.  Only its sign matters
here: it is positive exactly when the decimal is above half the least positive
single-precision value, which is `2^-150`; the half itself rounds to zero. -/

/-- `digits * 10^exponent` is positive once rounded to single precision.  With fewer
    than 46 places before the first digit the comparison is made exactly; with more
    the number is too small, and so the powers stay as short as the text. -/
def positiveSingle (digits : Nat) (exponent : Int) : Bool :=
  match exponent with
  | .ofNat _ => digits ≠ 0
  | .negSucc e =>
    if (Nat.toDigits 10 digits).length + 46 < e + 1 then false
    else decide (Nat.pow 10 (e + 1) < digits * Nat.pow 2 150)

def digitValue (c : Char) : Nat := c.toNat - 48

def digitsValue (ds : List Char) : Nat := ds.foldl (fun n d => n * 10 + digitValue d) 0

/-- The exponent that a text consists of, if it is one: nothing, or `e`, a sign and digits. -/
def exponent? (cs : List Char) : Option Int :=
  match cs with
  | [] => some 0
  | mark :: rest =>
    if mark = 'e' ∨ mark = 'E' then
      let (minus, ds) := match rest with
        | '-' :: ds => (true, ds)
        | '+' :: ds => (false, ds)
        | ds => (false, ds)
      if ds ≠ [] ∧ ds.all Char.isDigit then
        let e : Int := digitsValue ds
        some (if minus then -e else e)
      else none
    else none

/-- The unsigned number text is positive in single precision; a text that is no
    number is not. -/
def positiveUnsigned (cs : List Char) : Bool :=
  let whole := cs.takeWhile Char.isDigit
  let (fraction, rest) := match cs.dropWhile Char.isDigit with
    | '.' :: rest => (rest.takeWhile Char.isDigit, rest.dropWhile Char.isDigit)
    | rest => ([], rest)
  if whole = [] ∧ fraction = [] then
    Text.sameLetters cs ['i', 'n', 'f'] ||
      Text.sameLetters cs ['i', 'n', 'f', 'i', 'n', 'i', 't', 'y']
  else
    match exponent? rest with
    | none => false
    | some e => positiveSingle (digitsValue (whole ++ fraction)) (e - (fraction.length : Int))

def positiveQuality (cs : List Char) : Bool :=
  match cs with
  | '-' :: _ => false
  | '+' :: rest => positiveUnsigned rest
  | rest => positiveUnsigned rest

/-! ### Items -/

/-- An item of an `Accept-Encoding` list. -/
structure CodingItem where
  coding : List Char
  allowed : Bool
deriving DecidableEq, Repr

/-- The quality text of a parameter, if it is a `q` parameter. -/
def qualityParameter? (p : List Char) : Option (List Char) :=
  match Text.after? ['q', '='] (Text.trim p) with
  | some q => some q
  | none => Text.after? ['Q', '='] (Text.trim p)

/-- An item from its text: the coding, then parameters, of which the first `q` counts. -/
def CodingItem.ofText (item : List Char) : CodingItem :=
  match Text.split ';' item with
  | [] => ⟨[], true⟩
  | coding :: parameters =>
    ⟨Text.trim coding,
      match parameters.findSome? qualityParameter? with
      | none => true
      | some q => positiveQuality (Text.trim q)⟩

def CodingItem.namesGzip (i : CodingItem) : Bool :=
  Text.sameLetters i.coding ['g', 'z', 'i', 'p'] ||
    Text.sameLetters i.coding ['x', '-', 'g', 'z', 'i', 'p']

/-- The item stands for every coding not named. -/
def CodingItem.isWildcard (i : CodingItem) : Bool := i.coding == ['*']

def codingItems (value : List Char) : List CodingItem :=
  (Text.split ',' value).map CodingItem.ofText

/-- What a list of items says about gzip: the last item that names it decides, or
    else the last wildcard; without either gzip is not accepted. -/
def allowsGzip (items : List CodingItem) : Bool :=
  match (items.filter CodingItem.namesGzip).getLast? with
  | some i => i.allowed
  | none =>
    match (items.filter CodingItem.isWildcard).getLast? with
    | some i => i.allowed
    | none => false

/-- **The request accepts a gzip response.** -/
def acceptsGzip (hs : Headers) : Bool :=
  allowsGzip ((hs.texts "accept-encoding").flatMap codingItems)

end Floodgate.Http
