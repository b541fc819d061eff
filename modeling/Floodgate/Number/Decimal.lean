/-
  Floodgate/Number/Decimal.lean
  =============================
  **Decimal text of floating-point values.**  A finite value is written with the
  fewest significant digits that still read back as the same value, and among
  those with the digits nearest to it.  The values that read back as `m * 2^e`
  are the ones in an interval around it, half a gap wide on each side, whose ends
  belong to it exactly when `m` is even; `shortest` looks for the coarsest decimal
  grid with a point in that interval, in exact arithmetic on natural numbers.

  How the digits are laid out (where positional writing ends, whether a whole
  number keeps `.0`, which way a tie goes) is up to the `Layout`; the three
  layouts the pipeline writes are at the end.
-/
import Floodgate.Number.Binary64

namespace Floodgate

/-- A positive decimal: `digits * 10^exponent`. -/
structure Decimal where
  digits : Nat
  exponent : Int
deriving Repr, DecidableEq

namespace Decimal

/-! ### The interval of values that read back as `m * 2^e` -/

/-- The open or closed interval of positive numbers that round to one binary64
    value, its ends and the value itself over a common denominator. -/
structure Interval where
  low : Nat
  value : Nat
  high : Nat
  denominator : Nat
  closed : Bool

/-- The numbers that round to `m * 2^e`.  Below a power of two the gap is half as
    wide, except at the bottom of the range. -/
def Interval.around (mantissa : Nat) (exponent : Int) : Interval :=
  let narrow := mantissa = Nat.pow 2 52 ∧ -1074 < exponent
  let (scale, denominator) := Binary64.fraction 1 exponent
  { low := (4 * mantissa - if narrow then 1 else 2) * scale
    value := 4 * mantissa * scale
    high := (4 * mantissa + 2) * scale
    denominator := 4 * denominator
    closed := mantissa % 2 = 0 }

/-- Whether `num / den` lies in the interval. -/
def Interval.holds (i : Interval) (num den : Nat) : Bool :=
  let lower := i.low * den
  let upper := i.high * den
  let point := num * i.denominator
  if i.closed then decide (lower ≤ point) && decide (point ≤ upper)
  else decide (lower < point) && decide (point < upper)

/-! ### The coarsest grid with a point in the interval -/

/-- The power of ten of the leading digit of `num / den`, for a value of at least `10^-400`. -/
def leadingPower (num den : Nat) : Int :=
  ((Nat.toDigits 10 (num * Nat.pow 10 400 / den)).length : Int) - 401

/-- `10^e` as a fraction. -/
def powerOfTen (e : Int) : Nat × Nat :=
  match e with
  | .ofNat n => (Nat.pow 10 n, 1)
  | .negSucc n => (1, Nat.pow 10 (n + 1))

/-- The grid point of `10^e` nearest to the value among those of its two
    neighbours that read back as it; `up` says where a tie goes. -/
def onGrid? (i : Interval) (up : Nat → Bool) (e : Int) : Option Decimal :=
  let (unit, parts) := powerOfTen e
  let num := i.value * parts
  let den := i.denominator * unit
  let below := num / den
  let above := below + 1
  let reads (k : Nat) := k ≠ 0 ∧ i.holds (k * unit) parts = true
  let rest := num % den
  if reads below ∧ rest = 0 then some ⟨below, e⟩
  else
    match decide (reads below), decide (reads above) with
    | true, true =>
      if 2 * rest < den then some ⟨below, e⟩
      else if den < 2 * rest then some ⟨above, e⟩
      else if up below then some ⟨above, e⟩ else some ⟨below, e⟩
    | true, false => some ⟨below, e⟩
    | false, true => some ⟨above, e⟩
    | false, false => none

/-- Tries grids of `count`, `count + 1`, … significant digits, `fuel` of them. -/
def coarsest (i : Interval) (up : Nat → Bool) (leading : Int) : Nat → Nat → Decimal
  | _, 0 => ⟨0, 0⟩
  | count, fuel + 1 =>
    match onGrid? i up (leading - (count : Int) + 1) with
    | some d => d
    | none => coarsest i up leading (count + 1) fuel

/-- Drops trailing zeros of the digits, at most `fuel` of them. -/
def trim : Nat → Decimal → Decimal
  | 0, d => d
  | fuel + 1, d =>
    if d.digits ≠ 0 ∧ d.digits % 10 = 0 then trim fuel ⟨d.digits / 10, d.exponent + 1⟩ else d

/-- The shortest decimal that reads back as the positive value `m * 2^e`; seventeen
    digits always suffice. -/
def shortest (up : Nat → Bool) (mantissa : Nat) (exponent : Int) : Decimal :=
  let i := Interval.around mantissa exponent
  trim 20 (coarsest i up (leadingPower i.value i.denominator) 1 17)

/-! ### Layout -/

structure Layout where
  /-- Leading powers of ten from which numbers are written positionally. -/
  lowest : Int
  /-- The last such power, if positional writing ends at all. -/
  highest : Option Int
  /-- Whether a whole number written positionally keeps `.0`. -/
  wholeMark : Bool
  /-- Whether a positive exponent is written with its sign. -/
  plusSign : Bool
  /-- Whether the larger of two equally near digit strings is taken. -/
  tieUp : Nat → Bool
  /-- Text of a value that is not a number, and of an infinite one. -/
  nanText : String
  infinityText : String

/-- `n` zeros. -/
def zeros (n : Nat) : List Char := List.replicate n '0'

def digitsOf (n : Nat) : List Char := Nat.toDigits 10 n

/-- Positional writing of `digits * 10^exponent`. -/
def positional (wholeMark : Bool) (d : Decimal) : List Char :=
  let ds := digitsOf d.digits
  match d.exponent with
  | .ofNat e => ds ++ zeros e ++ (if wholeMark then ['.', '0'] else [])
  | .negSucc e =>
    let places := e + 1
    if places < ds.length then
      ds.take (ds.length - places) ++ '.' :: ds.drop (ds.length - places)
    else '0' :: '.' :: (zeros (places - ds.length) ++ ds)

/-- Writing with an exponent: one digit, the others after a point, the power of ten. -/
def scientific (plusSign : Bool) (d : Decimal) : List Char :=
  let ds := digitsOf d.digits
  let power := d.exponent + (ds.length : Int) - 1
  let sign := if power < 0 then ['-'] else if plusSign then ['+'] else []
  let fraction := if ds.length ≤ 1 then [] else '.' :: ds.drop 1
  ds.take 1 ++ fraction ++ 'e' :: sign ++ digitsOf power.natAbs

def magnitudeText (l : Layout) (mantissa : Nat) (exponent : Int) : List Char :=
  if mantissa = 0 then positional l.wholeMark ⟨0, 0⟩
  else
    let d := shortest l.tieUp mantissa exponent
    let power := d.exponent + ((digitsOf d.digits).length : Int) - 1
    let small := match l.highest with
      | none => true
      | some h => decide (power ≤ h)
    if l.lowest ≤ power && small then positional l.wholeMark d else scientific l.plusSign d

def text (l : Layout) (x : Float) : String :=
  match Binary64.ofFloat x with
  | .nan => l.nanText
  | .infinite negative => (if negative then "-" else "") ++ l.infinityText
  | .finite negative mantissa exponent =>
    (if negative then "-" else "") ++ String.ofList (magnitudeText l mantissa exponent)

/-! ### The layouts in use -/

/-- Numbers of a JSON document: positional from `1e-5` up to `1e16`, a sign on every
    exponent, an even digit string on a tie, no text for what JSON cannot express. -/
def json : Layout :=
  ⟨-5, some 15, true, true, fun below => below % 2 == 1, "null", "null"⟩

/-- Numbers in the description of a component: positional from `1e-4` up to `1e16`. -/
def described : Layout := ⟨-4, some 15, true, false, fun _ => true, "NaN", "inf"⟩

/-- Numbers in messages: always positional, a whole number without a fraction.  The
    lowest power is below that of every binary64 value. -/
def plain : Layout := ⟨-400, none, false, false, fun _ => true, "NaN", "inf"⟩

end Decimal

end Floodgate
