/-
  Floodgate/Number/Quantity.lean
  ==============================
  **The arithmetic of rates and tokens.**  Token buckets, load factors and
  latency figures are computed in some type of numbers.  The pipeline runs them
  in floating point; whatever does not depend on rounding is stated for any
  number type.  `Quantity` lists what such a type must offer beyond the four
  operations: conversions from counts and durations, comparisons, and the
  rounding of a number of seconds to a duration.

  The floating-point instance keeps the conventions of the arithmetic: a value
  that is not a number loses against any limit (`lesser`), survives clamping
  (`clamp`), and counts as zero where a percentage is expected (`orZero`).
-/
import Floodgate.Clock
import Floodgate.Number.Binary64

namespace Floodgate

/-- Numbers in which rates, tokens and loads are kept. -/
class Quantity (α : Type) extends Add α, Sub α, Mul α, Div α where
  ofNat : Nat → α
  /-- `decimal m k` is `m / 10^k`. -/
  decimal : Nat → Nat → α
  seconds : Duration → α
  /-- A number of seconds as the nearest duration; the longest one if it has none. -/
  toDuration : α → Duration
  lesser : α → α → α
  /-- `atLeast x y`: `x` is `y` or more. -/
  atLeast : α → α → Bool
  /-- `exceeds x y`: `x` is more than `y`. -/
  exceeds : α → α → Bool
  /-- The two numbers are not equal. -/
  differs : α → α → Bool
  /-- `clamp lo hi x` is the number nearest to `x` from `lo` to `hi`. -/
  clamp : α → α → α → α
  /-- The number, or zero if there is none. -/
  orZero : α → α
  /-- The least natural number not below it. -/
  ceiling : α → Nat

namespace Quantity

/-- Seconds of a floating-point value as the nearest duration, a tie going to the
    even nanosecond.  Negative values, values from 2^64 seconds on and values that
    are not numbers have no duration and give the longest one; a negative zero is zero. -/
def durationOfFloat (x : Float) : Duration :=
  match Binary64.ofFloat x with
  | .nan => Duration.longest
  | .infinite _ => Duration.longest
  | .finite negative mantissa exponent =>
    if mantissa = 0 then 0
    else if negative then Duration.longest
    else
      let (num, den) := Binary64.fraction mantissa exponent
      min (roundHalfEven (num * Duration.second) den) Duration.longest

instance instFloat : Quantity Float where
  ofNat n := Float.ofNat n
  decimal m k := Float.ofScientific m true k
  seconds d :=
    Float.ofNat (Duration.seconds d) + Float.ofNat (Duration.subsecond d) / 1000000000.0
  toDuration := durationOfFloat
  lesser x y := if x.isNaN then y else if y.isNaN then x else if x < y then x else y
  atLeast x y := decide (y ≤ x)
  exceeds x y := decide (y < x)
  differs x y := x != y
  clamp lo hi x := if x < lo then lo else if hi < x then hi else x
  orZero x := if x.isNaN then 0.0 else x
  ceiling x := x.ceil.toUInt64.toNat

end Quantity

end Floodgate
