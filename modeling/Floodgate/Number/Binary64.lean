/-
  Floodgate/Number/Binary64.lean
  ==============================
  **Floating-point values taken apart.**  A binary64 value is a sign, a natural
  mantissa and a power of two, or an infinity, or not a number.  Everything that
  must be exact about such a value (its shortest decimal, its rounding to
  nanoseconds) is computed on these natural numbers and not in floating point.

  `roundHalfEven` is the one rounding of a quotient used throughout: to the
  nearest integer, a tie going to the even neighbour.
-/

namespace Floodgate

/-- A binary64 value: `finite s m e` is `m * 2^e`, negated when `s`. -/
inductive Binary64 where
  | finite (negative : Bool) (mantissa : Nat) (exponent : Int)
  | infinite (negative : Bool)
  | nan
deriving Repr, DecidableEq

namespace Binary64

/-- Reads the sign, exponent and fraction fields of the 64 bits. -/
def ofBits (bits : Nat) : Binary64 :=
  let negative : Bool := decide (1 ≤ bits / Nat.pow 2 63)
  let field : Nat := bits / Nat.pow 2 52 % 2048
  let fraction : Nat := bits % Nat.pow 2 52
  if field = 2047 then
    if fraction = 0 then .infinite negative else .nan
  else if field = 0 then .finite negative fraction (-1074)
  else .finite negative (Nat.pow 2 52 + fraction) ((field : Int) - 1075)

def ofFloat (x : Float) : Binary64 := ofBits x.toBits.toNat

/-- The value `m * 2^e` as a fraction of natural numbers. -/
def fraction (mantissa : Nat) (exponent : Int) : Nat × Nat :=
  match exponent with
  | .ofNat e => (mantissa * Nat.pow 2 e, 1)
  | .negSucc e => (mantissa, Nat.pow 2 (e + 1))

end Binary64

/-- `num / den` rounded to the nearest integer, a tie to the even one. -/
def roundHalfEven (num den : Nat) : Nat :=
  let whole := num / den
  let rest := num % den
  if 2 * rest < den then whole
  else if den < 2 * rest then whole + 1
  else whole + whole % 2

end Floodgate
