/-
  Floodgate/Text/Elapsed.lean
  ===========================
  **Durations in descriptions.**  A duration is shown in the largest unit of which
  it has at least one (seconds, milliseconds, microseconds, nanoseconds), with the
  rest as a decimal fraction without trailing zeros.
-/
import Floodgate.Clock

namespace Floodgate.Text

/-- The `places` digits of a fraction, without the zeros at its end. -/
def fractionDigits (places part : Nat) : List Char :=
  let ds := Nat.toDigits 10 part
  let padded := List.replicate (places - ds.length) '0' ++ ds
  (padded.reverse.dropWhile (· == '0')).reverse

/-- A number of `10^-places` parts of a unit, written in that unit. -/
def inUnit (places amount : Nat) (unit : String) : String :=
  let whole := toString (amount / Nat.pow 10 places)
  let fraction := fractionDigits places (amount % Nat.pow 10 places)
  whole ++ (if fraction.isEmpty then "" else "." ++ String.ofList fraction) ++ unit

def elapsed (d : Duration) : String :=
  if Duration.second ≤ d then inUnit 9 d "s"
  else if Duration.millisecond ≤ d then inUnit 6 d "ms"
  else if 1000 ≤ d then inUnit 3 d "µs"
  else inUnit 0 d "ns"

end Floodgate.Text
