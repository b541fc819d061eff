/-
  Floodgate/Clock.lean
  ====================
  **Time as the pipeline sees it.**  An instant is the number of nanoseconds
  since the pipeline's clock started, a duration a number of nanoseconds.  Both
  are natural numbers, so a difference of instants stops at zero: an earlier
  instant is never a negative time away.

  Durations have a longest value, a nanosecond short of 2^64 seconds, which
  stands for every wait that is too long to be written down.
-/

namespace Floodgate

/-- Nanoseconds since the clock started. -/
abbrev Instant := Nat

abbrev Duration := Nat

namespace Duration

def second : Nat := 1000000000

def millisecond : Nat := 1000000

/-- The duration of `secs` seconds and `nanos` nanoseconds. -/
def ofParts (secs nanos : Nat) : Duration := secs * second + nanos

/-- The duration of `n` seconds. -/
def ofSeconds (n : Nat) : Duration := n * second

def seconds (d : Duration) : Nat := d / second

/-- What a duration has beyond its whole seconds, in nanoseconds. -/
def subsecond (d : Duration) : Nat := d % second

def milliseconds (d : Duration) : Nat := d / millisecond

def microseconds (d : Duration) : Nat := d / 1000

/-- The longest duration: a nanosecond short of 2^64 seconds. -/
def longest : Duration := 18446744073709551616 * second - 1

end Duration

end Floodgate
