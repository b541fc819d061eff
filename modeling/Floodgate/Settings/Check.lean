/-
  Floodgate/Settings/Check.lean
  =============================
  **Settings that can be used.**  The admission rate must be a positive finite number,
  the compression level a digit, the bounds of the histogram increasing.  The first
  of these that is violated is what is wrong with the settings.
-/
import Floodgate.Number.Decimal
import Floodgate.Settings.Basic

namespace Floodgate

def usableRate (rate : Float) : Bool := rate.isFinite && decide (0.0 < rate)

def highestLevel : Nat := 9

def usableLevel (level : Nat) : Bool := decide (level ≤ highestLevel)

inductive SettingsFault where
  | rate (given : Float)
  | level (given : Nat)
  | buckets (fault : BoundsFault)

namespace SettingsFault

def message : SettingsFault → String
  | .rate given =>
    "rate_limit.requests_per_second must be a positive finite number, got "
      ++ Decimal.text Decimal.plain given
  | .level given => "compression.level must be between 0 and 9, got " ++ toString given
  | .buckets fault => "metrics.buckets_ms: " ++ fault.message

def sources : SettingsFault → List String
  | .buckets fault => [fault.message]
  | _ => []

end SettingsFault

namespace Settings

/-- What is wrong with the settings, if anything. -/
def fault? (s : Settings) : Option SettingsFault :=
  if !usableRate s.rate.requestsPerSecond then some (.rate s.rate.requestsPerSecond)
  else if !usableLevel s.compression.level then some (.level s.compression.level)
  else (boundsFault? s.meter.buckets).map .buckets

end Settings

end Floodgate
