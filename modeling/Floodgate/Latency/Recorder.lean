/-
  Floodgate/Latency/Recorder.lean
  ===============================
  **Recording requests.**  A recorder counts requests and errors, adds up their
  latencies in whole microseconds (a sum of 64 bits, which starts over when it is
  full), keeps the greatest one and a histogram of all.
-/
import Floodgate.Latency.Histogram
import Floodgate.Latency.Snapshot
import Floodgate.Text.Described

namespace Floodgate

/-- The figures of the requests so far. -/
structure Recorder where
  requests : Nat
  errors : Nat
  /-- Sum of the latencies in microseconds, modulo 2^64. -/
  sum : Nat
  greatest : Nat
  histogram : Histogram
deriving DecidableEq, Repr

namespace Recorder

def sumSize : Nat := 18446744073709551616

def new (h : Histogram) : Recorder := ⟨0, 0, 0, 0, h⟩

/-- A latency in whole microseconds, at most what 64 bits hold. -/
def micros (latency : Duration) : Nat := min (Duration.microseconds latency) (sumSize - 1)

def record (r : Recorder) (latency : Duration) (isError : Bool) : Recorder :=
  { requests := r.requests + 1
    errors := r.errors + if isError then 1 else 0
    sum := (r.sum + micros latency) % sumSize
    greatest := max r.greatest (micros latency)
    histogram := r.histogram.record latency }

/-- All figures, with the bytes that compression has saved. -/
def snapshot {α : Type} [Quantity α] (r : Recorder) (saved : Nat) : Snapshot α :=
  let percentile (p : Nat) : Nat := r.histogram.percentile (Quantity.ofNat p : α)
  { requests := r.requests
    errors := r.errors
    average :=
      if r.requests = 0 then Quantity.ofNat 0
      else Quantity.ofNat r.sum / Quantity.ofNat r.requests / Quantity.ofNat 1000
    p50 := percentile 50
    p95 := percentile 95
    p99 := percentile 99
    greatest := Quantity.ofNat r.greatest / Quantity.ofNat 1000
    saved }

def described (r : Recorder) : String :=
  Text.partialRecord "MetricsRecorder"
    [("requests", toString r.requests), ("errors", toString r.errors)]

end Recorder

end Floodgate
