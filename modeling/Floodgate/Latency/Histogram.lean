/-
  Floodgate/Latency/Histogram.lean
  ================================
  **Latency histograms.**  A histogram has buckets with increasing upper bounds in
  milliseconds.  A sample, in whole microseconds, counts in the first bucket whose
  bound covers it; a sample above all bounds counts in the last one.  Percentiles are
  bucket bounds: the first bound up to which enough samples have been counted.
-/
import Floodgate.Number.Quantity

namespace Floodgate

inductive BoundsFault where
  | empty
  /-- The bound at this position is not above the one before it. -/
  | notIncreasing (index : Nat)
deriving DecidableEq, Repr

def BoundsFault.message : BoundsFault → String
  | .empty => "histogram needs at least one bucket bound"
  | .notIncreasing index =>
    "histogram bounds must be strictly increasing (at index " ++ toString index ++ ")"

/-- Position of the first item that is not above the one before it, counted from `start`. -/
def firstDescent? (start : Nat) : List Nat → Option Nat
  | a :: b :: rest => if b ≤ a then some (start + 1) else firstDescent? (start + 1) (b :: rest)
  | _ => none

/-- What is wrong with a list of bounds, if anything. -/
def boundsFault? (bounds : List Nat) : Option BoundsFault :=
  if bounds.isEmpty then some .empty
  else (firstDescent? 0 bounds).map .notIncreasing

structure Histogram where
  bounds : List Nat
  counts : List Nat
  total : Nat
deriving DecidableEq, Repr

namespace Histogram

/-- The bounds that are used if none are given. -/
def defaultBounds : List Nat := [1, 5, 10, 25, 50, 100, 250, 500, 1000]

def empty (bounds : List Nat) : Histogram := ⟨bounds, bounds.map fun _ => 0, 0⟩

/-- A histogram without samples, if the bounds can be used. -/
def ofBounds (bounds : List Nat) : Except BoundsFault Histogram :=
  match boundsFault? bounds with
  | some fault => .error fault
  | none => .ok (empty bounds)

/-- Position of the first bound that covers a sample, or of the last bound. -/
def bucketOf (bounds : List Nat) (micros : Nat) : Nat :=
  (bounds.findIdx? fun bound => decide (micros ≤ bound * 1000)).getD (bounds.length - 1)

def record (h : Histogram) (latency : Duration) : Histogram :=
  { h with
      counts := h.counts.modify (bucketOf h.bounds (Duration.microseconds latency)) (· + 1)
      total := h.total + 1 }

/-- The first bound up to which at least `target` samples are counted, `seen` of them
    before the first bucket given. -/
def firstReaching (target : Nat) : Nat → List (Nat × Nat) → Option Nat
  | _, [] => none
  | seen, (bound, count) :: rest =>
    if target ≤ seen + count then some bound else firstReaching target (seen + count) rest

/-- The number of samples that a percentile asks for: `p` percent of them, at least one. -/
def rank {α : Type} [Quantity α] (p : α) (total : Nat) : Nat :=
  let share := Quantity.clamp (Quantity.ofNat 0) (Quantity.ofNat 100) (Quantity.orZero p)
  max 1 (Quantity.ceiling (share / Quantity.ofNat 100 * Quantity.ofNat total))

/-- The bound below which `p` percent of the samples lie; zero without samples. -/
def percentile {α : Type} [Quantity α] (h : Histogram) (p : α) : Nat :=
  if h.total = 0 then 0
  else
    match firstReaching (rank p h.total) 0 (h.bounds.zip h.counts) with
    | some bound => bound
    | none => (h.bounds.getLast?).getD 0

end Histogram

end Floodgate
