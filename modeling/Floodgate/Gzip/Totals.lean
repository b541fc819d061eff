/-
  Floodgate/Gzip/Totals.lean
  ==========================
  **What a compressor adds up.**  Finished members are counted with the bytes that went
  in and came out; encoders that have finished a member are kept for the next one, as
  many as the pool holds.
-/
import Floodgate.Observe.Event

namespace Floodgate.Gzip

/-- Counters of 64 bits that have not come round. -/
structure Totals where
  responses : Nat
  bytesIn : Nat
  bytesOut : Nat
deriving DecidableEq, Repr

namespace Totals

def zero : Totals := ⟨0, 0, 0⟩

def record (t : Totals) (bytesIn bytesOut : Nat) : Totals :=
  ⟨t.responses + 1, t.bytesIn + bytesIn, t.bytesOut + bytesOut⟩

/-- Bytes that did not have to be sent. -/
def saved (t : Totals) : Nat := t.bytesIn - t.bytesOut

end Totals

structure Pool where
  level : Nat
  capacity : Nat
  idle : Nat
deriving DecidableEq, Repr

namespace Pool

/-- An empty pool; levels above the highest count as that. -/
def new (level capacity : Nat) : Pool := ⟨min level 9, capacity, 0⟩

/-- Takes an encoder, an idle one if there is one. -/
def acquire (p : Pool) : Pool := { p with idle := p.idle - 1 }

/-- Takes back an encoder that has finished, unless the pool is full. -/
def release (p : Pool) : Pool :=
  if p.idle < p.capacity then { p with idle := p.idle + 1 } else p

def described (p : Pool) : String :=
  Text.record "EncoderPool"
    [("level", toString p.level), ("capacity", toString p.capacity), ("idle", toString p.idle)]

end Pool

/-- What becomes of a response to a request that accepts gzip.  That its encoder fails on the
    first data, and it is sent as it was, is left out. -/
inductive Decision where
  | ineligible
  | belowThreshold
  | compressed
deriving DecidableEq, Repr

def Decision.text : Decision → String
  | .ineligible => "ineligible"
  | .belowThreshold => "below_threshold"
  | .compressed => "compressed"

inductive CompressionEvent where
  | decided (d : Decision)
  | finished (bytesIn bytesOut : Nat)
deriving DecidableEq, Repr

instance : Observed CompressionEvent where
  lines name
    | .decided d =>
      [⟨.trace, "compression decision", [("compressor", .text name), ("outcome", .text d.text)]⟩]
    | .finished .. => []
  measurements name
    | .decided d =>
      [.counter "compression_responses_total" [("compressor", name), ("outcome", d.text)] 1]
    | .finished bytesIn bytesOut =>
      [.counter "compression_bytes_saved_total" [] (bytesIn - bytesOut)]
  kind? _ := none

end Floodgate.Gzip
