/-
  Floodgate/Latency/Snapshot.lean
  ===============================
  **Snapshots of the figures.**  A snapshot is written as a JSON record and read back
  from one that has all of its fields.
-/
import Floodgate.Json.Record

namespace Floodgate

/-- The figures of a pipeline at one moment; averages and maxima are numbers of type `α`. -/
structure Snapshot (α : Type) where
  requests : Nat
  errors : Nat
  average : α
  p50 : Nat
  p95 : Nat
  p99 : Nat
  greatest : α
  saved : Nat
deriving DecidableEq, Repr

namespace Snapshot

def json (s : Snapshot Float) : Json.Value :=
  .object
    [("request_count", .nat s.requests), ("error_count", .nat s.errors),
     ("average_latency_ms", .real s.average), ("p50_ms", .nat s.p50), ("p95_ms", .nat s.p95),
     ("p99_ms", .nat s.p99), ("max_latency_ms", .real s.greatest), ("bytes_saved", .nat s.saved)]

/-- The fields of the record, in order. -/
def fields : List (Json.Field (Snapshot Float)) :=
  let count := Json.readCount Json.wordLimit
  [.of "request_count" count fun n s => { s with requests := n },
   .of "error_count" count fun n s => { s with errors := n },
   .of "average_latency_ms" Json.readReal fun x s => { s with average := x },
   .of "p50_ms" count fun n s => { s with p50 := n },
   .of "p95_ms" count fun n s => { s with p95 := n },
   .of "p99_ms" count fun n s => { s with p99 := n },
   .of "max_latency_ms" Json.readReal fun x s => { s with greatest := x },
   .of "bytes_saved" count fun n s => { s with saved := n }]

/-- Reads a snapshot; all fields must be there. -/
def ofText (text : String) : Except Json.Fault (Snapshot Float) :=
  Json.document (Json.readRecord fields true ⟨0, 0, 0.0, 0, 0, 0, 0.0, 0⟩) text

end Snapshot

end Floodgate
