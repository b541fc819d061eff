/-
  Floodgate/Admission/Controller.lean
  ===================================
  **Admission control.**  A controller keeps a bucket for every client it has seen.
  A client's first request finds a full bucket; all buckets fill at the same
  effective rate.  With a load source the effective rate is the base rate times a
  factor that falls in steps as the load rises; the load is read at most once in an
  interval.  Buckets that have not been used for longer than the idle time are swept.

  Clients do not get in each other's way: `get?_charge_other` says that a request
  leaves the buckets of all other clients alone.
-/
import Floodgate.Admission.Bucket
import Floodgate.Table
import Floodgate.Text.Described
import Floodgate.Number.Decimal

namespace Floodgate

structure LoadSchedule where
  interval : Duration
  /-- The latest reading, or the creation of the controller. -/
  readAt : Instant
deriving DecidableEq, Repr

structure RateChange (α : Type) where
  load : α
  previous : α
  current : α
deriving DecidableEq, Repr

structure Controller (α : Type) where
  baseRate : α
  burst : Nat
  idleTime : Duration
  effectiveRate : α
  /-- When the load is read, if there is a load source. -/
  schedule : Option LoadSchedule
  buckets : Table String (Bucket α)

/-- The load is never read more often than once in this time. -/
def shortestLoadInterval : Duration := Duration.ofSeconds 10

def rateFactor {α : Type} [Quantity α] (load : α) : α :=
  if Quantity.exceeds load (Quantity.decimal 8 1) then Quantity.decimal 5 1
  else if Quantity.exceeds load (Quantity.decimal 6 1) then Quantity.decimal 75 2
  else Quantity.ofNat 1

namespace Controller

variable {α : Type}

/-- How long a bucket may go unused if nothing else is said. -/
def defaultIdleTime : Duration := Duration.ofSeconds 300

/-- A controller without clients; with an interval it follows a load source. -/
def new (rate : α) (burst : Nat) (idleTime : Duration) (interval : Option Duration)
    (now : Instant) : Controller α :=
  { baseRate := rate, burst, idleTime, effectiveRate := rate
    schedule := interval.map fun i => ⟨max i shortestLoadInterval, now⟩
    buckets := [] }

variable [Quantity α]

/-- The bucket of a client; a new client's is full. -/
def bucket (c : Controller α) (client : String) (now : Instant) : Bucket α :=
  (c.buckets.get? client).getD (.full (Quantity.ofNat c.burst) now)

/-- A client's request: takes a token, or answers how long until there is one. -/
def charge (c : Controller α) (client : String) (now : Instant) :
    Except Duration Unit × Controller α :=
  let (answer, bucket) :=
    (c.bucket client now).take now c.effectiveRate (Quantity.ofNat c.burst)
  (answer, { c with buckets := c.buckets.put client bucket })

/-- Drops the buckets that have been idle for longer than they may. -/
def sweep (c : Controller α) (now : Instant) : Controller α :=
  { c with buckets := c.buckets.keep fun b => decide (now - b.seenAt ≤ c.idleTime) }

def clients (c : Controller α) : Nat := c.buckets.size

def readsLoad (c : Controller α) (now : Instant) : Bool :=
  match c.schedule with
  | none => false
  | some s => decide (s.interval ≤ now - s.readAt)

/-- Follows the load, if it is to be read; the change is reported if the rate is another one. -/
def adjust (c : Controller α) (now : Instant) (load : α) :
    Option (RateChange α) × Controller α :=
  if c.readsLoad now then
    let load := Quantity.clamp (Quantity.ofNat 0) (Quantity.ofNat 1) load
    let current := c.baseRate * rateFactor load
    (if Quantity.differs c.effectiveRate current then some ⟨load, c.effectiveRate, current⟩
      else none,
     { c with
        effectiveRate := current
        schedule := c.schedule.map fun s => { s with readAt := now } })
  else (none, c)

def described (c : Controller Float) : String :=
  Text.record "AdmissionController"
    [("base_rate", Decimal.text Decimal.described c.baseRate),
     ("effective_rate", Decimal.text Decimal.described c.effectiveRate),
     ("burst", Decimal.text Decimal.described (Float.ofNat c.burst)),
     ("idle_ttl", Text.elapsed c.idleTime),
     ("adaptive", Text.truth c.schedule.isSome)]

/-- A request leaves the buckets of all other clients alone. -/
theorem get?_charge_other (c : Controller α) {client other : String} (now : Instant)
    (h : client ≠ other) :
    (c.charge client now).2.buckets.get? other = c.buckets.get? other := by
  simp only [charge]
  rw [Table.get?_put, if_neg h]

omit [Quantity α] in
/-- A sweep keeps the buckets that were used lately. -/
theorem get?_sweep {c : Controller α} (nodup : c.buckets.keys.Nodup) (now : Instant)
    (client : String) :
    (c.sweep now).buckets.get? client =
      (c.buckets.get? client).filter fun b => decide (now - b.seenAt ≤ c.idleTime) :=
  Table.get?_keep nodup (fun b : Bucket α => decide (now - b.seenAt ≤ c.idleTime)) client

omit [Quantity α] in
theorem nodup_keys_sweep {c : Controller α} (nodup : c.buckets.keys.Nodup) (now : Instant) :
    (c.sweep now).buckets.keys.Nodup :=
  Table.nodup_keys_keep nodup fun b : Bucket α => decide (now - b.seenAt ≤ c.idleTime)

theorem nodup_keys_charge {c : Controller α} (nodup : c.buckets.keys.Nodup) (client : String)
    (now : Instant) : (c.charge client now).2.buckets.keys.Nodup :=
  Table.nodup_keys_put nodup _ _

end Controller

end Floodgate
