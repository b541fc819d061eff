/-
  Floodgate/Coalescing/Flights.lean
  =================================
  **Requests in flight.**  Of identical requests one executes, the leader; the others
  wait for its result.  The table has an entry for every key that is being executed,
  with the number of requests that joined it.  When the leader is done, or given up,
  its entry goes and the outcome is left for those who joined: a result, or the word
  that there will be none.  A request that comes later starts a new flight.
-/
import Floodgate.Failure
import Floodgate.Table

namespace Floodgate

/-- The number of a flight; no two flights have the same. -/
abbrev FlightId := Nat

structure Flight where
  id : FlightId
  waiters : Nat
deriving DecidableEq, Repr

inductive Landing (ρ : Type) where
  | completed (result : Except Failure ρ)
  | cancelled

/-- All flights, by key; `ρ` is what a flight brings back. -/
structure Flights (κ ρ : Type) where
  inFlight : Table κ Flight
  landed : Table FlightId (Landing ρ)
  next : FlightId

inductive Role where
  | leader
  | waiter (flight : FlightId)
deriving DecidableEq, Repr

namespace Flights

variable {κ ρ : Type} [DecidableEq κ]

def none : Flights κ ρ := ⟨[], [], 0⟩

def size (f : Flights κ ρ) : Nat := f.inFlight.size

/-- Joins the flight of a key, or starts one. -/
def join (f : Flights κ ρ) (key : κ) : Role × Flights κ ρ :=
  match f.inFlight.get? key with
  | some flight =>
    (.waiter flight.id,
      { f with inFlight := f.inFlight.put key { flight with waiters := flight.waiters + 1 } })
  | Option.none =>
    (.leader, { f with inFlight := f.inFlight.put key ⟨f.next, 0⟩, next := f.next + 1 })

/-- What a result becomes when it is shared: failures are marked as such. -/
def sharedResult (result : Except Failure ρ) : Except Failure ρ :=
  match result with
  | .ok r => .ok r
  | .error f => .error (.shared f)

/-- The leader is done.  It gets its result back, as shared if somebody joined; those who
    joined find it under the flight's number.  Second in the answer is how many they are. -/
def complete (f : Flights κ ρ) (key : κ) (result : Except Failure ρ) :
    Except Failure ρ × Option Nat × Flights κ ρ :=
  match f.inFlight.get? key with
  | Option.none => (result, Option.none, f)
  | some flight =>
    let f := { f with inFlight := f.inFlight.remove key }
    if flight.waiters = 0 then (result, some 0, f)
    else
      (sharedResult result, some flight.waiters,
        { f with landed := f.landed.put flight.id (.completed (sharedResult result)) })

def cancel (f : Flights κ ρ) (key : κ) : Flights κ ρ :=
  match f.inFlight.get? key with
  | Option.none => f
  | some flight =>
    { f with
        inFlight := f.inFlight.remove key
        landed := f.landed.put flight.id .cancelled }

/-- How a flight ended, if it has. -/
def landing? (f : Flights κ ρ) (id : FlightId) : Option (Landing ρ) := f.landed.get? id

end Flights

end Floodgate
