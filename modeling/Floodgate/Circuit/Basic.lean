/-
  Floodgate/Circuit/Basic.lean
  ============================
  **The state machine of a circuit breaker.**  A closed circuit counts failures in a
  row and opens at the threshold.  An open one refuses calls until its cooldown is
  over; the call that finds it cooled down is the first probe of a half-open
  episode.  A half-open circuit admits a limited number of probes: as many successes
  close it, the first failure opens it again.

  Every change of state starts a new generation.  A call carries the generation it
  was admitted under, and what becomes of it counts only while that generation
  lasts: a late result can neither close nor open a circuit that has moved on.

  Every operation takes the time at which it happens and gives the events that it
  causes, a change of state first.
-/
import Floodgate.Circuit.Event

namespace Floodgate

inductive Phase where
  /-- Closed, with the number of failures in a row. -/
  | closed (failures : Nat)
  /-- Open since an instant. -/
  | opened (since : Instant)
  /-- Half-open, with the probes admitted and those of them that succeeded. -/
  | halfOpen (issued successes : Nat)
deriving DecidableEq, Repr, Inhabited

def Phase.state : Phase → CircuitState
  | .closed _ => .closed
  | .opened _ => .opened
  | .halfOpen .. => .halfOpen

/-- Failures in a row, probes admitted and probes succeeded. -/
def Phase.counts : Phase → Nat × Nat × Nat
  | .closed failures => (failures, 0, 0)
  | .opened _ => (0, 0, 0)
  | .halfOpen issued successes => (0, issued, successes)

/-- Number of changes of state before a call was admitted.  It stands for a counter of 64 bits
    that comes round, and is the same as long as there have been fewer than 2^64 changes. -/
abbrev Generation := Nat

structure Circuit where
  name : String
  /-- Failures in a row that open the circuit; at least one. -/
  threshold : Nat
  cooldown : Duration
  /-- Probes of a half-open episode; at least one. -/
  probes : Nat
  phase : Phase
  /-- The state as those see it who do not wait for their turn. -/
  published : CircuitState
  generation : Generation
  /-- When the state last changed. -/
  changedAt : Instant
  lastFailure : Option Instant
deriving DecidableEq, Repr

namespace Circuit

def unnamed : String := "<unnamed>"

/-- A closed circuit.  A threshold or budget of zero counts as one. -/
def new (name : String) (threshold : Nat) (cooldown : Duration) (probes : Nat) (now : Instant) :
    Circuit :=
  { name, threshold := max threshold 1, cooldown, probes := max probes 1
    phase := .closed 0, published := .closed, generation := 0, changedAt := now
    lastFailure := none }

/-- Enters a phase.  Only a different state is a change that others hear of. -/
def enter (c : Circuit) (now : Instant) (next : Phase) : Circuit × List CircuitEvent :=
  if c.phase.state = next.state then ({ c with phase := next }, [])
  else
    ({ c with
        phase := next
        published := next.state
        generation := c.generation + 1
        changedAt := now },
      [.transition c.phase.state next.state])

/-- Asks for a call to be admitted.  The answer is the generation that it is admitted
    under, or none if it is refused. -/
def acquire (c : Circuit) (now : Instant) : Option Generation × Circuit × List CircuitEvent :=
  match c.phase with
  | .closed _ => (some c.generation, c, [.callPermitted .closed])
  | .opened since =>
    if c.cooldown ≤ now - since then
      let (c, changes) := c.enter now (.halfOpen 1 0)
      (some c.generation, c, changes ++ [.callPermitted c.phase.state])
    else (none, c, [.callRejected])
  | .halfOpen issued successes =>
    if issued < c.probes then
      (some c.generation, { c with phase := .halfOpen (issued + 1) successes },
        [.callPermitted .halfOpen])
    else (none, c, [.callRejected])

/-- The phase after a success. -/
def afterSuccess (c : Circuit) : Phase :=
  match c.phase with
  | .closed _ => .closed 0
  | .opened since => .opened since
  | .halfOpen issued successes =>
    if c.probes ≤ successes + 1 then .closed 0 else .halfOpen issued (successes + 1)

/-- The phase after a failure. -/
def afterFailure (c : Circuit) (now : Instant) : Phase :=
  match c.phase with
  | .closed failures => if c.threshold ≤ failures + 1 then .opened now else .closed (failures + 1)
  | .opened _ => .opened now
  | .halfOpen .. => .opened now

def recordSuccess (c : Circuit) (now : Instant) : Circuit × List CircuitEvent :=
  let (after, changes) := c.enter now c.afterSuccess
  (after, changes ++ [.succeeded c.phase.state])

/-- Takes note of a failure.  A failure noted while the circuit is open starts the
    cooldown again. -/
def recordFailure (c : Circuit) (now : Instant) : Circuit × List CircuitEvent :=
  let (after, changes) := c.enter now (c.afterFailure now)
  ({ after with lastFailure := some now }, changes ++ [.failed c.phase.state])

/-- Takes note of the outcome of a call, unless the state has changed since it was admitted. -/
def settle (c : Circuit) (now : Instant) (admitted : Generation) (failure : Bool) :
    Circuit × List CircuitEvent :=
  if c.generation ≠ admitted then (c, [])
  else if failure then c.recordFailure now
  else c.recordSuccess now

/-- Gives back the probe of a call that was given up without an outcome. -/
def release (c : Circuit) (admitted : Generation) : Circuit :=
  if c.generation ≠ admitted then c
  else
    match c.phase with
    | .halfOpen issued successes => { c with phase := .halfOpen (issued - 1) successes }
    | _ => c

def forceOpen (c : Circuit) (now : Instant) : Circuit × List CircuitEvent :=
  c.enter now (.opened now)

def reset (c : Circuit) (now : Instant) : Circuit × List CircuitEvent :=
  let (after, changes) := c.enter now (.closed 0)
  ({ after with lastFailure := none }, changes)

/-! ### Views -/

/-- Time since the state last changed. -/
def sinceChange (c : Circuit) (now : Instant) : Duration := now - c.changedAt

/-- Calls are refused until the cooldown is over. -/
def isOpen (c : Circuit) : Bool := c.published == .opened

def health (c : Circuit) : String := c.published.health

def described (c : Circuit) : String :=
  Text.record "Circuit"
    [("name", Text.quoted c.name), ("state", c.published.text),
     ("failure_threshold", toString c.threshold), ("cooldown", Text.elapsed c.cooldown),
     ("half_open_max_calls", toString c.probes)]

/-! ### What every operation keeps -/

def Consistent (c : Circuit) : Prop := c.published = c.phase.state

theorem consistent_enter {c : Circuit} (h : c.Consistent) (now : Instant) (next : Phase) :
    (c.enter now next).1.Consistent := by
  unfold enter
  by_cases hs : c.phase.state = next.state
  · simpa [hs, Consistent] using h.trans hs
  · simp [hs, Consistent]

end Circuit

end Floodgate
