/-
  Floodgate/Admission/Sweeper.lean
  ================================
  **The background sweep.**  The first request starts the sweeper, in the background.
  It gets its turn at some time after that, and the first tick is an interval after its
  first turn, however late that comes.  From then on it ticks once in an interval.  A
  tick that is handled late, by more than the tolerance, is followed by a full interval
  from then on; otherwise the next tick is an interval after the tick's own time.  Timers
  have a resolution of a millisecond: a tick is handled at the first whole millisecond at
  or after its time.

  Ticks whose time is past already when the one before is handled would sweep again
  at the same instant and find nothing, so they are passed over: `next` is the first
  tick that is still to come.
-/
import Floodgate.Clock

namespace Floodgate

inductive Sweeper where
  | idle
  /-- A request has started it, and it has not had a turn yet. -/
  | started
  | ticking (next : Instant)
  /-- The interval cannot be kept, so there are no ticks. -/
  | dead
deriving DecidableEq, Repr

namespace Sweeper

/-- The clock cannot show instants from here on: 2^63 seconds. -/
def horizon : Instant := 9223372036854775808 * Duration.second

/-- A sweeper whose next tick is at an instant, if there is such an instant. -/
def at? (next : Instant) : Sweeper := if next < horizon then .ticking next else .dead

/-- The sweeper after a request. -/
def start : Sweeper → Sweeper
  | .idle => .started
  | s => s

/-- The sweeper gets its turn: if it is the first one, the ticks are counted from now on. -/
def wake (s : Sweeper) (interval : Duration) (now : Instant) : Sweeper :=
  match s with
  | .started => if interval = 0 then .dead else at? (now + interval)
  | s => s

/-- The last whole millisecond. -/
def lastMillisecond (now : Instant) : Instant :=
  Duration.milliseconds now * Duration.millisecond

/-- How late a tick may be handled without moving the ticks after it. -/
def tolerance : Duration := 5 * Duration.millisecond

/-- The time of the tick that is to be handled, if one is. -/
def due? (s : Sweeper) (now : Instant) : Option Instant :=
  match s with
  | .ticking next => if next ≤ lastMillisecond now then some next else none
  | _ => none

/-- The first tick to come after the one at `tick` has been handled. -/
def next (tick : Instant) (interval : Duration) (now : Instant) : Sweeper :=
  if tick + tolerance < now then at? (now + interval)
  else at? (tick + interval * ((lastMillisecond now - tick) / interval + 1))

end Sweeper

end Floodgate
