/-
  Floodgate/Observe/Event.lean
  ============================
  **Events and who hears of them.**  What happens in a stage is an event.  Each kind
  of event says which lines of the log it writes, what it measures and under which
  name listeners hear of it.  Listeners are called in the order in which they were
  added; one that panics is logged and does not keep the event from the others.
-/
import Floodgate.Clock
import Floodgate.Text.Described
import Floodgate.Observe.Log
import Floodgate.Observe.Measurement

namespace Floodgate

/-- Events that can be observed from outside.  The first argument of the views is the
    name of the component in which the event happened. -/
class Observed (ε : Type) where
  lines : String → ε → List LogLine
  measurements : String → ε → List Measurement
  /-- The name of the event for listeners, if they can hear of it. -/
  kind? : ε → Option String

/-- An event, where it happened and when. -/
structure Occurrence (ε : Type) where
  component : String
  time : Instant
  event : ε

structure Listener where
  /-- The kind of events to hear of; all of them if there is none. -/
  kind : Option String
  panics : Bool
deriving DecidableEq, Repr

namespace Listener

def hears (l : Listener) (kind : String) : Bool :=
  match l.kind with
  | none => true
  | some k => k == kind

/-- The listeners that hear of an event of this kind, with their positions, in order. -/
def heard (listeners : List Listener) (kind : String) : List (Listener × Nat) :=
  listeners.zipIdx.filter fun p => p.1.hears kind

def described (listeners : List Listener) : String :=
  Text.record "EventListeners" [("len", toString listeners.length)]

end Listener

structure Sighting where
  lines : List LogLine
  measurements : List Measurement
  heardBy : List Nat

def panicLine (component kind : String) : LogLine :=
  ⟨.error, "event listener panicked", [("component", .text component), ("event_type", .text kind)]⟩

/-- An occurrence seen from outside: its own lines come before those of the listeners
    that panicked on it. -/
def Occurrence.sighting {ε : Type} [Observed ε] (listeners : List Listener) (o : Occurrence ε) :
    Sighting :=
  let heard : List (Listener × Nat) := match Observed.kind? o.event with
    | none => []
    | some kind => Listener.heard listeners kind
  let panicked := heard.filter fun p => p.1.panics
  { lines := Observed.lines o.component o.event ++
      panicked.map fun _ => panicLine o.component ((Observed.kind? o.event).getD "")
    measurements := Observed.measurements o.component o.event
    heardBy := heard.map Prod.snd }

end Floodgate
