/-
  Floodgate/Pipeline/Managed.lean
  ===============================
  **Pipelines and their operators.**  A pipeline is a service with handles for those
  who operate it: they look at its stages, give orders to all of them at once, and let
  background work happen.  At the core of a pipeline is what its stages protect.
-/
import Floodgate.Pipeline.Coalesced
import Floodgate.Pipeline.Compressed
import Floodgate.Pipeline.Guarded
import Floodgate.Pipeline.Limited
import Floodgate.Pipeline.Metered
import Floodgate.Pipeline.Rendered

namespace Floodgate

inductive CircuitOrder where
  | canExecute
  | success
  | failure
  | forceOpen
  | reset
deriving DecidableEq, Repr

inductive Order where
  /-- Go on as a copy: what belongs to one instance alone is left behind. -/
  | clone
  | load (x : Float)
  | sweep
  /-- Background work gets its turn; what has just been started begins with it. -/
  | wake
  | tick (time : Instant)
  | circuit (order : CircuitOrder)
deriving Repr

/-- What the stages answer to an order, outermost first. -/
structure Reply where
  removed : List Nat
  allowed : List Bool
deriving DecidableEq, Repr

namespace Reply

def none : Reply := ⟨[], []⟩

/-- The answers of a stage before those of the stages inside it. -/
def before (outer inner : Reply) : Reply :=
  ⟨outer.removed ++ inner.removed, outer.allowed ++ inner.allowed⟩

end Reply

inductive StageView where
  | limiter (clients : Nat) (rate : Float)
  | breaker (circuit : Circuit)
  | coalescer (inFlight : Nat)
  | compressor (compressor : Compressor)
  | meter (recorder : Recorder) (saved : Nat)
  | renderer
  | edge (clients : Nat) (rate : Float) (circuit : Circuit) (inFlight : Nat)
      (totals : Gzip.Totals) (recorder : Recorder)

/-- A pipeline around something whose state is of type `η`. -/
structure Pipeline (π η : Type) extends Service π where
  core : State → η
  withCore : η → State → State
  obey : Instant → Order → State → Step State Reply
  /-- Times of the ticks that are to be handled at an instant, outermost stage first. -/
  due : Instant → State → List Instant
  /-- The stages, outermost first. -/
  views : State → List StageView

namespace Pipeline

variable {π η : Type}

def obeyThrough {τ : Type} (P : Pipeline π η) (now : Instant) (order : Order)
    (stage : Step τ Reply) (inner : P.State) : Step (Layered τ P.State) Reply :=
  let rest := P.obey now order inner
  ⟨stage.value.before rest.value, ⟨stage.state, rest.state⟩, stage.happened ++ rest.happened⟩

/-! ### Stages -/

def limiterObeys (o : LimiterOptions) (now : Instant) (order : Order) (l : Limiter Float) :
    Step (Limiter Float) Reply :=
  match order with
  | .load x => ⟨.none, { l with load := x }, []⟩
  | .sweep =>
    let swept := l.sweep now false
    ⟨⟨[swept.1], []⟩, swept.2.1, Limited.told o swept.2.2⟩
  | .wake => ⟨.none, l.wake now, []⟩
  | .tick time =>
    let ticked := l.tick time now
    ⟨.none, ticked.1, Limited.told o ticked.2⟩
  | _ => ⟨.none, l, []⟩

def limited (o : LimiterOptions) (P : Pipeline π η) : Pipeline π η where
  toService := Limited.service o P.toService
  core s := P.core s.inner
  withCore h s := ⟨s.own, P.withCore h s.inner⟩
  obey now order s := P.obeyThrough now order (limiterObeys o now order s.own) s.inner
  due now s := (s.own.sweeper.due? now).toList ++ P.due now s.inner
  views s :=
    .limiter s.own.controller.clients s.own.controller.effectiveRate :: P.views s.inner

def circuitObeys (o : BreakerOptions) (now : Instant) (order : Order) (c : Circuit) :
    Step Circuit Reply :=
  let changed (r : Circuit × List CircuitEvent) : Step Circuit Reply :=
    ⟨.none, r.1, Guarded.told o r.2⟩
  match order with
  | .circuit .canExecute =>
    let asked := c.acquire now
    ⟨⟨[], [asked.1.isSome]⟩, asked.2.1, Guarded.told o asked.2.2⟩
  | .circuit .success => changed (c.recordSuccess now)
  | .circuit .failure => changed (c.recordFailure now)
  | .circuit .forceOpen => changed (c.forceOpen now)
  | .circuit .reset => changed (c.reset now)
  | _ => ⟨.none, c, []⟩

def guarded (o : BreakerOptions) (P : Pipeline π η) : Pipeline π η where
  toService := Guarded.service o P.toService
  core s := P.core s.inner
  withCore h s := ⟨s.own, P.withCore h s.inner⟩
  obey now order s := P.obeyThrough now order (circuitObeys o now order s.own) s.inner
  due now s := P.due now s.inner
  views s := .breaker s.own :: P.views s.inner

def coalesced {K : Type} [DecidableEq K] (o : CoalescerOptions K) (P : Pipeline π η) :
    Pipeline π η where
  toService := Coalesced.service o P.toService
  core s := P.core s.inner
  withCore h s := ⟨s.own, P.withCore h s.inner⟩
  obey now order s := P.obeyThrough now order ⟨.none, s.own, []⟩ s.inner
  due now s := P.due now s.inner
  views s := .coalescer s.own.size :: P.views s.inner

def compressed (c : Gzip.Codec) (o : CompressorOptions) (P : Pipeline π η) : Pipeline π η where
  toService := Compressed.service c P.toService o
  core s := P.core s.inner
  withCore h s := ⟨s.own, P.withCore h s.inner⟩
  obey now order s := P.obeyThrough now order ⟨.none, s.own, []⟩ s.inner
  due now s := P.due now s.inner
  views s := .compressor s.own :: P.views s.inner

/-- A pipeline whose latencies are recorded; `saved` bytes are reported with them. -/
def metered (o : MeterOptions) (saved : Nat) (P : Pipeline π η) : Pipeline π η where
  toService := Metered.service o P.toService
  core s := P.core s.inner
  withCore h s := ⟨s.own, P.withCore h s.inner⟩
  obey now order s := P.obeyThrough now order ⟨.none, s.own, []⟩ s.inner
  due now s := P.due now s.inner
  views s := .meter s.own saved :: P.views s.inner

def rendererObeys (order : Order) (held : Option Failure) : Step (Option Failure) Reply :=
  match order with
  | .clone => ⟨.none, none, []⟩
  | _ => ⟨.none, held, []⟩

def rendered (P : Pipeline π η) : Pipeline π η where
  toService := Rendered.service P.toService
  core s := P.core s.inner
  withCore h s := ⟨s.own, P.withCore h s.inner⟩
  obey now order s := P.obeyThrough now order (rendererObeys order s.own) s.inner
  due now s := P.due now s.inner
  views s := .renderer :: P.views s.inner

/-! ### Background work -/

def earliest : List Instant → Option Instant
  | [] => none
  | t :: rest =>
    match earliest rest with
    | none => some t
    | some u => some (min t u)

/-- Handles ticks in the order of their times until none is due; `fuel` bounds their number. -/
def catchUp (P : Pipeline π η) (now : Instant) : Nat → P.State → Step P.State Unit
  | 0, s => ⟨(), s, []⟩
  | fuel + 1, s =>
    match earliest (P.due now s) with
    | none => ⟨(), s, []⟩
    | some time =>
      let ticked := P.obey now (.tick time) s
      (catchUp P now fuel ticked.state).after ticked.happened

/-- Lets all background work happen that is due at an instant. -/
def background (P : Pipeline π η) (now : Instant) (s : P.State) : Step P.State Unit :=
  P.catchUp now (P.due now s).length s

end Pipeline

end Floodgate
