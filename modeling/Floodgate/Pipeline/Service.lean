/-
  Floodgate/Pipeline/Service.lean
  ===============================
  **Services.**  A service takes requests.  Before a request it says whether it is
  ready; a request starts a call, which is polled until it gives a response or fails,
  or is abandoned; the body of a response is then read frame by frame.  All of this
  reads and changes the state of the service, and every step tells what happened.

  A stage of the pipeline is a function from services to services: it puts its own
  state beside that of the service it wraps (`Layered`), and its calls and bodies
  wrap those of the inner one.  Nothing is assumed of the inner service but that its
  bodies come to an end (`pull_shrinks`).
-/
import Floodgate.Http.Body
import Floodgate.Http.Request
import Floodgate.Http.Response
import Floodgate.Pipeline.Happening

namespace Floodgate

open Http (Request Response Pull SizeHint)

inductive Readiness where
  | ready
  | pending
  | failed (f : Failure)
deriving DecidableEq, Repr

/-- What a step gives: its value, the new state and what happened, in order. -/
structure Step (σ α : Type) where
  value : α
  state : σ
  happened : List Happening

namespace Step

variable {σ τ α β : Type}

def map (f : α → β) (s : Step σ α) : Step σ β := ⟨f s.value, s.state, s.happened⟩

def into (f : σ → τ) (s : Step σ α) : Step τ α := ⟨s.value, f s.state, s.happened⟩

/-- The step after things that happened before it. -/
def after (earlier : List Happening) (s : Step σ α) : Step σ α :=
  ⟨s.value, s.state, earlier ++ s.happened⟩

end Step

/-- The state of a stage beside that of the service inside it. -/
structure Layered (τ σ : Type) where
  own : τ
  inner : σ

/-- A step of the inner service, seen from the stage around it. -/
def Step.under {τ σ α : Type} (own : τ) (s : Step σ α) : Step (Layered τ σ) α :=
  s.into (Layered.mk own)

abbrev Answer (β : Type) := Except Failure (Response β)

inductive Progress (κ β : Type) where
  | pending (call : κ)
  | done (answer : Answer β)

namespace Progress

variable {κ κ' β β' : Type}

def map (wrapCall : κ → κ') (wrapBody : β → β') : Progress κ β → Progress κ' β'
  | .pending call => .pending (wrapCall call)
  | .done (.ok r) => .done (.ok (r.withBody (wrapBody r.body)))
  | .done (.error f) => .done (.error f)

end Progress

/-- A service.  Requests come with something of type `π` that stages pass on unread. -/
structure Service (π : Type) where
  State : Type
  Call : Type
  /-- The body of a response, as far as it has not been read. -/
  Body : Type
  /-- Asks whether the service takes a request. -/
  ready : State → Readiness × State
  start : Instant → Request → π → State → Step State Call
  poll : Instant → Call → State → Step State (Progress Call Body)
  abandon : Call → State → State
  pull : Body → State → Step State (Pull Body)
  hint : Body → SizeHint
  ended : Body → Bool
  size : Body → Nat
  pull_shrinks : ∀ (b : Body) (s : State), (pull b s).value.Shrinks size (size b)

end Floodgate
