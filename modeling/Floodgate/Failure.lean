/-
  Floodgate/Failure.lean
  ======================
  **What a call can fail with.**  The stages reject calls for their own reasons, the
  handler fails with messages, and a failure that several callers share is handed
  to each of them as `shared`.  A failure has a text for readers (`display`), a
  chain of causes (`sources`) and a description for developers (`described`).

  Sharing is invisible in the first two: `display_shared` and `sources_shared` say
  that whoever receives a shared failure sees the text and the causes of the
  failure itself.
-/
import Floodgate.Clock
import Floodgate.Text.Described

namespace Floodgate

inductive Failure where
  /-- The client has no tokens left; they are back after the given time. -/
  | rateLimited (client : String) (retryAfter : Option Duration)
  | circuitOpen (name : String)
  | leaderCancelled
  | shared (leader : Failure)
  | message (text : String)
  | sourced (text : String) (source : Failure)
  /-- A failure that has been sorted into the kinds of rejections already. -/
  | classified (cause : Failure)
deriving DecidableEq, Repr, Inhabited

namespace Failure

/-- One of the pipeline's own rejections, shared ones included. -/
def isRejection : Failure → Bool
  | .rateLimited .. => true
  | .circuitOpen _ => true
  | .leaderCancelled => true
  | .shared _ => true
  | _ => false

def display : Failure → String
  | .rateLimited client _ => "rate limit exceeded for client " ++ client
  | .circuitOpen name => "circuit breaker " ++ name ++ " is open; call not permitted"
  | .leaderCancelled => "coalesced leader request was cancelled before completing"
  | .shared leader => leader.display
  | .message text => text
  | .sourced text _ => text
  | .classified cause =>
    if cause.isRejection then cause.display else "handler error: " ++ cause.display

/-- The texts of the chain of causes.  A sorted rejection has the causes of what it
    was made from, any other sorted failure ends the chain. -/
def sources : Failure → List String
  | .shared leader => leader.sources
  | .sourced _ source => source.display :: source.sources
  | .classified cause => if cause.isRejection then cause.sources else []
  | _ => []

@[simp] theorem display_shared (f : Failure) : (shared f).display = f.display := rfl

@[simp] theorem sources_shared (f : Failure) : (shared f).sources = f.sources := rfl

/-! ### Description -/

def kindName : Failure → String
  | .rateLimited .. => "RateLimited"
  | .circuitOpen _ => "CircuitOpen"
  | .leaderCancelled => "LeaderCancelled"
  | .shared _ => "Coalesced"
  | _ => "Handler"

def described : Failure → String
  | .rateLimited client retryAfter =>
    Text.record "RateLimited"
      [("client", Text.quoted client),
       ("retry_after", Text.optional (retryAfter.map Text.elapsed))]
  | .circuitOpen name => Text.record "CircuitOpen" [("name", Text.quoted name)]
  | .leaderCancelled => "LeaderCancelled"
  | .shared leader => Text.wrapped "Coalesced" leader.described
  | .message text => Text.quoted text
  | .sourced text source =>
    Text.record "Sourced" [("text", Text.quoted text), ("source", source.described)]
  | .classified cause => Text.wrapped cause.kindName cause.described

end Failure

end Floodgate
