/-
  Floodgate/Rejection.lean
  ========================
  **Failures as responses.**  Every failure is one of five kinds of rejection: too
  many requests, an open circuit, a cancelled leader, a failure shared with others,
  or a failure of the handler.  The kind decides the status and the message of the
  response that a client gets; a rejected client is also told when to come back.

  `answer_shared` says that sharing a handler's failure does not change the
  response.
-/
import Floodgate.Failure
import Floodgate.Http.Response
import Floodgate.Observe.Event

namespace Floodgate

inductive Rejection where
  | rateLimited (client : String) (retryAfter : Option Duration)
  | circuitOpen (name : String)
  | leaderCancelled
  | coalesced (leader : Failure)
  | handler (cause : Failure)
deriving DecidableEq, Repr

namespace Rejection

/-- Sorts a failure by kind: what is not a rejection of the pipeline is the handler's. -/
def ofFailure : Failure → Rejection
  | .rateLimited client retryAfter => .rateLimited client retryAfter
  | .circuitOpen name => .circuitOpen name
  | .leaderCancelled => .leaderCancelled
  | .shared leader => .coalesced leader
  | f => .handler f

def failure : Rejection → Failure
  | .rateLimited client retryAfter => .rateLimited client retryAfter
  | .circuitOpen name => .circuitOpen name
  | .leaderCancelled => .leaderCancelled
  | .coalesced leader => .shared leader
  | .handler cause => cause

@[simp] theorem failure_ofFailure (f : Failure) : (ofFailure f).failure = f := by
  cases f <;> rfl

/-- The text for readers; a failure of the handler is marked as such. -/
def display (r : Rejection) : String := (Failure.classified r.failure).display

def sources (r : Rejection) : List String := (Failure.classified r.failure).sources

def kindName (r : Rejection) : String := r.failure.kindName

def isRateLimited : Rejection → Bool
  | .rateLimited .. => true
  | _ => false

def isCircuitOpen : Rejection → Bool
  | .circuitOpen _ => true
  | _ => false

/-- The handler failed, for this caller or for one that it shared the call with. -/
def isHandler : Rejection → Bool
  | .coalesced _ => true
  | .handler _ => true
  | _ => false

def status : Rejection → Http.Status
  | .rateLimited .. => 429
  | .circuitOpen _ => 503
  | .leaderCancelled => 503
  | .coalesced _ => 500
  | .handler _ => 500

def message : Rejection → String
  | .rateLimited .. => "Rate limit exceeded. Please try again later."
  | .circuitOpen _ => "Service temporarily unavailable (circuit breaker open)"
  | .leaderCancelled => "Upstream request was cancelled. Please retry."
  | .coalesced leader => leader.display
  | .handler cause => cause.display

/-- The largest number of seconds that a client can be told to wait. -/
def retryLimit : Nat := 18446744073709551615

/-- A wait in whole seconds, rounded up, at least one. -/
def retrySeconds (wait : Duration) : Nat :=
  max 1 (min retryLimit
    (Duration.seconds wait + if 0 < Duration.subsecond wait then 1 else 0))

def answer (r : Rejection) : Http.Response Http.Bytes :=
  let response := Http.Response.json r.status (.object [("error", .string r.message)])
  match r with
  | .rateLimited _ (some wait) =>
    let seconds := toString (retrySeconds wait)
    { response with head :=
      { response.head with
        headers := response.head.headers.replace "retry-after" (Http.utf8 seconds) } }
  | _ => response

/-- The log lines of an answer: failures of the handler are warned about. -/
def answerLines (r : Rejection) : List LogLine :=
  if r.isHandler then [⟨.warn, "handler error surfaced as 500", [("error", .text r.display)]⟩]
  else []

/-- The log lines of a rejection that the pipeline renders: a rejection of its own is noted. -/
def lines (r : Rejection) : List LogLine :=
  (if r.isHandler then []
    else [⟨.debug, "request rejected",
      [("status", .count r.status), ("error", .text r.display)]⟩]) ++ r.answerLines

instance : Observed Rejection where
  lines _ := lines
  measurements _ _ := []
  kind? _ := none

/-- What is not a rejection of the pipeline is sorted as the handler's. -/
theorem ofFailure_eq_handler {f : Failure} (h : f.isRejection = false) :
    ofFailure f = .handler f := by
  cases f with
  | rateLimited => simp [Failure.isRejection] at h
  | circuitOpen => simp [Failure.isRejection] at h
  | leaderCancelled => simp [Failure.isRejection] at h
  | shared => simp [Failure.isRejection] at h
  | message => rfl
  | sourced => rfl
  | classified => rfl

/-- A shared failure and the failure itself, when it is the handler's, get the same response. -/
theorem answer_shared {f : Failure} (h : f.isRejection = false) :
    (ofFailure (.shared f)).answer = (ofFailure f).answer := by
  rw [ofFailure_eq_handler h]
  rfl

end Rejection

end Floodgate
