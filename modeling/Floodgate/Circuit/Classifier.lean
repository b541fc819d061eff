/-
  Floodgate/Circuit/Classifier.lean
  =================================
  **Which outcomes count as failures.**  By default every error and every response
  with a server error does.  A custom classifier lists what counts: certain statuses,
  and errors whose text contains one of certain phrases.
-/
import Floodgate.Failure
import Floodgate.Http.Response

namespace Floodgate

/-- How a call ended: with the status of a response or with a failure. -/
abbrev Outcome := Except Failure Http.Status

inductive Classifier where
  | serverErrors
  /-- Responses of these statuses and errors with one of these phrases. -/
  | custom (statuses : List Http.Status) (phrases : List String)
deriving DecidableEq, Repr

def containsPhrase (phrase : List Char) : List Char → Bool
  | [] => phrase.isEmpty
  | c :: rest => phrase.isPrefixOf (c :: rest) || containsPhrase phrase rest

namespace Classifier

def isFailure : Classifier → Outcome → Bool
  | .serverErrors, .ok status => status.isServerError
  | .serverErrors, .error _ => true
  | .custom statuses _, .ok status => statuses.contains status
  | .custom _ phrases, .error f =>
    phrases.any fun p => containsPhrase p.toList f.display.toList

def customDescribed : String := Text.record "FnClassifier" [("f", Text.quoted "<closure>")]

end Classifier

end Floodgate
