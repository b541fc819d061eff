/-
  Floodgate/Observe/Log.lean
  ==========================
  **Log lines.**  A line has a level, a fixed message and named details.
-/

namespace Floodgate

inductive Level where
  | trace
  | debug
  | info
  | warn
  | error
deriving DecidableEq, Repr

def Level.text : Level → String
  | .trace => "TRACE"
  | .debug => "DEBUG"
  | .info => "INFO"
  | .warn => "WARN"
  | .error => "ERROR"

inductive Detail where
  | text (s : String)
  | count (n : Nat)
  | flag (b : Bool)
  | real (x : Float)

structure LogLine where
  level : Level
  message : String
  details : List (String × Detail)

end Floodgate
