/-
  Floodgate/Gzip/Token.lean
  =========================
  **Literals and references.**  A deflate stream describes data by tokens: a byte, or a
  reference to bytes that came before, given by a length and a distance.  `Token.expand?`
  is what a token stands for.
-/
import Floodgate.Http.Headers

namespace Floodgate.Gzip

open Http (Bytes)

inductive Token where
  | literal (b : UInt8)
  /-- `length` bytes, copied from `distance` bytes back. -/
  | reference (length distance : Nat)
deriving DecidableEq, Repr

def Token.size : Token → Nat
  | .literal _ => 1
  | .reference length _ => length

/-- Copies bytes from a distance back onto the end, one after the other; bytes may be
    copied that were just put there.  None if there is nothing that far back. -/
def copyBack? (distance : Nat) : Nat → Array UInt8 → Option (Array UInt8)
  | 0, out => some out
  | n + 1, out =>
    if distance = 0 ∨ out.size < distance then none
    else
      match out[out.size - distance]? with
      | some b => copyBack? distance n (out.push b)
      | none => none

/-- The data that a token adds to what came before. -/
def Token.expand? (out : Array UInt8) : Token → Option (Array UInt8)
  | .literal b => some (out.push b)
  | .reference length distance => copyBack? distance length out

end Floodgate.Gzip
