/-
  Floodgate/Gzip/Match.lean
  =========================
  **Finding references.**  Positions whose next three bytes have the same hash are
  chained, each to the latest one before it.  Looking for a reference walks the chain of
  a position and keeps the longest match; how far it walks depends on the level.  At
  higher levels a match is held back until it is known that the next position has no
  longer one.  Position zero ends every chain, so no reference starts there.
-/
import Floodgate.Gzip.Token

namespace Floodgate.Gzip

/-! ### Chains -/

def leastLength : Nat := 3

def greatestLength : Nat := 258

def windowSize : Nat := 32768

def byteAt (data : Array UInt8) (i : Nat) : Nat := (data.getD i 0).toNat

def hashAt (data : Array UInt8) (i : Nat) : Nat :=
  Nat.xor (Nat.xor (byteAt data i * 1024) (byteAt data (i + 1) * 32)) (byteAt data (i + 2)) % 32768

/-- The chain from every position to the latest one before it with the same hash; zero
    where there is none.  `heads` holds the latest position of every hash. -/
def chainFrom (data : Array UInt8) : Nat → Nat → Array Nat → Array Nat → Array Nat
  | 0, _, _, chain => chain
  | n + 1, i, heads, chain =>
    if i + 2 < data.size then
      let h := hashAt data i
      let latest := heads.getD h 0
      chainFrom data n (i + 1) (heads.setIfInBounds h i) (chain.push latest)
    else chainFrom data n (i + 1) heads (chain.push 0)

def chains (data : Array UInt8) : Array Nat :=
  chainFrom data data.size 0 (Array.replicate 32768 0) (Array.mkEmpty data.size)

/-! ### Walking a chain -/

/-- Number of equal bytes at two positions, at most `most`. -/
def equalBytes (data : Array UInt8) : Nat → Nat → Nat → Nat
  | 0, _, _ => 0
  | most + 1, i, j =>
    if byteAt data i = byteAt data j then equalBytes data most (i + 1) (j + 1) + 1 else 0

def samePair (data : Array UInt8) (i j : Nat) : Bool :=
  byteAt data i == byteAt data j && byteAt data (i + 1) == byteAt data (j + 1)

/-- A match: a length, and a distance unless there is none. -/
structure Match where
  length : Nat
  distance : Nat
deriving DecidableEq, Repr

structure Search where
  data : Array UInt8
  chain : Array Nat
  position : Nat
  reach : Nat
  most : Nat

/-- Walks a chain from `probe`.  `groups` counts groups of three positions to be looked at,
    `inGroup` the positions left in the current one; a position whose end differs from
    that of the best match counts only within its group. -/
def Search.walk (s : Search) : Nat → Nat → Nat → Nat → Match → Match
  | 0, _, _, _, best => best
  | fuel + 1, groups, inGroup, probe, best =>
    if inGroup = 0 then
      if groups ≤ 1 then best else s.walk fuel (groups - 1) 3 probe best
    else
      let next := s.chain.getD probe 0
      let distance : Nat := s.position - next
      if next % 65536 = 0 ∨ s.reach < distance then best
      else if samePair s.data (next + best.length - 1) (s.position + best.length - 1) then
        if samePair s.data next s.position then
          let length := equalBytes s.data s.most next s.position
          if best.length < length then
            if length = s.most then ⟨length, distance⟩
            else s.walk fuel groups 0 next ⟨length, distance⟩
          else s.walk fuel groups 0 next best
        else s.walk fuel groups 0 next best
      else s.walk fuel groups (inGroup - 1) next best

/-- The longest match that is longer than the given one, or that one. -/
def Search.run (s : Search) (groups : Nat) (best : Match) : Match :=
  if s.most ≤ best.length then best else s.walk (4 * groups + 4) groups 0 s.position best

/-! ### Levels -/

structure Effort where
  /-- Groups of positions that are looked at, less one. -/
  groups : Nat
  groupsHolding : Nat
  greedy : Bool
deriving DecidableEq, Repr

def probes (level : Nat) : Nat := [0, 1, 6, 32, 16, 32, 128, 256, 512, 768].getD level 768

def effort (level : Nat) : Effort :=
  ⟨1 + (probes level + 2) / 3, 1 + (probes level / 4 + 2) / 3, decide (level ≤ 3)⟩

end Floodgate.Gzip
