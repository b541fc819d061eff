/-
  Floodgate/Gzip/Tokenize.lean
  ============================
  **Data as blocks of tokens.**  Data is cut into literals and references from its
  beginning to its end, and the tokens into blocks: a block is closed when its tokens
  take up all the room there is, or when it has grown long and its references do not
  save anything.
-/
import Floodgate.Gzip.Match

namespace Floodgate.Gzip

/-- A block: its tokens and the part of the data that they stand for. -/
structure Block where
  tokens : Array Token
  start : Nat
  size : Nat

namespace Block

def empty (start : Nat) : Block := ⟨#[], start, 0⟩

def push (b : Block) (t : Token) : Block := ⟨b.tokens.push t, b.start, b.size + t.size⟩

end Block

structure Blocks where
  closed : Array Block
  current : Block
  /-- Room that the current block takes, and tokens until it takes another mark. -/
  room : Nat
  untilMark : Nat

namespace Blocks

def empty : Blocks := ⟨#[], .empty 0, 1, 8⟩

def roomOf : Token → Nat
  | .literal _ => 1
  | .reference .. => 3

/-- Adds a token; every eighth one takes a mark. -/
def push (b : Blocks) (t : Token) : Blocks :=
  let marked := b.untilMark = 1
  { b with
      current := b.current.push t
      room := b.room + roomOf t + if marked then 1 else 0
      untilMark := if marked then 8 else b.untilMark - 1 }

def roomLimit : Nat := 65528

def isFull (b : Blocks) : Bool := decide (roomLimit < b.room)

def isFat (b : Blocks) : Bool :=
  decide (31744 < b.current.size) && decide (b.current.size ≤ b.room * 115 / 128)

def close (b : Blocks) : Blocks :=
  ⟨b.closed.push b.current, .empty (b.current.start + b.current.size), 1, 8⟩

/-- Closes the current block if it is full, or fat. -/
def settle (b : Blocks) : Blocks := if b.isFull || b.isFat then b.close else b

/-- All blocks; the last one may be empty. -/
def all (b : Blocks) : Array Block := b.closed.push b.current

end Blocks

/-! ### Looking for the longest match -/

/-- A match that is worth a reference: a short one must not be far away, and none goes back
    to the start of the window. -/
def worthy (position : Nat) (m : Match) : Option Match :=
  if m.length = leastLength ∧ 8192 ≤ m.distance then none
  else if m.distance = 0 ∨ position % windowSize = m.distance then none
  else some m

inductive Choice where
  | literal
  | take (m : Match)
  | hold (m : Match)
  /-- The match held back at the position before. -/
  | takeHeld (m : Match)
  /-- A literal for the position before, and then a reference from this one on. -/
  | dropAndTake (m : Match)
  /-- A literal for the position before; the match here is held back. -/
  | dropAndHold (m : Match)

def longEnough : Nat := 128

/-- Decides at a position with the match found there and the one held back. -/
def choose (greedy : Bool) (held : Option Match) (found : Option Match) : Choice :=
  match held, found with
  | none, none => .literal
  | none, some m => if greedy || decide (longEnough ≤ m.length) then .take m else .hold m
  | some h, none => .takeHeld h
  | some h, some m =>
    if h.length < m.length then
      if longEnough ≤ m.length then .dropAndTake m else .dropAndHold m
    else .takeHeld h

/-- The match at a position, longer than the one held back. -/
def matchAt (data : Array UInt8) (chain : Array Nat) (e : Effort) (position : Nat)
    (held : Option Match) : Option Match :=
  let most : Nat := min greatestLength (data.size - position)
  let start : Match := ⟨(held.map Match.length).getD (leastLength - 1), 0⟩
  let groups := if 32 ≤ start.length then e.groupsHolding else e.groups
  let s : Search := ⟨data, chain, position, min position (windowSize - most), most⟩
  worthy position (s.run groups start)

/-- Cuts data into tokens from a position on; `fuel` bounds the steps. -/
def cutFrom (data : Array UInt8) (chain : Array Nat) (e : Effort) :
    Nat → Nat → Option Match → Blocks → Blocks
  | 0, _, _, blocks => blocks
  | fuel + 1, position, held, blocks =>
    if data.size ≤ position then blocks
    else
      let here : Token := .literal (data.getD position 0)
      let before : Token := .literal (data.getD (position - 1) 0)
      let reference (m : Match) : Token := .reference m.length m.distance
      match choose e.greedy held (matchAt data chain e position held) with
      | .literal => cutFrom data chain e fuel (position + 1) none (blocks.push here).settle
      | .take m =>
        cutFrom data chain e fuel (position + m.length) none (blocks.push (reference m)).settle
      | .hold m => cutFrom data chain e fuel (position + 1) (some m) blocks.settle
      | .takeHeld m =>
        cutFrom data chain e fuel (position + (m.length - 1)) none
          (blocks.push (reference m)).settle
      | .dropAndTake m =>
        cutFrom data chain e fuel (position + m.length) none
          ((blocks.push before).push (reference m)).settle
      | .dropAndHold m =>
        cutFrom data chain e fuel (position + 1) (some m) (blocks.push before).settle

/-- Data as blocks, by an effort. -/
def tokenize (e : Effort) (data : Array UInt8) : Array Block :=
  (cutFrom data (chains data) e (data.size + 1) 0 none .empty).all

/-! ### The quick way

The lowest level looks only at the latest position with the same hash. -/

/-- Data is looked at in stretches of this length; a reference does not leave its stretch. -/
def stretch : Nat := 4096

def quickHashAt (data : Array UInt8) (i : Nat) : Nat :=
  let bytes : Nat := byteAt data i + 256 * byteAt data (i + 1) + 65536 * byteAt data (i + 2)
  Nat.xor bytes (bytes / 131072) % 4096

/-- The match of a position with the latest one of the same hash. -/
def quickMatch (data : Array UInt8) (position candidate most : Nat) : Option Match :=
  let distance : Nat := position - candidate
  let length := equalBytes data most candidate position
  if distance = 0 ∨ min position (windowSize - stretch) < distance then none
  else if length < leastLength then none
  else if length = leastLength ∧ 8192 ≤ distance then none
  else some ⟨length, distance⟩

/-- Cuts data into tokens from a position on; `heads` holds the latest position of every
    hash, `fuel` bounds the steps. -/
def cutQuicklyFrom (data : Array UInt8) : Nat → Nat → Array Nat → Blocks → Blocks
  | 0, _, _, blocks => blocks
  | fuel + 1, position, heads, blocks =>
    if data.size ≤ position then blocks
    else
      let here : Token := .literal (data.getD position 0)
      let left : Nat := min (stretch - position % stretch) (data.size - position)
      if left < 4 then
        cutQuicklyFrom data fuel (position + 1) heads (blocks.push here).settle
      else
        let h := quickHashAt data position
        let candidate := heads.getD h 0
        let heads := heads.setIfInBounds h position
        match quickMatch data position candidate (min greatestLength left) with
        | some m =>
          cutQuicklyFrom data fuel (position + m.length) heads
            (blocks.push (.reference m.length m.distance)).settle
        | none => cutQuicklyFrom data fuel (position + 1) heads (blocks.push here).settle

/-- Data as blocks, the quick way. -/
def tokenizeQuickly (data : Array UInt8) : Array Block :=
  (cutQuicklyFrom data (data.size + 1) 0 (Array.replicate 4096 0) .empty).all

end Floodgate.Gzip
