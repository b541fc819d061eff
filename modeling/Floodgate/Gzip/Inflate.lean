/-
  Floodgate/Gzip/Inflate.lean
  ===========================
  **Reading deflate streams.**  A stream is read block by block into the data it stands
  for.  What is not a stream is answered with none: unknown symbols, references to
  before the beginning, lengths that do not fit, and streams that end too early.
-/
import Floodgate.Gzip.Alphabet
import Floodgate.Gzip.Huffman
import Floodgate.Gzip.Token

namespace Floodgate.Gzip

structure Decoders where
  literals : Decoder
  distances : Decoder

namespace Decoders

def ofLengths (literals distances : List Nat) : Decoders :=
  ⟨.ofLengths literals, .ofLengths distances⟩

def fixed : Decoders := ofLengths fixedLiteralLengths fixedDistanceLengths

end Decoders

/-- Reads a value of a range: `i` is the number of the range. -/
def ranged? (ranges : List (Nat × Nat)) (i : Nat) (s : BitSource) : Option (Nat × BitSource) :=
  match ranges[i]? with
  | none => none
  | some (base, bits) => (s.bits? bits).map fun (extra, s) => (base + extra, s)

/-- A token, or the end of the block. -/
def token? (d : Decoders) (s : BitSource) : Option (Option Token × BitSource) :=
  match d.literals.symbol? s with
  | none => none
  | some (symbol, s) =>
    if symbol < endOfBlock then some (some (.literal (UInt8.ofNat symbol)), s)
    else if symbol = endOfBlock then some (none, s)
    else
      match ranged? lengthRanges (symbol - 257) s with
      | none => none
      | some (length, s) =>
        match d.distances.symbol? s with
        | none => none
        | some (i, s) =>
          (ranged? distanceRanges i s).map fun (distance, s) =>
            (some (.reference length distance), s)

/-- Reads tokens to the end of the block onto the data so far; `fuel` bounds their
    number. -/
def tokens? (d : Decoders) : Nat → Array UInt8 → BitSource → Option (Array UInt8 × BitSource)
  | 0, _, _ => none
  | fuel + 1, out, s =>
    match token? d s with
    | none => none
    | some (none, s) => some (out, s)
    | some (some t, s) =>
      match t.expand? out with
      | none => none
      | some out => tokens? d fuel out s

/-! ### Codes of its own -/

/-- Reads `n` numbers of `width` bits. -/
def numbers? (width : Nat) : Nat → BitSource → Option (List Nat × BitSource)
  | 0, s => some ([], s)
  | n + 1, s =>
    match s.bits? width with
    | none => none
    | some (v, s) => (numbers? width n s).map fun (vs, s) => (v :: vs, s)

/-- The code lengths that a symbol adds to those before. -/
def unpack? (before : Array Nat) (symbol : Nat) (s : BitSource) : Option (List Nat × BitSource) :=
  if symbol ≤ longestWord then some ([symbol], s)
  else if symbol = 16 then
    match before.back? with
    | none => none
    | some length => (s.bits? 2).map fun (n, s) => (List.replicate (n + 3) length, s)
  else if symbol = 17 then (s.bits? 3).map fun (n, s) => (List.replicate (n + 3) 0, s)
  else (s.bits? 7).map fun (n, s) => (List.replicate (n + 11) 0, s)

/-- Reads code lengths until there are `total`; `fuel` bounds the symbols. -/
def lengths? (d : Decoder) (total : Nat) :
    Nat → Array Nat → BitSource → Option (Array Nat × BitSource)
  | 0, _, _ => none
  | fuel + 1, done, s =>
    if done.size = total then some (done, s)
    else if total < done.size then none
    else
      match d.symbol? s with
      | none => none
      | some (symbol, s) =>
        match unpack? done symbol s with
        | none => none
        | some (more, s) => lengths? d total fuel (done ++ more.toArray) s

/-- The lengths of all symbols, from those given in order. -/
def unordered (given : List Nat) : List Nat :=
  ((lengthOrder.zip given).foldl
    (fun (lengths : Array Nat) (symbol, length) => lengths.setIfInBounds symbol length)
    (Array.replicate 19 0)).toList

def ownCodes? (s : BitSource) : Option (Decoders × BitSource) :=
  match s.bits? 5 with
  | none => none
  | some (literals, s) =>
    match s.bits? 5 with
    | none => none
    | some (distances, s) =>
      match s.bits? 4 with
      | none => none
      | some (given, s) =>
        match numbers? 3 (given + 4) s with
        | none => none
        | some (ordered, s) =>
          let total : Nat := literals + 257 + (distances + 1)
          (lengths? (.ofLengths (unordered ordered)) total (total + 1) #[] s).map fun (all, s) =>
            (.ofLengths (all.toList.take (literals + 257)) (all.toList.drop (literals + 257)), s)

/-! ### Blocks -/

def stored? (out : Array UInt8) (s : BitSource) : Option (Array UInt8 × BitSource) :=
  match s.align.bits? 16 with
  | none => none
  | some (length, s) =>
    match s.bits? 16 with
    | none => none
    | some (complement, s) =>
      let start : Nat := s.position / 8
      if length + complement ≠ 65535 ∨ s.bytes.size < start + length then none
      else
        some (out ++ s.bytes.extract start (start + length),
          { s with position := s.position + 8 * length })

/-- Reads a block after its mark for the last one. -/
def block? (out : Array UInt8) (s : BitSource) : Option (Array UInt8 × BitSource) :=
  let fuel : Nat := 8 * s.bytes.size + 1
  match s.bits? 2 with
  | some (0, s) => stored? out s
  | some (1, s) => tokens? .fixed fuel out s
  | some (2, s) =>
    match ownCodes? s with
    | none => none
    | some (d, s) => tokens? d fuel out s
  | _ => none

/-- Reads blocks up to the last one; `fuel` bounds their number. -/
def blocks? : Nat → Array UInt8 → BitSource → Option (Array UInt8 × BitSource)
  | 0, _, _ => none
  | fuel + 1, out, s =>
    match s.bit? with
    | none => none
    | some (final, s) =>
      match block? out s with
      | none => none
      | some (out, s) => if final = 1 then some (out, s) else blocks? fuel out s

/-- The data of a deflate stream from a byte on, and where the bytes after it begin. -/
def inflate? (bytes : Array UInt8) (start : Nat) : Option (Array UInt8 × Nat) :=
  (blocks? (8 * bytes.size + 1) #[] ⟨bytes, 8 * start⟩).map fun (out, s) =>
    (out, s.align.position / 8)

end Floodgate.Gzip
