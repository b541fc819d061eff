/-
  Floodgate/Gzip/Block.lean
  =========================
  **Blocks of a deflate stream.**  A block is written in one of three forms: with the
  fixed codes, with codes of its own that it describes first, or as the bytes it stands
  for.  Short blocks take the fixed codes, longer ones their own; the bytes themselves
  are written where that is no longer.
-/
import Floodgate.Gzip.Alphabet
import Floodgate.Gzip.Huffman
import Floodgate.Gzip.Tokenize

namespace Floodgate.Gzip

/-! ### Tokens in a code -/

/-- The codes of a block: words of bytes, the end of a block and lengths, and words of
    distances. -/
structure Codes where
  literals : Array Bits
  distances : Array Bits

namespace Codes

def ofLengths (literals distances : List Nat) : Codes := ⟨codeWords literals, codeWords distances⟩

def fixed : Codes := ofLengths fixedLiteralLengths fixedDistanceLengths

end Codes

namespace BitSink

def putSymbol (s : BitSink) (words : Array Bits) (symbol : Nat) : BitSink :=
  s.put (words.getD symbol ⟨0, 0⟩)

/-- Writes a value of a range: its symbol and the extra bits. -/
def putCoded (s : BitSink) (words : Array Bits) (c : Coded) : BitSink :=
  (s.putSymbol words c.symbol).put ⟨c.extra, c.extraBits⟩

def putToken (codes : Codes) (s : BitSink) : Token → BitSink
  | .literal b => s.putSymbol codes.literals b.toNat
  | .reference length distance =>
    (s.putCoded codes.literals (lengthCode length)).putCoded codes.distances (distanceCode distance)

def putTokens (s : BitSink) (codes : Codes) (tokens : Array Token) : BitSink :=
  (tokens.foldl (putToken codes) s).putSymbol codes.literals endOfBlock

end BitSink

/-! ### Codes of its own -/

/-- Number of symbols of bytes, the end of a block and lengths. -/
def literalSymbols : Nat := 286

def distanceSymbols : Nat := 30

/-- How often each of the first `n` symbols occurs. -/
def tally (n : Nat) (symbols : Array Nat) : List Nat :=
  (symbols.foldl (fun (counts : Array Nat) i => counts.setIfInBounds i (counts.getD i 0 + 1))
    (Array.replicate n 0)).toList

structure CodeLengths where
  literals : List Nat
  distances : List Nat

/-- A list without zeros at its end, but with at least `least` items. -/
def trimmed (least : Nat) (lengths : List Nat) : List Nat :=
  lengths.take least ++ ((lengths.drop least).reverse.dropWhile (· == 0)).reverse

/-- The lengths that suit the tokens of a block, which ends once. -/
def CodeLengths.ofTokens (tokens : Array Token) : CodeLengths :=
  let literals := tokens.map fun
    | .literal b => b.toNat
    | .reference length _ => (lengthCode length).symbol
  let distances := tokens.filterMap fun
    | .literal _ => none
    | .reference _ distance => some (distanceCode distance).symbol
  ⟨trimmed 257 (codeLengths longestWord (tally literalSymbols (literals.push endOfBlock))),
    trimmed 1 (codeLengths longestWord (tally distanceSymbols distances))⟩

/-- Equal neighbours, each with their number. -/
def runs : List Nat → List (Nat × Nat)
  | [] => []
  | v :: rest =>
    match runs rest with
    | [] => [(v, 1)]
    | (w, n) :: others => if v = w then (w, n + 1) :: others else (v, 1) :: (w, n) :: others

def single (length : Nat) : Coded := ⟨length, 0, 0⟩

def packFewZeros (n : Nat) : List Coded :=
  if n < 3 then List.replicate n (single 0)
  else if n ≤ 10 then [⟨17, 3, n - 3⟩]
  else [⟨18, 7, n - 11⟩]

/-- What is left of repetitions of the length before. -/
def packFewRepeats (length n : Nat) : List Coded :=
  if n < 3 then List.replicate n (single length) else [⟨16, 2, n - 3⟩]

/-- A run of a length: zeros in packs of up to 138, another length once and its
    repetitions in packs of up to six. -/
def packRun : Nat × Nat → List Coded
  | (0, n) => List.replicate (n / 138) ⟨18, 7, 127⟩ ++ packFewZeros (n % 138)
  | (length, n) =>
    single length ::
      (List.replicate ((n - 1) / 6) ⟨16, 2, 3⟩ ++ packFewRepeats length ((n - 1) % 6))

def pack (lengths : List Nat) : List Coded := (runs lengths).flatMap packRun

def longestLengthWord : Nat := 7

def BitSink.putLengths (s : BitSink) (l : CodeLengths) : BitSink :=
  let packed := pack (l.literals ++ l.distances)
  let lengths := codeLengths longestLengthWord (tally 19 (packed.map Coded.symbol).toArray)
  let ordered := trimmed 4 (lengthOrder.map fun i => lengths.getD i 0)
  let words := codeWords lengths
  let s := ((s.put ⟨l.literals.length - 257, 5⟩).put ⟨l.distances.length - 1, 5⟩).put
    ⟨ordered.length - 4, 4⟩
  let s := ordered.foldl (fun s length => s.put ⟨length, 3⟩) s
  packed.foldl (fun s c => s.putCoded words c) s

/-! ### Writing blocks -/

namespace BitSink

def putFixed (s : BitSink) (tokens : Array Token) : BitSink :=
  (s.put ⟨1, 2⟩).putTokens .fixed tokens

def putOwn (s : BitSink) (tokens : Array Token) : BitSink :=
  let l := CodeLengths.ofTokens tokens
  ((s.put ⟨2, 2⟩).putLengths l).putTokens (.ofLengths l.literals l.distances) tokens

/-- Writes a block as bytes, fewer than 65536. -/
def putStored (s : BitSink) (bytes : Array UInt8) : BitSink :=
  let s := (s.put ⟨0, 2⟩).align
  ((s.put ⟨bytes.size, 16⟩).put ⟨65535 - bytes.size, 16⟩).putBytes bytes

/-- Writes whether a block is the last one. -/
def putFinal (s : BitSink) (final : Bool) : BitSink := s.put ⟨final.toNat, 1⟩

def ownCodesFrom : Nat := 48

def storedBeyond : Nat := 32

def putBlock (s : BitSink) (data : Array UInt8) (final : Bool) (b : Block) : BitSink :=
  let s := s.putFinal final
  let before := s.bytes.size
  let encoded := if b.size < ownCodesFrom then s.putFixed b.tokens else s.putOwn b.tokens
  if storedBeyond < b.size ∧ b.size ≤ encoded.bytes.size - before + 1 ∧ b.size ≤ windowSize then
    s.putStored (data.extract b.start (b.start + b.size))
  else encoded

/-- Writes blocks of some data, the last one as the last of the stream. -/
def putBlocks (s : BitSink) (data : Array UInt8) : List Block → BitSink
  | [] => s
  | [b] => s.putBlock data true b
  | b :: rest => (s.putBlock data false b).putBlocks data rest

end BitSink

end Floodgate.Gzip
