/-
  Floodgate/Gzip/Bits.lean
  ========================
  **Bits in bytes.**  A deflate stream is a row of bits, packed into bytes from the
  least significant bit on.  Numbers are written with their least significant bit
  first, code words with their first bit first, so a code word is kept reversed.
-/
import Floodgate.Http.Headers

namespace Floodgate.Gzip

open Http (Bytes)

/-- Some bits: the lowest `width` bits of a number, lowest first. -/
structure Bits where
  value : Nat
  width : Nat
deriving DecidableEq, Repr, Inhabited

/-! ### Writing -/

/-- Bytes that are written and the bits that do not make a byte yet. -/
structure BitSink where
  bytes : Array UInt8
  /-- The value of the loose bits, and their number. -/
  loose : Nat
  count : Nat

namespace BitSink

def empty : BitSink := ⟨#[], 0, 0⟩

/-- Moves whole bytes of the bits over to the bytes; `n` is their number. -/
def settle : Nat → BitSink → BitSink
  | 0, s => s
  | n + 1, s => settle n ⟨s.bytes.push (UInt8.ofNat (s.loose % 256)), s.loose / 256, s.count - 8⟩

def put (s : BitSink) (b : Bits) : BitSink :=
  let count : Nat := s.count + b.width
  settle (count / 8) ⟨s.bytes, s.loose + b.value * Nat.pow 2 s.count, count⟩

/-- Fills the last byte with zeros. -/
def align (s : BitSink) : BitSink := if s.count = 0 then s else s.put ⟨0, 8 - s.count⟩

/-- Writes whole bytes; the sink must be aligned. -/
def putBytes (s : BitSink) (bytes : Array UInt8) : BitSink := { s with bytes := s.bytes ++ bytes }

end BitSink

/-! ### Reading -/

structure BitSource where
  bytes : Array UInt8
  position : Nat

namespace BitSource

def bit? (s : BitSource) : Option (Nat × BitSource) :=
  match s.bytes[s.position / 8]? with
  | some b => some (b.toNat / Nat.pow 2 (s.position % 8) % 2, { s with position := s.position + 1 })
  | none => none

/-- The number of the next bits, lowest first. -/
def bits? : Nat → BitSource → Option (Nat × BitSource)
  | 0, s => some (0, s)
  | n + 1, s =>
    match s.bit? with
    | none => none
    | some (b, s) => (bits? n s).map fun (rest, s) => (b + 2 * rest, s)

/-- The source after the rest of the current byte. -/
def align (s : BitSource) : BitSource := { s with position := (s.position + 7) / 8 * 8 }

end BitSource

end Floodgate.Gzip
