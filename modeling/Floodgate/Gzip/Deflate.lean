/-
  Floodgate/Gzip/Deflate.lean
  ===========================
  **Data as a deflate stream.**  The level chooses how hard references are looked for;
  level zero stores the data as it is.  The encoder gathers what it is given and writes
  the stream at the end.
-/
import Floodgate.Gzip.Block
import Floodgate.Gzip.Codec

namespace Floodgate.Gzip

open Http (Bytes)

def storedLimit : Nat := 65535

/-- Data as stored blocks from a position on; the last one may be empty.  `fuel` bounds
    their number. -/
def storedFrom (data : Array UInt8) : Nat → Nat → BitSink → BitSink
  | 0, _, s => s
  | fuel + 1, position, s =>
    let last := decide (data.size ≤ position + storedLimit)
    let s := (s.putFinal last).putStored (data.extract position (position + storedLimit))
    if last then s else storedFrom data fuel (position + storedLimit) s

def blocksOf (level : Nat) (data : Array UInt8) : Array Block :=
  if level = 1 then tokenizeQuickly data else tokenize (effort level) data

def deflate (level : Nat) (data : Array UInt8) : Array UInt8 :=
  let written :=
    if level = 0 then storedFrom data (data.size / storedLimit + 1) 0 .empty
    else BitSink.empty.putBlocks data (blocksOf level data).toList
  written.align.bytes

structure Gathering where
  level : Nat
  /-- What has been taken in, the latest piece first. -/
  pieces : List Bytes

/-- The codec that writes a stream when all data is known. -/
def deflating : Codec where
  Encoder := Gathering
  fresh level := ⟨level, []⟩
  write e data := ([], { e with pieces := data :: e.pieces })
  finish e := (deflate e.level e.pieces.reverse.flatten.toArray).toList

end Floodgate.Gzip
