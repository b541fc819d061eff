/-
  Floodgate/Gzip/Stream.lean
  ==========================
  **Gzip members as streams.**  A member is a header of ten bytes, a deflate stream,
  the checksum of the data and its length modulo 2^32.  A stream writes a member piece
  by piece.
-/
import Floodgate.Gzip.Checksum
import Floodgate.Gzip.Codec

namespace Floodgate.Gzip

open Http (Bytes)

/-- The header of a member: the format's mark, deflate, no flags, no time, no system. -/
def header : Bytes := [0x1f, 0x8b, 0x08, 0x00, 0, 0, 0, 0, 0x00, 0xff]

structure Stream (ε : Type) where
  encoder : ε
  checksum : Checksum
  length : Nat

namespace Stream

variable (c : Codec)

/-- A member before its data. -/
def start (level : Nat) : Stream c.Encoder := ⟨c.fresh level, .start, 0⟩

/-- Takes in data; gives what is settled of the member. -/
def write (s : Stream c.Encoder) (data : Bytes) : Bytes × Stream c.Encoder :=
  let written := if data.isEmpty then ([], s.encoder) else c.write s.encoder data
  (written.1, ⟨written.2, s.checksum.update data, s.length + data.length⟩)

/-- The end of a member: checksum and length of its data. -/
def trailer {ε : Type} (s : Stream ε) : Bytes :=
  littleEndian s.checksum.value ++ littleEndian (UInt32.ofNat s.length)

def finish (s : Stream c.Encoder) : Bytes := c.finish s.encoder ++ s.trailer

end Stream

end Floodgate.Gzip
