/-
  Floodgate/Gzip/Checksum.lean
  ============================
  **The checksum of a gzip member.**  A cyclic redundancy check of 32 bits, least
  significant bit first, with the polynomial of the format.  The checksum of data
  that comes in pieces is computed piece by piece (`update_append`).
-/
import Floodgate.Http.Headers

namespace Floodgate.Gzip

open Http (Bytes)

/-- The polynomial of the format, bits reversed. -/
def polynomial : UInt32 := 0xedb88320

def shift (r : UInt32) : UInt32 := if r &&& 1 = 1 then (r >>> 1) ^^^ polynomial else r >>> 1

def absorb (r : UInt32) (b : UInt8) : UInt32 :=
  shift (shift (shift (shift (shift (shift (shift (shift (r ^^^ b.toUInt32))))))))

/-- A checksum under way: the register, before the final complement. -/
structure Checksum where
  register : UInt32
deriving DecidableEq, Repr

namespace Checksum

def start : Checksum := ⟨0xffffffff⟩

def update (c : Checksum) (data : Bytes) : Checksum := ⟨data.foldl absorb c.register⟩

def value (c : Checksum) : UInt32 := c.register ^^^ 0xffffffff

theorem update_append (c : Checksum) (s t : Bytes) : c.update (s ++ t) = (c.update s).update t := by
  simp [update]

end Checksum

def checksum (data : Bytes) : UInt32 := (Checksum.start.update data).value

/-- Four bytes, the least significant first. -/
def littleEndian (n : UInt32) : Bytes :=
  [n.toUInt8, (n >>> 8).toUInt8, (n >>> 16).toUInt8, (n >>> 24).toUInt8]

end Floodgate.Gzip
