/-
  Floodgate/Gzip/Member.lean
  ==========================
  **Reading gzip members.**  A member is recognised by its first two bytes.  One without
  a name or other additions is read back to its data, which must agree with the checksum
  and the length at its end.
-/
import Floodgate.Gzip.Checksum
import Floodgate.Gzip.Inflate

namespace Floodgate.Gzip

open Http (Bytes)

def isMember : Bytes → Bool
  | 0x1f :: 0x8b :: _ => true
  | _ => false

structure Member where
  data : Bytes
  /-- Number of bytes after it. -/
  extra : Nat

def headerSize : Nat := 10

def trailerSize : Nat := 8

def Member.read? (bytes : Bytes) : Option Member :=
  let all := bytes.toArray
  if bytes.take 4 ≠ [0x1f, 0x8b, 0x08, 0x00] then none
  else
    match inflate? all headerSize with
    | none => none
    | some (data, stop) =>
      let data := data.toList
      let ending := (all.extract stop (stop + trailerSize)).toList
      if ending = littleEndian (checksum data) ++ littleEndian (UInt32.ofNat data.length) then
        some ⟨data, all.size - (stop + trailerSize)⟩
      else none

end Floodgate.Gzip
