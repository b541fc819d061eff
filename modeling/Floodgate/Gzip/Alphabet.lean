/-
  Floodgate/Gzip/Alphabet.lean
  ============================
  **The alphabets of deflate.**  Bytes, the end of a block and lengths share one
  alphabet of symbols, distances have another.  A symbol for a length or a distance
  stands for a range, from its base on, in which the extra bits after it choose.
-/

namespace Floodgate.Gzip

def endOfBlock : Nat := 256

/-- Bases and extra bits of the symbols for lengths, from symbol 257 on. -/
def lengthRanges : List (Nat × Nat) :=
  [(3, 0), (4, 0), (5, 0), (6, 0), (7, 0), (8, 0), (9, 0), (10, 0), (11, 1), (13, 1), (15, 1),
   (17, 1), (19, 2), (23, 2), (27, 2), (31, 2), (35, 3), (43, 3), (51, 3), (59, 3), (67, 4),
   (83, 4), (99, 4), (115, 4), (131, 5), (163, 5), (195, 5), (227, 5), (258, 0)]

def distanceRanges : List (Nat × Nat) :=
  [(1, 0), (2, 0), (3, 0), (4, 0), (5, 1), (7, 1), (9, 2), (13, 2), (17, 3), (25, 3), (33, 4),
   (49, 4), (65, 5), (97, 5), (129, 6), (193, 6), (257, 7), (385, 7), (513, 8), (769, 8),
   (1025, 9), (1537, 9), (2049, 10), (3073, 10), (4097, 11), (6145, 11), (8193, 12),
   (12289, 12), (16385, 13), (24577, 13)]

/-- A value as a symbol: its number among the ranges, the extra bits and their value. -/
structure Coded where
  symbol : Nat
  extraBits : Nat
  extra : Nat
deriving DecidableEq, Repr

/-- The last range whose base does not exceed a value; `i` is the number of the first one. -/
def codedFrom (value : Nat) (best : Coded) (i : Nat) : List (Nat × Nat) → Coded
  | [] => best
  | (base, bits) :: rest =>
    if base ≤ value then codedFrom value ⟨i, bits, value - base⟩ (i + 1) rest else best

def coded (ranges : List (Nat × Nat)) (value : Nat) : Coded := codedFrom value ⟨0, 0, 0⟩ 0 ranges

def lengthCode (length : Nat) : Coded :=
  let c := coded lengthRanges length
  { c with symbol := c.symbol + 257 }

def distanceCode (distance : Nat) : Coded := coded distanceRanges distance

/-- The order in which the lengths of the codes for code lengths are given. -/
def lengthOrder : List Nat := [16, 17, 18, 0, 8, 7, 9, 6, 10, 5, 11, 4, 12, 3, 13, 2, 14, 1, 15]

/-- The fixed code lengths of bytes, the end of a block and lengths. -/
def fixedLiteralLengths : List Nat :=
  List.replicate 144 8 ++ List.replicate 112 9 ++ List.replicate 24 7 ++ List.replicate 8 8

def fixedDistanceLengths : List Nat := List.replicate 32 5

end Floodgate.Gzip
