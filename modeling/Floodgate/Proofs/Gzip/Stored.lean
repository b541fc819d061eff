/-
  Floodgate/Proofs/Gzip/Stored.lean
  =================================
  **Data that is stored can be read back.**  At level zero a deflate stream is a row of
  stored blocks, each of which begins and ends on a byte: a byte for the mark of the last
  block and the form, two for the length, two for its complement, and the data.  Reading
  such a stream gives the data (`inflate?_stored`), so a codec that only stores decodes to
  what it was given, in whatever pieces (`storing_decodes`).
-/
import Floodgate.Gzip.Deflate
import Floodgate.Gzip.Inflate
import Mathlib.Tactic.Ring

namespace Floodgate.Gzip

open Http (Bytes)

/-! ### Numbers in whole bytes -/

namespace BitSource

variable {bytes : Array UInt8} {a b : UInt8} {p : Nat}

theorem bits?_within {i w : Nat} (ha : bytes[p]? = some a) (hw : i + w ≤ 8) :
    (⟨bytes, 8 * p + i⟩ : BitSource).bits? w =
      some (a.toNat / 2 ^ i % 2 ^ w, ⟨bytes, 8 * p + i + w⟩) := by
  induction w generalizing i with
  | zero => simp [bits?, Nat.mod_one]
  | succ w ih =>
    have hbyte : (8 * p + i) / 8 = p := by omega
    have hbit : (8 * p + i) % 8 = i := by omega
    have hnext := ih (i := i + 1) (by omega)
    simp only [bits?, bit?, hbyte, hbit, ha]
    rw [show 8 * p + i + 1 = 8 * p + (i + 1) by omega, hnext]
    simp only [Option.map_some, Option.some.injEq, Prod.mk.injEq, mk.injEq, true_and]
    refine ⟨?_, by omega⟩
    rw [Nat.pow_succ 2 w, Nat.mul_comm (2 ^ w) 2, Nat.mod_mul, Nat.pow_succ 2 i,
      Nat.div_div_eq_div_mul]
    rfl

theorem bits?_add {s s' s'' : BitSource} {m n v u : Nat} (hm : s.bits? m = some (v, s'))
    (hn : s'.bits? n = some (u, s'')) : s.bits? (m + n) = some (v + 2 ^ m * u, s'') := by
  induction m generalizing s v with
  | zero =>
    simp only [bits?, Option.some.injEq, Prod.mk.injEq] at hm
    obtain ⟨rfl, rfl⟩ := hm
    simpa using hn
  | succ m ih =>
    rw [Nat.succ_add]
    simp only [bits?] at hm ⊢
    cases hbit : s.bit? with
    | none => simp [hbit] at hm
    | some r =>
      obtain ⟨bit, rest⟩ := r
      simp only [hbit, Option.map_eq_some_iff, Prod.exists, Prod.mk.injEq] at hm
      obtain ⟨v', s₁, hrest, rfl, rfl⟩ := hm
      simp only [ih hrest, Option.map_some, Option.some.injEq, Prod.mk.injEq, and_true]
      rw [Nat.pow_succ]
      ring

/-- Two bytes make a number, the less significant first. -/
theorem bits?_sixteen (ha : bytes[p]? = some a) (hb : bytes[p + 1]? = some b) :
    (⟨bytes, 8 * p⟩ : BitSource).bits? 16 =
      some (a.toNat + 256 * b.toNat, ⟨bytes, 8 * (p + 2)⟩) := by
  have hfirst := bits?_within (i := 0) (w := 8) ha (Nat.le_refl 8)
  have hsecond := bits?_within (i := 0) (w := 8) hb (Nat.le_refl 8)
  have hboth := bits?_add hfirst hsecond
  have ha' := a.toNat_lt
  have hb' := b.toNat_lt
  simpa [Nat.mod_eq_of_lt ha', Nat.mod_eq_of_lt hb', Nat.mul_add] using hboth

end BitSource

/-! ### Blocks -/

/-- A number of two bytes, the less significant first. -/
def twoBytes (v : Nat) : Array UInt8 := #[UInt8.ofNat (v % 256), UInt8.ofNat (v / 256)]

/-- A stored block as it stands in a stream, from the start of a byte on. -/
def storedBlock (last : Bool) (bytes : Array UInt8) : Array UInt8 :=
  #[UInt8.ofNat last.toNat] ++ twoBytes bytes.size ++ twoBytes (65535 - bytes.size) ++ bytes

theorem size_storedBlock (last : Bool) (bytes : Array UInt8) :
    (storedBlock last bytes).size = 5 + bytes.size := by
  simp [storedBlock, twoBytes]

namespace BitSink

theorem put_sixteen (before : Array UInt8) {v : Nat} (hv : v ≤ storedLimit) :
    (⟨before, 0, 0⟩ : BitSink).put ⟨v, 16⟩ = ⟨before ++ twoBytes v, 0, 0⟩ := by
  have hhigh : v / 256 < 256 := by unfold storedLimit at hv; omega
  have hbytes : (before.push (UInt8.ofNat (v % 256))).push (UInt8.ofNat (v / 256)) =
      before ++ twoBytes v := rfl
  simp [put, settle, Nat.mod_eq_of_lt hhigh, Nat.div_eq_of_lt hhigh, hbytes]

theorem put_mark (before : Array UInt8) (last : Bool) :
    (((⟨before, 0, 0⟩ : BitSink).putFinal last).put ⟨0, 2⟩).align =
      ⟨before ++ #[UInt8.ofNat last.toNat], 0, 0⟩ := by
  cases last <;> simp [putFinal, put, align, settle]

theorem putStored_aligned (before : Array UInt8) (last : Bool) {bytes : Array UInt8}
    (hsize : bytes.size ≤ storedLimit) :
    ((⟨before, 0, 0⟩ : BitSink).putFinal last).putStored bytes =
      ⟨before ++ storedBlock last bytes, 0, 0⟩ := by
  have hrest : 65535 - bytes.size ≤ storedLimit := Nat.sub_le _ _
  rw [putStored, put_mark, put_sixteen _ hsize, put_sixteen _ hrest]
  simp only [putBytes, storedBlock, Array.append_assoc]

end BitSink

/-- Where two bytes of a number stand, the number is read. -/
theorem BitSource.bits?_twoBytes {all : Array UInt8} {p v : Nat} (hv : v ≤ storedLimit)
    (hlow : all[p]? = some (UInt8.ofNat (v % 256)))
    (hhigh : all[p + 1]? = some (UInt8.ofNat (v / 256))) :
    (⟨all, 8 * p⟩ : BitSource).bits? 16 = some (v, ⟨all, 8 * (p + 2)⟩) := by
  have hfits : v / 256 < 256 := by unfold storedLimit at hv; omega
  rw [bits?_sixteen hlow hhigh]
  simp only [UInt8.toNat_ofNat', Nat.reducePow, Nat.mod_mod, Nat.mod_eq_of_lt hfits,
    Nat.mod_add_div]

/-- The bytes of a stored block are found where it stands. -/
theorem getElem?_storedBlock (before after : Array UInt8) (last : Bool) (bytes : Array UInt8)
    {i : Nat} {b : UInt8} (hb : (storedBlock last bytes)[i]? = some b) :
    (before ++ storedBlock last bytes ++ after)[before.size + i]? = some b := by
  obtain ⟨hi, _⟩ := Array.getElem?_eq_some_iff.mp hb
  rw [Array.getElem?_append_left (by rw [Array.size_append]; omega),
    Array.getElem?_append_right (Nat.le_add_right _ _), Nat.add_sub_cancel_left, hb]

theorem getElem?_storedBlock_head (last : Bool) (bytes : Array UInt8) {i : Nat} (hi : i < 5) :
    (storedBlock last bytes)[i]? =
      (#[UInt8.ofNat last.toNat] ++ twoBytes bytes.size ++ twoBytes (65535 - bytes.size))[i]? :=
  Array.getElem?_append_left hi

theorem extract_storedBlock (before after : Array UInt8) (last : Bool) (bytes : Array UInt8) :
    (before ++ storedBlock last bytes ++ after).extract (before.size + 5)
      (before.size + 5 + bytes.size) = bytes := by
  have hbefore : (before.toList.drop (before.size + 5)) = [] :=
    List.drop_eq_nil_of_le (by simp)
  apply Array.ext'
  have hspan : before.size + 5 + bytes.size - before.size - 5 = bytes.size := by omega
  simp [storedBlock, twoBytes, hbefore, hspan]

theorem block?_stored (before after out : Array UInt8) (last : Bool) {bytes : Array UInt8}
    (hsize : bytes.size ≤ storedLimit) {all : Array UInt8}
    (hall : all = before ++ storedBlock last bytes ++ after) :
    (⟨all, 8 * before.size⟩ : BitSource).bit? = some (last.toNat, ⟨all, 8 * before.size + 1⟩) ∧
      block? out ⟨all, 8 * before.size + 1⟩ =
        some (out ++ bytes, ⟨all, 8 * (before ++ storedBlock last bytes).size⟩) := by
  have hat : ∀ {i b}, i < 5 → (#[UInt8.ofNat last.toNat] ++ twoBytes bytes.size ++
      twoBytes (65535 - bytes.size))[i]? = some b → all[before.size + i]? = some b := by
    intro i b hi hb
    rw [hall]
    refine getElem?_storedBlock before after last bytes ?_
    rw [getElem?_storedBlock_head last bytes hi, hb]
  have hmark : all[before.size]? = some (UInt8.ofNat last.toNat) := hat (i := 0) (by decide) rfl
  have hlast : (UInt8.ofNat last.toNat).toNat = last.toNat := by cases last <;> rfl
  have hlength := BitSource.bits?_twoBytes (p := before.size + 1) hsize
    (hat (i := 1) (by decide) rfl) (hat (i := 2) (by decide) rfl)
  have hcomplement := BitSource.bits?_twoBytes (p := before.size + 3) (v := 65535 - bytes.size)
    (Nat.sub_le _ _) (hat (i := 3) (by decide) rfl) (hat (i := 4) (by decide) rfl)
  have hextent : before.size + 5 + bytes.size ≤ all.size := by
    rw [hall, Array.size_append, Array.size_append, size_storedBlock]
    omega
  have hform := BitSource.bits?_within (i := 1) (w := 2) hmark (by decide)
  have hzero : last.toNat / 2 % 4 = 0 := by cases last <;> rfl
  constructor
  · have hbit : 8 * before.size / 8 = before.size := by omega
    simp only [BitSource.bit?, hbit, hmark, Nat.mul_mod_right, hlast]
    cases last <;> rfl
  · simp only [hlast, Nat.reducePow, hzero] at hform
    have halign : (⟨all, 8 * before.size + 1 + 2⟩ : BitSource).align = ⟨all, 8 * (before.size + 1)⟩ := by
      simp only [BitSource.align, BitSource.mk.injEq, true_and]
      omega
    have hsum : bytes.size + (65535 - bytes.size) = 65535 := Nat.add_sub_cancel' hsize
    have hstart : 8 * (before.size + 3 + 2) / 8 = before.size + 5 := by omega
    have hend : 8 * (before.size + 3 + 2) + 8 * bytes.size =
        8 * (before ++ storedBlock last bytes).size := by
      rw [Array.size_append, size_storedBlock]
      omega
    simp only [block?, hform, stored?, halign, hlength, hcomplement, hsum, hstart, hend]
    rw [if_neg (by omega)]
    rw [hall, extract_storedBlock]

/-! ### Streams -/

/-- The stored blocks of data from a position on. -/
def storedBytes (data : Array UInt8) : Nat → Nat → Array UInt8
  | 0, _ => #[]
  | fuel + 1, position =>
    let last := decide (data.size ≤ position + storedLimit)
    let block := storedBlock last (data.extract position (position + storedLimit))
    if last then block else block ++ storedBytes data fuel (position + storedLimit)

variable (data : Array UInt8)

theorem size_extract_le (position : Nat) :
    (data.extract position (position + storedLimit)).size ≤ storedLimit := by
  rw [Array.size_extract]
  omega

theorem storedFrom_aligned (fuel position : Nat) (before : Array UInt8) :
    storedFrom data fuel position ⟨before, 0, 0⟩ =
      ⟨before ++ storedBytes data fuel position, 0, 0⟩ := by
  induction fuel generalizing position before with
  | zero => simp [storedFrom, storedBytes]
  | succ fuel ih =>
    simp only [storedFrom, storedBytes,
      BitSink.putStored_aligned before _ (size_extract_le data position), ih, Array.append_assoc]
    split <;> rfl

theorem size_storedBytes {fuel position : Nat} (hposition : position ≤ data.size)
    (hfuel : data.size < position + storedLimit * fuel) :
    data.size - position ≤ (storedBytes data fuel position).size := by
  induction fuel generalizing position with
  | zero => omega
  | succ fuel ih =>
    simp only [storedBytes]
    by_cases hlast : data.size ≤ position + storedLimit
    · rw [if_pos (decide_eq_true hlast), size_storedBlock, Array.size_extract]
      omega
    · have hinside : position + storedLimit ≤ data.size := by omega
      have hrest := ih hinside (by rw [Nat.mul_succ] at hfuel; omega)
      rw [if_neg (by simp [hlast]), Array.size_append, size_storedBlock, Array.size_extract]
      omega

/-- Blocks that are stored are read to the data, whatever stands around them. -/
theorem blocks?_stored {fuel position n : Nat} (hposition : position ≤ data.size)
    (hfuel : data.size < position + storedLimit * fuel) (hn : fuel ≤ n)
    (before after out : Array UInt8) {all : Array UInt8}
    (hall : all = before ++ storedBytes data fuel position ++ after) :
    blocks? n out ⟨all, 8 * before.size⟩ =
      some (out ++ data.extract position data.size,
        ⟨all, 8 * (before ++ storedBytes data fuel position).size⟩) := by
  induction fuel generalizing position n before out with
  | zero => omega
  | succ fuel ih =>
    cases n with
    | zero => exact absurd hn (Nat.not_succ_le_zero _)
    | succ n =>
      have hpiece := size_extract_le data position
      simp only [storedBytes] at hall ⊢
      by_cases hlast : data.size ≤ position + storedLimit
      · simp only [decide_eq_true hlast, if_true] at hall ⊢
        obtain ⟨hbit, hblock⟩ := block?_stored before after out true hpiece hall
        have hend : data.extract position (position + storedLimit) =
            data.extract position data.size := by
          have hlength : (data.toList.drop position).length = data.size - position := by simp
          apply Array.ext'
          rw [Array.toList_extract, Array.toList_extract, List.extract_eq_take_drop,
            List.extract_eq_take_drop, List.take_of_length_le (by omega),
            List.take_of_length_le (by omega)]
        simp only [blocks?, hbit, hblock, Bool.toNat_true, if_true, hend]
      · simp only [decide_eq_false hlast, Bool.false_eq_true, if_false] at hall ⊢
        rw [← Array.append_assoc] at hall ⊢
        obtain ⟨hbit, hblock⟩ := block?_stored before _ out false hpiece
          (hall.trans (Array.append_assoc ..))
        have hinside : position + storedLimit ≤ data.size := by omega
        have hrest := ih hinside
          (by rw [Nat.mul_succ] at hfuel; omega) (Nat.le_of_succ_le_succ hn) _
          (out ++ data.extract position (position + storedLimit)) hall
        simp only [blocks?, hbit, hblock, Bool.toNat_false, Nat.zero_ne_one, if_false, hrest]
        rw [Array.append_assoc, Array.extract_append_extract, Nat.min_eq_left (Nat.le_add_right _ _),
          Nat.max_eq_right (by omega)]

theorem deflate_zero : deflate 0 data = storedBytes data (data.size / storedLimit + 1) 0 := by
  have hwritten := storedFrom_aligned data (data.size / storedLimit + 1) 0 #[]
  simp only [deflate, if_true, BitSink.empty, hwritten, BitSink.align, Array.empty_append]

/-- **Data that is stored can be read back.** -/
theorem inflate?_stored (after : Array UInt8) :
    inflate? (deflate 0 data ++ after) 0 = some (data, (deflate 0 data).size) := by
  have hfuel : data.size < 0 + storedLimit * (data.size / storedLimit + 1) := by
    unfold storedLimit
    omega
  have hsize := size_storedBytes data (Nat.zero_le _) hfuel
  have hblocks : data.size / storedLimit + 1 ≤ 8 * (deflate 0 data ++ after).size + 1 := by
    rw [← deflate_zero] at hsize
    rw [Array.size_append]
    have hfew := Nat.div_le_self data.size storedLimit
    omega
  have hall : deflate 0 data ++ after =
      #[] ++ storedBytes data (data.size / storedLimit + 1) 0 ++ after := by
    rw [deflate_zero, Array.empty_append]
  have hread := blocks?_stored data (Nat.zero_le _) hfuel hblocks #[] after #[] hall
  simp only [Array.size_empty, Nat.mul_zero] at hread
  simp only [inflate?, Nat.mul_zero, hread]
  have hposition : (8 * (deflate 0 data).size + 7) / 8 = (deflate 0 data).size := by omega
  simp [BitSource.align, ← deflate_zero, hposition]

/-- The codec that stores data at every level. -/
def storing : Codec := { deflating with fresh := fun _ => ⟨0, []⟩ }

theorem writes_storing (before pieces : List Bytes) :
    storing.writes (⟨0, before⟩ : Gathering) pieces =
      ([], (⟨0, pieces.reverse ++ before⟩ : Gathering)) := by
  induction pieces generalizing before with
  | nil => rfl
  | cons piece pieces ih =>
    have hpiece : storing.write (⟨0, before⟩ : Gathering) piece =
        ([], (⟨0, piece :: before⟩ : Gathering)) := rfl
    simp only [Codec.writes, hpiece, ih (piece :: before), List.reverse_cons, List.append_assoc,
      List.singleton_append, List.nil_append]
    rfl

/-- The data of bytes that begin with a deflate stream. -/
def inflated? (bytes : Bytes) : Option Bytes :=
  (inflate? bytes.toArray 0).map fun r => r.1.toList

theorem storing_decodes (level : Nat) (pieces : List Bytes) :
    inflated? (storing.encode level pieces) = some pieces.flatten := by
  have hwrites := writes_storing [] pieces
  have hencode : storing.encode level pieces = (deflate 0 pieces.flatten.toArray).toList := by
    show (storing.writes (⟨0, []⟩ : Gathering) pieces).1 ++
      storing.finish (storing.writes (⟨0, []⟩ : Gathering) pieces).2 = _
    rw [hwrites, List.append_nil]
    show (deflate 0 pieces.reverse.reverse.flatten.toArray).toList = _
    rw [List.reverse_reverse]
  have hread := inflate?_stored pieces.flatten.toArray #[]
  rw [Array.append_empty] at hread
  rw [inflated?, hencode, Array.toArray_toList, hread]
  rfl

end Floodgate.Gzip
