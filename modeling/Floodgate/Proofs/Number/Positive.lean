/-
  Floodgate/Proofs/Number/Positive.lean
  =====================================
  **Floating-point numbers that do not differ.**  Two floating-point numbers may compare as
  equal and be different, as the two zeros are, and one that is no number does not even
  equal itself.  Neither happens among numbers without a minus sign (`Unsigned.bne_iff`),
  and products of positive finite numbers are such numbers, though rounding may have made
  a zero or an infinity of them (`unsigned_mul`).
-/
import Mathlib
import Floodgate.Settings.Check

namespace Floodgate

open Float.Model.Format (binary64)
open Float.Model.UnpackedFloat

/-- A floating-point number, possibly infinite, that is not the negative zero. -/
structure Unsigned (x : Float) : Prop where
  number : x ≠ Float.nan
  unsigned : x ≠ -0

variable {x y : Float}

/-- **Numbers differ if they are not the same.** -/
theorem Unsigned.bne_iff (hx : Unsigned x) (hy : Unsigned y) : (x != y) = true ↔ x ≠ y := by
  rw [bne, Bool.not_eq_true', ← Bool.not_eq_true, Float.beq_iff_ne_nan_and_eq, not_iff_not]
  constructor
  · rintro ⟨-, -, hsame | ⟨-, hzero⟩ | ⟨hzero, -⟩⟩
    · exact hsame
    · exact absurd hzero hy.unsigned
    · exact absurd hzero hx.unsigned
  · intro hsame
    exact ⟨hx.number, hy.number, Or.inl hsame⟩

/-! ### Positive numbers -/

theorem unsigned_of_usableRate (h : usableRate x = true) : Unsigned x := by
  constructor
  · rintro rfl
    exact absurd h (by decide +kernel)
  · rintro rfl
    exact absurd h (by decide +kernel)

/-- A number that can be a rate is positive and finite. -/
theorem unpack_of_usableRate (h : usableRate x = true) :
    ∃ m e hpos, x.toModel.unpack = .finite .positive m e hpos := by
  obtain ⟨hfinite, hpositive⟩ := Bool.and_eq_true_iff.mp h
  have hless : (0.0 : Float) < x := of_decide_eq_true hpositive
  have hlt : (zero .positive).lt x.toModel.unpack = true := of_decide_eq_true hless
  have hreal : x.toModel.unpack.isFinite = true := hfinite
  cases hx : x.toModel.unpack with
  | notANumber => simp [hx, isFinite] at hreal
  | infinity s => simp [hx, isFinite] at hreal
  | zero s => simp [hx, Float.Model.UnpackedFloat.lt, Float.Model.UnpackedFloat.compare] at hlt
  | finite s m e hpos =>
    cases s with
    | negative => simp [hx, Float.Model.UnpackedFloat.lt, Float.Model.UnpackedFloat.compare] at hlt
    | positive => exact ⟨m, e, hpos, rfl⟩

/-- A positive finite number, neither a zero nor an infinity nor without a value. -/
def PositiveFinite (x : Float) : Prop :=
  ∃ m e hpos, x.toModel.unpack = .finite .positive m e hpos

/-- **The numbers that can be rates are the positive finite ones.** -/
theorem usableRate_iff : usableRate x = true ↔ PositiveFinite x := by
  constructor
  · exact unpack_of_usableRate
  · rintro ⟨m, e, hpos, hx⟩
    apply Bool.and_eq_true_iff.mpr
    constructor
    · change x.toModel.unpack.isFinite = true
      rw [hx]
      rfl
    · have hlt : (zero .positive).lt x.toModel.unpack = true := by
        rw [hx]
        rfl
      have hless : (0.0 : Float) < x := decide_eq_true hlt
      exact decide_eq_true hless

/-- A positive number is packed neither as no number nor as the negative zero, however large or
    small it is. -/
theorem pack_finite_ne (m : Nat) (e : Int) (h : 0 < m) :
    pack binary64 (.finite .positive m e h) ≠ packedNaN binary64 ∧
      pack binary64 (.finite .positive m e h) ≠ packedZero binary64 .negative := by
  constructor
  · intro hpack
    unfold pack at hpack
    dsimp only at hpack
    split_ifs at hpack with hlarge hnormal
    · have hmantissa := congrArg unpackMantissa hpack
      rw [packedInfinity, packedNaN, unpackMantissa_packComponents,
        unpackMantissa_packComponents] at hmantissa
      exact absurd hmantissa (by decide)
    · -- the exponent is less than that of what is no number
      have hexponent := congrArg (fun b => (unpackExponent b).toNat) hpack
      simp only [packedNaN, unpackExponent_packComponents, BitVec.toNat_ofNat] at hexponent
      have hones : (-1#_ : BitVec binary64.exponentBits).toNat = 2 ^ 11 - 1 := rfl
      rw [hones] at hexponent
      omega
    · have hexponent := congrArg unpackExponent hpack
      rw [packedNaN, unpackExponent_packComponents, unpackExponent_packComponents] at hexponent
      exact absurd hexponent (by decide)
  · intro hpack
    have hsign := congrArg unpackSign hpack
    unfold pack at hsign
    dsimp only at hsign
    split_ifs at hsign
    all_goals
      simp only [packedInfinity, packedZero, unpackSign_packComponents] at hsign
      exact absurd hsign (by decide)

/-- **Products of positive finite numbers are unsigned.** -/
theorem unsigned_mul (hx : usableRate x = true) (hy : usableRate y = true) : Unsigned (x * y) := by
  obtain ⟨m, e, hpos, hx⟩ := unpack_of_usableRate hx
  obtain ⟨m', e', hpos', hy⟩ := unpack_of_usableRate hy
  have hbits : (x * y).toBits.toBitVec =
      pack binary64 (roundWithAccuracy binary64 .positive (m * m') (e + e') .exact) := by
    show pack binary64 (mul binary64 x.toModel.unpack y.toModel.unpack) = _
    rw [hx, hy]
    rfl
  have hround : (x * y).toBits.toBitVec ≠ packedNaN binary64 ∧
      (x * y).toBits.toBitVec ≠ packedZero binary64 .negative := by
    rw [hbits]
    unfold roundWithAccuracy
    dsimp only
    split_ifs
    · decide
    · exact pack_finite_ne _ _ _
  constructor
  · intro hnan
    apply hround.1
    rw [hnan]
    decide +kernel
  · intro hzero
    apply hround.2
    rw [hzero]
    decide +kernel

end Floodgate
