/-
  Floodgate/Proofs/Number/Exact.lean
  ==================================
  **Exact numbers.**  The rational numbers offer all that rates and tokens need, with
  the conventions of the floating-point numbers wherever these are about numbers at
  all.  What is proved with them is what admission control would do without rounding.
-/
import Floodgate.Number.Quantity
import Mathlib.Data.Rat.Floor
import Mathlib.Tactic.Linarith

namespace Floodgate

namespace Quantity

/-- Seconds as the nearest duration, a tie going to the even nanosecond. -/
def durationOfRat (x : ℚ) : Duration :=
  if x < 0 then Duration.longest
  else min (roundHalfEven (x.num.toNat * Duration.second) x.den) Duration.longest

instance exact : Quantity ℚ where
  ofNat n := n
  decimal m k := m / 10 ^ k
  seconds d := d / Duration.second
  toDuration := durationOfRat
  lesser := min
  atLeast x y := decide (y ≤ x)
  exceeds x y := decide (y < x)
  differs x y := decide (x ≠ y)
  clamp lo hi x := max lo (min hi x)
  orZero x := x
  ceiling x := ⌈x⌉₊

@[simp] theorem ofNat_exact (n : Nat) : (Quantity.ofNat n : ℚ) = n := rfl

@[simp] theorem lesser_exact (x y : ℚ) : Quantity.lesser x y = min x y := rfl

@[simp] theorem atLeast_exact (x y : ℚ) : Quantity.atLeast x y = decide (y ≤ x) := rfl

theorem seconds_add (d e : Duration) :
    (Quantity.seconds (d + e) : ℚ) = Quantity.seconds d + Quantity.seconds e := by
  show ((d + e : ℕ) : ℚ) / _ = _
  rw [Nat.cast_add, add_div]
  rfl

@[simp] theorem seconds_zero : (Quantity.seconds 0 : ℚ) = 0 := by
  show ((0 : ℕ) : ℚ) / _ = 0
  rw [Nat.cast_zero, zero_div]

theorem seconds_nonneg (d : Duration) : (0 : ℚ) ≤ Quantity.seconds d :=
  div_nonneg (Nat.cast_nonneg d) (Nat.cast_nonneg _)

theorem seconds_mono {d e : Duration} (h : d ≤ e) :
    (Quantity.seconds d : ℚ) ≤ Quantity.seconds e :=
  div_le_div_of_nonneg_right (Nat.cast_le.mpr h) (Nat.cast_nonneg _)

theorem seconds_ofSeconds (n : Nat) : (Quantity.seconds (Duration.ofSeconds n) : ℚ) = n := by
  have hsecond : ((Duration.second : ℕ) : ℚ) ≠ 0 := by norm_num [Duration.second]
  calc (Quantity.seconds (Duration.ofSeconds n) : ℚ)
    _ = ((n * Duration.second : ℕ) : ℚ) / (Duration.second : ℕ) := rfl
    _ = n := by rw [Nat.cast_mul, mul_div_cancel_right₀ _ hsecond]

/-! ### Rounding -/

/-- A rounded quotient is at most half a unit away. -/
theorem roundHalfEven_near (num : Nat) {den : Nat} (hden : 0 < den) :
    2 * num ≤ (2 * roundHalfEven num den + 1) * den ∧
      2 * (roundHalfEven num den * den) ≤ 2 * num + den := by
  have hparts : den * (num / den) + num % den = num := Nat.div_add_mod num den
  have hrest : num % den < den := Nat.mod_lt num hden
  have hodd : num / den % 2 ≤ 1 := Nat.le_of_lt_succ (Nat.mod_lt _ Nat.two_pos)
  unfold roundHalfEven
  generalize num / den = whole at *
  generalize num % den = rest at *
  simp only
  split_ifs with hdown hup
  · constructor <;> nlinarith
  · constructor <;> nlinarith
  · -- a tie, so both neighbours are half a unit away
    have htie : 2 * rest = den := by omega
    obtain heven | hone : whole % 2 = 0 ∨ whole % 2 = 1 := by omega
    · rw [heven]
      constructor <;> nlinarith
    · rw [hone]
      constructor <;> nlinarith

/-- A number of seconds that is short enough to be a duration is rounded by half a nanosecond
    at most. -/
theorem abs_sub_durationOfRat_le {x : ℚ} (hx : 0 ≤ x) (h : durationOfRat x < Duration.longest) :
    |x - Quantity.seconds (durationOfRat x)| ≤ 1 / (2 * (Duration.second : ℕ)) := by
  have hsecond : (0 : ℚ) < (Duration.second : ℕ) := by norm_num [Duration.second]
  have hden : (0 : ℚ) < x.den := Nat.cast_pos.mpr x.den_pos
  have hround : durationOfRat x = roundHalfEven (x.num.toNat * Duration.second) x.den := by
    unfold durationOfRat at h ⊢
    rw [if_neg (not_lt.mpr hx)] at h ⊢
    exact min_eq_left (le_of_lt (lt_of_not_ge fun hle => by simp [min_eq_right hle] at h))
  obtain ⟨hbelow, habove⟩ := roundHalfEven_near (x.num.toNat * Duration.second) x.den_pos
  rw [← hround] at hbelow habove
  generalize durationOfRat x = d at *
  have hnum : ((x.num.toNat : ℕ) : ℚ) = x * x.den := by
    have hcast : ((x.num.toNat : ℤ) : ℚ) = x.num := by
      rw [Int.toNat_of_nonneg (Rat.num_nonneg.mpr hx)]
    rw [Rat.mul_den_eq_num]
    exact_mod_cast hcast
  have hbelow' : 2 * ((x.num.toNat : ℚ) * (Duration.second : ℕ)) ≤ (2 * d + 1) * x.den := by
    exact_mod_cast hbelow
  have habove' : 2 * ((d : ℚ) * x.den) ≤ 2 * ((x.num.toNat : ℚ) * (Duration.second : ℕ)) + x.den := by
    exact_mod_cast habove
  rw [hnum] at hbelow' habove'
  have hscaled : |x * (Duration.second : ℕ) - d| ≤ 1 / 2 := by
    rw [abs_le]
    constructor <;> nlinarith
  calc |x - Quantity.seconds d|
    _ = |(x * (Duration.second : ℕ) - d) / (Duration.second : ℕ)| := by
      rw [sub_div, mul_div_cancel_right₀ _ hsecond.ne']
      rfl
    _ = |x * (Duration.second : ℕ) - d| / (Duration.second : ℕ) := by
      rw [abs_div, abs_of_pos hsecond]
    _ ≤ 1 / 2 / (Duration.second : ℕ) := div_le_div_of_nonneg_right hscaled hsecond.le
    _ = 1 / (2 * (Duration.second : ℕ)) := by rw [div_div]

/-- A nanosecond makes up for what rounding took away. -/
theorem le_seconds_durationOfRat {x : ℚ} (hx : 0 ≤ x)
    (h : durationOfRat x < Duration.longest) : x ≤ Quantity.seconds (durationOfRat x + 1) := by
  have hnear := (abs_le.mp (abs_sub_durationOfRat_le hx h)).2
  have hunit : (1 : ℚ) / (2 * (Duration.second : ℕ)) ≤ Quantity.seconds 1 := by
    show _ ≤ ((1 : ℕ) : ℚ) / (Duration.second : ℕ)
    norm_num [Duration.second]
  rw [seconds_add]
  linarith

end Quantity

end Floodgate
