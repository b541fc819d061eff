/-
  Floodgate/Proofs/Number/Unrounded.lean
  ======================================
  **Floating-point numbers without rounding.**  Loads come from outside and
  percentages from whoever asks, so either may be infinite or no number at all.  The
  numbers here have such values, with the rules that floating-point numbers have for
  them, and between numbers all arithmetic is exact.  Zero has no sign.

  Whatever starts from numbers stays among them, and is then computed as it is with
  rational numbers: that is what the lemmas say.
-/
import Floodgate.Proofs.Number.Exact

namespace Floodgate

/-- A rational number, an infinity, or not a number. -/
inductive Unrounded where
  | number (q : ℚ)
  | infinite (negative : Bool)
  | nan
deriving DecidableEq

namespace Unrounded

/-! ### Arithmetic -/

protected def add : Unrounded → Unrounded → Unrounded
  | .number a, .number b => .number (a + b)
  | .number _, .infinite s => .infinite s
  | .infinite s, .number _ => .infinite s
  | .infinite s, .infinite t => if s = t then .infinite s else .nan
  | _, _ => .nan

protected def neg : Unrounded → Unrounded
  | .number a => .number (-a)
  | .infinite s => .infinite !s
  | .nan => .nan

protected def mul : Unrounded → Unrounded → Unrounded
  | .number a, .number b => .number (a * b)
  | .number a, .infinite s => if a = 0 then .nan else .infinite (decide (a < 0) != s)
  | .infinite s, .number a => if a = 0 then .nan else .infinite (decide (a < 0) != s)
  | .infinite s, .infinite t => .infinite (s != t)
  | _, _ => .nan

protected def div : Unrounded → Unrounded → Unrounded
  | .number a, .number b =>
    if b = 0 then if a = 0 then .nan else .infinite (decide (a < 0)) else .number (a / b)
  | .number _, .infinite _ => .number 0
  | .infinite s, .number a => .infinite (decide (a < 0) != s)
  | _, _ => .nan

/-! ### Order -/

/-- The one is less than the other; that is never so of what is no number. -/
def below : Unrounded → Unrounded → Bool
  | .number a, .number b => decide (a < b)
  | .number _, .infinite s => !s
  | .infinite s, .number _ => s
  | .infinite s, .infinite t => s && !t
  | _, _ => false

/-- The one is at most the other; that is never so of what is no number. -/
def upTo : Unrounded → Unrounded → Bool
  | .number a, .number b => decide (a ≤ b)
  | .number _, .infinite s => !s
  | .infinite s, .number _ => s
  | .infinite s, .infinite t => s || !t
  | _, _ => false

protected def lesser : Unrounded → Unrounded → Unrounded
  | .nan, y => y
  | x, .nan => x
  | x, y => if x.below y then x else y

protected def clamp (lo hi x : Unrounded) : Unrounded :=
  if x.below lo then lo else if hi.below x then hi else x

protected def orZero : Unrounded → Unrounded
  | .nan => .number 0
  | x => x

/-- What is infinite counts as the greatest word, as it does when it is converted to one. -/
protected def ceiling : Unrounded → Nat
  | .number q => ⌈q⌉₊
  | .infinite false => 18446744073709551615
  | _ => 0

protected def toDuration : Unrounded → Duration
  | .number q => Quantity.durationOfRat q
  | _ => Duration.longest

instance : Quantity Unrounded where
  add := Unrounded.add
  sub x y := Unrounded.add x y.neg
  mul := Unrounded.mul
  div := Unrounded.div
  ofNat n := .number n
  decimal m k := .number (Quantity.decimal m k)
  seconds d := .number (Quantity.seconds d)
  toDuration := Unrounded.toDuration
  lesser := Unrounded.lesser
  atLeast x y := y.upTo x
  exceeds x y := y.below x
  differs x y := decide (x = .nan ∨ x ≠ y)
  clamp := Unrounded.clamp
  orZero := Unrounded.orZero
  ceiling := Unrounded.ceiling

/-! ### Among numbers -/

@[simp] theorem add_number (a b : ℚ) : number a + number b = number (a + b) := rfl

@[simp] theorem sub_number (a b : ℚ) : number a - number b = number (a - b) :=
  congrArg number (sub_eq_add_neg a b).symm

@[simp] theorem mul_number (a b : ℚ) : number a * number b = number (a * b) := rfl

theorem div_number (a : ℚ) {b : ℚ} (hb : b ≠ 0) : number a / number b = number (a / b) :=
  if_neg hb

@[simp] theorem ofNat_number (n : Nat) : (Quantity.ofNat n : Unrounded) = number n := rfl

@[simp] theorem seconds_number (d : Duration) :
    (Quantity.seconds d : Unrounded) = number (Quantity.seconds d) := rfl

@[simp] theorem atLeast_number (a b : ℚ) :
    Quantity.atLeast (number a) (number b) = decide (b ≤ a) := rfl

@[simp] theorem lesser_number (a b : ℚ) :
    Quantity.lesser (number a) (number b) = number (min a b) := by
  show (if decide (a < b) then number a else number b) = number (min a b)
  by_cases h : a < b
  · rw [if_pos (by simpa using h), min_eq_left h.le]
  · rw [if_neg (by simpa using h), min_eq_right (not_lt.mp h)]

@[simp] theorem clamp_number {lo hi : ℚ} (h : lo ≤ hi) (a : ℚ) :
    Quantity.clamp (number lo) (number hi) (number a) = number (max lo (min hi a)) := by
  show (if decide (a < lo) then number lo else if decide (hi < a) then number hi else number a) = _
  by_cases hlo : a < lo
  · rw [if_pos (by simpa using hlo), max_eq_left (le_trans (min_le_right hi a) hlo.le)]
  · by_cases hhi : hi < a
    · rw [if_neg (by simpa using hlo), if_pos (by simpa using hhi), min_eq_left hhi.le,
        max_eq_right h]
    · rw [if_neg (by simpa using hlo), if_neg (by simpa using hhi), min_eq_right (not_lt.mp hhi),
        max_eq_right (not_lt.mp hlo)]

end Unrounded

end Floodgate
