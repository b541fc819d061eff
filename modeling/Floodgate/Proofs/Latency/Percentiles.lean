/-
  Floodgate/Proofs/Latency/Percentiles.lean
  =========================================
  **What percentiles are.**  A histogram forgets its samples and keeps how many of them
  fell into each bucket.  All the same its percentiles are order statistics: with `n`
  samples, `p` percent asks for the `k`-th smallest of them, where `k` is `p * n / 100`
  rounded up and at least one, and the answer is the bound of that sample.

  The walk over the buckets stops at the first bound up to which `k` samples have been
  counted.  A bound covers the `k`-th smallest sample if and only if it covers `k` of
  them (`exists_kthSmallest`), so that is the first bound that covers the `k`-th
  smallest, and the walk never runs off the end.
-/
import Floodgate.Proofs.Latency.Placement
import Floodgate.Proofs.Number.Unrounded
import Mathlib.Data.List.Find
import Mathlib.Data.List.Sort

namespace Floodgate

/-! ### Order statistics -/

/-- The `k`-th smallest of some numbers, counted from one. -/
def kthSmallest? (xs : List Nat) (k : Nat) : Option Nat := (xs.insertionSort (· ≤ ·))[k - 1]?

theorem getElem_le_iff_lt_countP {xs : List Nat} (sorted : xs.Pairwise (· ≤ ·)) {i : Nat}
    (hi : i < xs.length) (y : Nat) : xs[i] ≤ y ↔ i < xs.countP fun x => decide (x ≤ y) := by
  induction xs generalizing i with
  | nil => cases hi
  | cons s rest ih =>
    obtain ⟨hfirst, hrest⟩ := List.pairwise_cons.mp sorted
    by_cases hs : s ≤ y
    · rw [List.countP_cons_of_pos (by simpa using hs)]
      cases i with
      | zero => simp [hs]
      | succ i =>
        rw [List.getElem_cons_succ, ih hrest (Nat.lt_of_succ_lt_succ hi)]
        exact Nat.succ_lt_succ_iff.symm
    · -- all that follows is greater still
      have hnone : (s :: rest).countP (fun x => decide (x ≤ y)) = 0 := by
        apply List.countP_eq_zero.mpr
        intro x hx hle
        have hsx : s ≤ x := by
          rcases List.mem_cons.mp hx with rfl | hmem
          · exact Nat.le_refl _
          · exact hfirst x hmem
        exact hs (Nat.le_trans hsx (of_decide_eq_true hle))
      have hgreat : s ≤ (s :: rest)[i] := by
        cases i with
        | zero => exact Nat.le_refl s
        | succ i => exact hfirst _ (List.getElem_mem _)
      rw [hnone]
      constructor
      · intro hle
        exact absurd (Nat.le_trans hgreat hle) hs
      · intro hlt
        cases hlt

/-- **The `k`-th smallest number is at most `y` if `k` of them are.** -/
theorem exists_kthSmallest {xs : List Nat} {k : Nat} (hpos : 1 ≤ k) (hk : k ≤ xs.length) :
    ∃ x, kthSmallest? xs k = some x ∧
      ∀ y, x ≤ y ↔ k ≤ xs.countP fun x => decide (x ≤ y) := by
  have hperm := List.perm_insertionSort (· ≤ ·) xs
  have hi : k - 1 < (xs.insertionSort (· ≤ ·)).length := by
    rw [hperm.length_eq]
    omega
  refine ⟨(xs.insertionSort (· ≤ ·))[k - 1], List.getElem?_eq_getElem hi, ?_⟩
  intro y
  rw [getElem_le_iff_lt_countP (List.pairwise_insertionSort (· ≤ ·) xs) hi, hperm.countP_eq]
  omega

/-- A greater rank finds a greater number. -/
theorem kthSmallest_mono {xs : List Nat} {k k' x x' : Nat} (hpos : 1 ≤ k) (hle : k ≤ k')
    (hk' : k' ≤ xs.length) (hx : kthSmallest? xs k = some x)
    (hx' : kthSmallest? xs k' = some x') : x ≤ x' := by
  obtain ⟨y, hy, hcovers⟩ := exists_kthSmallest hpos (Nat.le_trans hle hk')
  obtain ⟨y', hy', hcovers'⟩ := exists_kthSmallest (Nat.le_trans hpos hle) hk'
  obtain rfl : x = y := Option.some.inj (hx.symm.trans hy)
  obtain rfl : x' = y' := Option.some.inj (hx'.symm.trans hy')
  exact (hcovers x').mpr (Nat.le_trans hle ((hcovers' x').mp (Nat.le_refl x')))

/-- The last of all is the greatest. -/
theorem le_kthSmallest_length {xs : List Nat} {x y : Nat}
    (hx : kthSmallest? xs xs.length = some x) (hy : y ∈ xs) : y ≤ x := by
  have hpos : 1 ≤ xs.length := List.length_pos_of_mem hy
  obtain ⟨x', hx', hcovers⟩ := exists_kthSmallest hpos (Nat.le_refl xs.length)
  obtain rfl : x = x' := Option.some.inj (hx.symm.trans hx')
  have hall := List.countP_eq_length.mp
    (Nat.le_antisymm List.countP_le_length ((hcovers x).mp (Nat.le_refl x)))
  exact of_decide_eq_true (hall y hy)

/-! ### Percentages -/

/-- A percentage as it is read: what is no number is none, and too much is everything. -/
def percent : Unrounded → ℚ
  | .number q => max 0 (min 100 q)
  | .infinite negative => if negative then 0 else 100
  | .nan => 0

theorem percent_nonneg (p : Unrounded) : 0 ≤ percent p := by
  cases p with
  | number q => exact le_max_left _ _
  | infinite negative => cases negative <;> norm_num [percent]
  | nan => exact le_refl _

theorem percent_le (p : Unrounded) : percent p ≤ 100 := by
  cases p with
  | number q => exact max_le (by norm_num) (min_le_left _ _)
  | infinite negative => cases negative <;> norm_num [percent]
  | nan => norm_num [percent]

theorem percent_mono {p p' : Unrounded} (h : Quantity.atLeast p' p = true) :
    percent p ≤ percent p' := by
  cases p with
  | number q =>
    cases p' with
    | number q' =>
      have hle : q ≤ q' := of_decide_eq_true h
      exact max_le_max (le_refl _) (min_le_min (le_refl _) hle)
    | infinite negative =>
      cases negative with
      | true => cases h
      | false => exact percent_le (.number q)
    | nan => cases h
  | infinite negative =>
    cases negative with
    | true => exact percent_nonneg p'
    | false =>
      cases p' with
      | number q' => cases h
      | infinite negative' =>
        cases negative' with
        | true => cases h
        | false => exact le_refl _
      | nan => cases h
  | nan => cases p' <;> cases h

/-- The percentage as the histogram reads it. -/
theorem clamp_orZero (p : Unrounded) :
    Quantity.clamp (Quantity.ofNat 0) (Quantity.ofNat 100) (Quantity.orZero p) =
      .number (percent p) := by
  have hrange : ((0 : ℕ) : ℚ) ≤ ((100 : ℕ) : ℚ) := by norm_num
  cases p with
  | number q =>
    refine (Unrounded.clamp_number hrange q).trans ?_
    norm_num [percent]
  | infinite negative => cases negative <;> rfl
  | nan =>
    refine (Unrounded.clamp_number hrange 0).trans ?_
    norm_num [percent]

namespace Histogram

/-! ### Ranks -/

theorem rank_eq (p : Unrounded) (n : Nat) : rank p n = max 1 ⌈percent p * n / 100⌉₊ := by
  have hshare : (percent p / 100 * n : ℚ) = percent p * n / 100 := by ring
  unfold rank
  dsimp only
  rw [clamp_orZero, Unrounded.ofNat_number, Unrounded.ofNat_number,
    Unrounded.div_number _ (by norm_num), Unrounded.mul_number, ← hshare]
  rfl

theorem rank_pos (p : Unrounded) (n : Nat) : 1 ≤ rank p n := le_max_left _ _

theorem rank_le (p : Unrounded) {n : Nat} (hn : 1 ≤ n) : rank p n ≤ n := by
  have hall : percent p * n ≤ 100 * n := mul_le_mul_of_nonneg_right (percent_le p) n.cast_nonneg
  rw [rank_eq]
  apply max_le hn
  rw [Nat.ceil_le]
  linarith

theorem rank_mono {p p' : Unrounded} (h : percent p ≤ percent p') (n : Nat) :
    rank p n ≤ rank p' n := by
  have hmore : percent p * n ≤ percent p' * n := mul_le_mul_of_nonneg_right h n.cast_nonneg
  rw [rank_eq, rank_eq]
  apply max_le_max (le_refl _)
  exact Nat.ceil_mono (by linarith)

theorem rank_hundred {n : Nat} (hn : 1 ≤ n) : rank (Unrounded.number 100) n = n := by
  have hshare : percent (.number 100) * (n : ℚ) / 100 = n := by
    have hpercent : percent (.number 100) = 100 := by norm_num [percent]
    rw [hpercent]
    ring
  rw [rank_eq, hshare, Nat.ceil_natCast, max_eq_right hn]

/-! ### The walk over the buckets -/

variable {bounds xs : List Nat}

/-- What a bound covers is covered by a lower one, or left over by it. -/
theorem countP_covered {b c : Nat} (hbc : b ≤ c) (xs : List Nat) :
    (xs.countP fun x => decide (x ≤ b * 1000)) +
        (xs.filter fun x => decide (b * 1000 < x)).countP (fun x => decide (x ≤ c * 1000)) =
      xs.countP fun x => decide (x ≤ c * 1000) := by
  have hmore : b * 1000 ≤ c * 1000 := Nat.mul_le_mul_right 1000 hbc
  have hlow : (xs.filter fun x => decide (x ≤ b * 1000)).countP (fun x => decide (x ≤ c * 1000)) =
      xs.countP fun x => decide (x ≤ b * 1000) := by
    rw [List.countP_filter]
    congr 1
    funext x
    by_cases hx : x ≤ b * 1000
    · simp [hx, Nat.le_trans hx hmore]
    · simp [hx]
  have hsplit := List.countP_eq_countP_filter_add xs (fun x => decide (x ≤ c * 1000))
    fun x => decide (x ≤ b * 1000)
  simpa only [hlow, ← decide_not, Nat.not_le] using hsplit.symm

/-- The walk finds the first bound up to which there are enough samples, `seen` of them before
    the first bucket. -/
theorem firstReaching_placed (nonempty : bounds ≠ []) (increasing : bounds.Pairwise (· < ·))
    {k seen : Nat} (hk : k ≤ seen + xs.length) :
    firstReaching k seen (bounds.zip (placed bounds xs)) =
      some ((bounds.find? fun b =>
        decide (k ≤ seen + xs.countP fun x => decide (x ≤ b * 1000))).getD
          (bounds.getLast?.getD 0)) := by
  induction bounds generalizing seen xs with
  | nil => exact absurd rfl nonempty
  | cons b rest ih =>
    obtain ⟨hfirst, hrest⟩ := List.pairwise_cons.mp increasing
    by_cases hlast : rest = []
    · subst hlast
      rw [placed_singleton]
      simp only [List.zip_cons_cons, List.zip_nil_right, firstReaching, if_pos hk]
      cases hb : decide (k ≤ seen + xs.countP fun x => decide (x ≤ b * 1000)) <;> simp [hb]
    · rw [placed_cons_bounds b hlast, List.zip_cons_cons, firstReaching]
      by_cases hb : k ≤ seen + xs.countP fun x => decide (x ≤ b * 1000)
      · rw [if_pos hb, List.find?_cons_of_pos (by simpa using hb)]
        rfl
      · -- the walk goes on with the samples that the bound leaves over
        have hlength := List.length_eq_countP_add_countP (l := xs) fun x => decide (x ≤ b * 1000)
        have hleft : k ≤ seen + xs.countP (fun x => decide (x ≤ b * 1000)) +
            (xs.filter fun x => decide (b * 1000 < x)).length := by
          rw [← List.countP_eq_length_filter]
          simp only [decide_eq_true_eq, Nat.not_le] at hlength
          omega
        have hsame : ∀ c ∈ rest,
            decide (k ≤ seen + xs.countP (fun x => decide (x ≤ b * 1000)) +
              (xs.filter fun x => decide (b * 1000 < x)).countP
                fun x => decide (x ≤ c * 1000)) =
              decide (k ≤ seen + xs.countP fun x => decide (x ≤ c * 1000)) := by
          intro c hc
          rw [Nat.add_assoc, countP_covered (Nat.le_of_lt (hfirst c hc))]
        rw [if_neg hb, ih hlast hrest hleft, List.find?_cons_of_neg (by simpa using hb),
          List.find?_congr hsame, List.getLast?_cons_of_ne_nil hlast]

/-- **The walk stops at the bound of the `k`-th smallest sample.** -/
theorem firstReaching_eq (nonempty : bounds ≠ []) (increasing : bounds.Pairwise (· < ·))
    {k : Nat} (hpos : 1 ≤ k) (hk : k ≤ xs.length) :
    ∃ x, kthSmallest? xs k = some x ∧
      firstReaching k 0 (bounds.zip (placed bounds xs)) = some (boundFor bounds x) := by
  obtain ⟨x, hx, hcovers⟩ := exists_kthSmallest hpos hk
  refine ⟨x, hx, ?_⟩
  rw [firstReaching_placed nonempty increasing (by simpa using hk), boundFor]
  simp only [Nat.zero_add, ← hcovers]

/-! ### Percentiles -/

theorem Holds.percentile {h : Histogram} (hh : Holds h bounds xs) (nonempty : bounds ≠ [])
    (increasing : bounds.Pairwise (· < ·)) (recorded : xs ≠ []) (p : Unrounded) :
    ∃ x, kthSmallest? xs (rank p h.total) = some x ∧
      firstReaching (rank p h.total) 0 (h.bounds.zip h.counts) = some (boundFor bounds x) ∧
      h.percentile p = boundFor bounds x := by
  have hsome : 1 ≤ xs.length := List.length_pos_of_ne_nil recorded
  have htotal : h.total ≠ 0 := by
    rw [hh.total]
    omega
  have hrank : rank p h.total ≤ xs.length := by
    rw [hh.total]
    exact rank_le p hsome
  obtain ⟨x, hx, hwalk⟩ := firstReaching_eq nonempty increasing (rank_pos p h.total) hrank
  rw [← hh.counts, ← hh.sameBounds] at hwalk
  refine ⟨x, hx, ?_, ?_⟩
  · rw [hwalk, hh.sameBounds]
  · rw [Histogram.percentile, if_neg htotal, hwalk, hh.sameBounds]

/-- A hundred percent ask for the greatest sample. -/
theorem Holds.percentile_hundred {h : Histogram} (hh : Holds h bounds xs)
    (nonempty : bounds ≠ []) (increasing : bounds.Pairwise (· < ·)) (recorded : xs ≠ []) :
    ∃ x ∈ xs, (∀ y ∈ xs, y ≤ x) ∧ h.percentile (Unrounded.number 100) = boundFor bounds x := by
  have hsome : 1 ≤ h.total := hh.total ▸ List.length_pos_of_ne_nil recorded
  obtain ⟨x, hx, -, hpercentile⟩ := hh.percentile nonempty increasing recorded (.number 100)
  rw [rank_hundred hsome, hh.total] at hx
  have hmem : x ∈ xs := (List.mem_insertionSort (· ≤ ·)).mp (List.mem_of_getElem? hx)
  exact ⟨x, hmem, fun y hy => le_kthSmallest_length hx hy, hpercentile⟩

/-- **Percentiles are order statistics.**  With increasing bounds and `n` samples, `p` percent is
    the first bound that covers the `k`-th smallest sample, or the last bound, where `k` is
    `p * n / 100` rounded up and at least one; the walk over the buckets always finds it.  So
    percentiles do not decrease, a hundred percent covers every sample that the last bound
    covers, and each bucket counts the samples that belong to it. -/
theorem percentile_of_kthSmallest (bounds : List Nat) (nonempty : bounds ≠ [])
    (increasing : bounds.Pairwise (· < ·)) (samples : List Duration) (recorded : samples ≠ []) :
    let h := (empty bounds).recordAll samples
    let micros := samples.map Duration.microseconds
    ofBounds bounds = .ok (empty bounds) ∧
    (∀ p : Unrounded, ∃ x,
      kthSmallest? micros (max 1 ⌈percent p * samples.length / 100⌉₊) = some x ∧
      h.percentile p =
        (bounds.find? fun bound => decide (x ≤ bound * 1000)).getD (bounds.getLast nonempty) ∧
      firstReaching (rank p h.total) 0 (h.bounds.zip h.counts) ≠ none) ∧
    (∀ p p' : Unrounded, Quantity.atLeast p' p = true → h.percentile p ≤ h.percentile p') ∧
    (∀ x ∈ micros, x ≤ bounds.getLast nonempty * 1000 →
      x ≤ h.percentile (Unrounded.number 100) * 1000) ∧
    h.total = samples.length ∧ h.counts.sum = samples.length ∧ h.counts.length = bounds.length ∧
    (∀ i < bounds.length,
      h.counts[i]? = some (micros.countP fun x => decide (bucketOf bounds x = i))) := by
  intro h micros
  have hh : Holds h bounds micros := holds_recordAll bounds samples
  have hmicros : micros ≠ [] := by simpa [micros] using recorded
  have htotal : h.total = samples.length := by simpa [micros] using hh.total
  have hpercentile := hh.percentile nonempty increasing hmicros
  refine ⟨ofBounds_increasing nonempty increasing, ?_, ?_, ?_, htotal, ?_, ?_, ?_⟩
  · intro p
    obtain ⟨x, hx, hwalk, hp⟩ := hpercentile p
    refine ⟨x, ?_, ?_, ?_⟩
    · rw [← htotal, ← rank_eq]
      exact hx
    · rw [hp, boundFor, List.getLast?_eq_some_getLast nonempty]
      rfl
    · rw [hwalk]
      exact Option.some_ne_none _
  · intro p p' hle
    obtain ⟨x, hx, -, hp⟩ := hpercentile p
    obtain ⟨x', hx', -, hp'⟩ := hpercentile p'
    have hsome : 1 ≤ h.total := hh.total ▸ List.length_pos_of_ne_nil hmicros
    rw [hp, hp']
    apply boundFor_mono increasing
    exact kthSmallest_mono (rank_pos p _) (rank_mono (percent_mono hle) _)
      (hh.total ▸ rank_le p' hsome) hx hx'
  · intro x hx hlast
    obtain ⟨greatest, -, hgreatest, hp⟩ := hh.percentile_hundred nonempty increasing hmicros
    calc x ≤ boundFor bounds x * 1000 := le_boundFor nonempty hlast
      _ ≤ boundFor bounds greatest * 1000 :=
        Nat.mul_le_mul_right 1000 (boundFor_mono increasing (hgreatest x hx))
      _ = h.percentile (Unrounded.number 100) * 1000 := by rw [hp]
  · rw [hh.counts, sum_placed nonempty]
    simp [micros]
  · rw [hh.counts, length_placed]
  · intro i hi
    rw [hh.counts]
    simp [placed, hi]

/-- Of 30, 0.9, 4.2 and 1 milliseconds the second is a whole millisecond and belongs to the lowest
    of three bounds, and the third is behind the next. -/
theorem quartiles_of_four :
    let samples : List Duration := [30000000, 900000, 4200000, 1000000]
    let h := (empty [1, 5, 10]).recordAll samples
    [1, 5, 10].Pairwise (· < ·) ∧ samples ≠ [] ∧
      kthSmallest? (samples.map Duration.microseconds) 2 = some 1000 ∧
      h.percentile (Unrounded.number 50) = 1 ∧ h.percentile (Unrounded.number 51) = 5 ∧
      h.percentile (Unrounded.infinite false) = 10 ∧ h.percentile Unrounded.nan = 1 ∧
      h.counts = [2, 1, 1] ∧ h.total = 4 := by
  intro samples h
  have hincreasing : [1, 5, 10].Pairwise (· < ·) := by decide
  have hrecorded : samples ≠ [] := List.cons_ne_nil _ _
  obtain ⟨-, hpercentile, -, -, htotal, -⟩ :=
    percentile_of_kthSmallest [1, 5, 10] (by decide) hincreasing samples hrecorded
  obtain ⟨x, hx, hp, -⟩ := hpercentile (.number 50)
  have hrank : max 1 ⌈percent (.number 50) * ((samples.length : ℕ) : ℚ) / 100⌉₊ = 2 := by
    decide +kernel
  have hsecond : kthSmallest? (samples.map Duration.microseconds) 2 = some 1000 := by
    decide +kernel
  rw [hrank, hsecond] at hx
  obtain rfl := Option.some.inj hx
  refine ⟨hincreasing, hrecorded, hsecond, hp, ?_, ?_, ?_, ?_, htotal⟩
  · decide +kernel
  · decide +kernel
  · decide +kernel
  · decide +kernel

end Histogram

end Floodgate
