/-
  Floodgate/Proofs/Latency/Resolution.lean
  ========================================
  **How exactly a bound is a bound.**  Durations are counted in nanoseconds and bounds in
  milliseconds, but samples are compared with bounds in whole microseconds, and what
  they have beyond those is dropped.  So a bound covers every sample that exceeds it by
  less than a microsecond (`microseconds_le_iff`).

  With such a slack the buckets are what they are said to be: a sample counts in the
  first bucket whose bound covers it, or else in the last one.  Without it they are, too,
  but for the samples within that microsecond of a bound other than the last.
-/
import Floodgate.Proofs.Latency.Percentiles

namespace Floodgate

namespace Histogram

/-- A bound covers what exceeds it by less than a microsecond. -/
theorem microseconds_le_iff (latency : Nat) (bound : Nat) :
    Duration.microseconds latency ≤ bound * 1000 ↔
      latency ≤ bound * Duration.millisecond + 999 := by
  simp only [Duration.microseconds, Duration.millisecond]
  omega

/-- A latency in nanoseconds exceeds a bound, but by less than a microsecond. -/
def JustAbove (latency : Nat) (bound : Nat) : Prop :=
  bound * Duration.millisecond < latency ∧ latency < bound * Duration.millisecond + 1000

instance (latency bound : Nat) : Decidable (JustAbove latency bound) :=
  inferInstanceAs (Decidable (_ ∧ _))

/-- The first bucket whose bound a latency exceeds by no more than a slack, in nanoseconds, or
    else the last bucket. -/
structure FirstWithin (slack : Nat) (bounds : List Nat) (latency : Nat) (i : Nat) : Prop where
  lt : i < bounds.length
  before : ∀ j (_ : j < i), bounds[j] * Duration.millisecond + slack < latency
  within : latency ≤ bounds[i] * Duration.millisecond + slack ∨ i + 1 = bounds.length

variable {bounds : List Nat} {latency : Nat}

/-- **A sample counts in the first bucket whose bound it exceeds by less than a microsecond**, or
    else in the last. -/
theorem firstWithin_bucketOf (nonempty : bounds ≠ []) (latency : Nat) :
    FirstWithin 999 bounds latency (bucketOf bounds (Duration.microseconds latency)) := by
  have hpos : 0 < bounds.length := List.length_pos_of_ne_nil nonempty
  have hmissed : ∀ b, ¬ decide (Duration.microseconds latency ≤ b * 1000) = true →
      b * Duration.millisecond + 999 < latency := by
    intro b hb
    rw [decide_eq_true_eq, microseconds_le_iff] at hb
    exact Nat.lt_of_not_le hb
  unfold bucketOf
  cases hfind : bounds.findIdx? fun bound =>
      decide (Duration.microseconds latency ≤ bound * 1000) with
  | none =>
    have hall := List.findIdx?_eq_none_iff.mp hfind
    refine ⟨Nat.sub_lt hpos Nat.one_pos, ?_, ?_⟩
    · intro j hj
      exact hmissed _ (by rw [hall _ (List.getElem_mem _)]; simp)
    · exact Or.inr (Nat.sub_add_cancel hpos)
  | some i =>
    obtain ⟨hi, hcovers, hbefore⟩ := List.findIdx?_eq_some_iff_getElem.mp hfind
    refine ⟨hi, ?_, ?_⟩
    · intro j hj
      exact hmissed _ (hbefore j hj)
    · exact Or.inl ((microseconds_le_iff _ _).mp (of_decide_eq_true hcovers))

/-- There is one such bucket at most. -/
theorem FirstWithin.unique {slack i i' : Nat} (h : FirstWithin slack bounds latency i)
    (h' : FirstWithin slack bounds latency i') : i = i' := by
  rcases Nat.lt_trichotomy i i' with hlt | heq | hlt
  · have hbefore := h'.before i hlt
    have hlast := h'.lt
    rcases h.within with hwithin | hend <;> omega
  · exact heq
  · have hbefore := h.before i' hlt
    have hlast := h.lt
    rcases h'.within with hwithin | hend <;> omega

/-- **Without the slack it is the same bucket**, unless a bound other than the last is exceeded by
    less than a microsecond. -/
theorem firstWithin_zero_iff (increasing : bounds.Pairwise (· < ·)) {i : Nat}
    (h : FirstWithin 999 bounds latency i) :
    FirstWithin 0 bounds latency i ↔
      ∀ j (_ : j + 1 < bounds.length), ¬ JustAbove latency bounds[j] := by
  have hlt := h.lt
  have hbefore := h.before
  have hwithin := h.within
  constructor
  · rintro h0 j hj ⟨habove, hbelow⟩
    have hin0 := h0.within
    rcases Nat.lt_trichotomy j i with hji | rfl | hij
    · have := hbefore j hji
      omega
    · omega
    · -- the bound of the bucket is lower still, and the bucket is not the last
      have hbounds := List.pairwise_iff_getElem.mp increasing i j hlt (by omega) hij
      have : bounds[i] * Duration.millisecond ≤ bounds[j] * Duration.millisecond :=
        Nat.mul_le_mul_right _ (Nat.le_of_lt hbounds)
      omega
  · intro hnone
    refine ⟨hlt, ?_, ?_⟩
    · intro j hj
      have := hbefore j hj
      omega
    · rcases Nat.lt_or_ge (i + 1) bounds.length with hnext | hlast
      · left
        have := hnone i hnext
        unfold JustAbove at this
        omega
      · right
        omega

/-- No bound below that of its bucket covers a sample. -/
theorem boundFor_le (increasing : bounds.Pairwise (· < ·)) {b x : Nat} (hb : b ∈ bounds)
    (hx : x ≤ b * 1000) : boundFor bounds x ≤ b := by
  induction bounds with
  | nil => cases hb
  | cons c rest ih =>
    obtain ⟨hfirst, hrest⟩ := List.pairwise_cons.mp increasing
    by_cases hlast : rest = []
    · subst hlast
      rw [boundFor_singleton, List.mem_singleton.mp hb]
    · rw [boundFor_cons c hlast]
      rcases List.mem_cons.mp hb with rfl | hmem
      · rw [if_pos hx]
      · split_ifs
        · exact Nat.le_of_lt (hfirst b hmem)
        · exact ih hrest hmem

/-- The bound of its bucket is at least a sample that no bound but a greater one is just below. -/
theorem le_boundFor_iff (nonempty : bounds ≠ []) (increasing : bounds.Pairwise (· < ·))
    (hlast : latency ≤ bounds.getLast nonempty * Duration.millisecond) :
    let bound := boundFor bounds (Duration.microseconds latency)
    latency < bound * Duration.millisecond + 1000 ∧
      (latency ≤ bound * Duration.millisecond ↔ ∀ b ∈ bounds, ¬ JustAbove latency b) := by
  intro bound
  have hcovered : latency < bound * Duration.millisecond + 1000 := by
    have := (microseconds_le_iff latency bound).mp
      (le_boundFor nonempty ((microseconds_le_iff _ _).mpr (by omega)))
    omega
  refine ⟨hcovered, ?_, ?_⟩
  · rintro hle b hb ⟨habove, hbelow⟩
    have hbound : bound ≤ b := boundFor_le increasing hb ((microseconds_le_iff _ _).mpr (by omega))
    have : bound * Duration.millisecond ≤ b * Duration.millisecond := Nat.mul_le_mul_right _ hbound
    omega
  · intro hnone
    have := hnone bound (boundFor_mem nonempty _)
    unfold JustAbove at this
    omega

/-- A hundred percent ask for the bound of the largest latency. -/
theorem percentile_hundred_eq (nonempty : bounds ≠ []) (increasing : bounds.Pairwise (· < ·))
    {samples : List Duration} {largest : Duration} (hmem : largest ∈ samples)
    (hlargest : ∀ s ∈ samples, s ≤ largest) :
    ((empty bounds).recordAll samples).percentile (Unrounded.number 100) =
      boundFor bounds (Duration.microseconds largest) := by
  have hmicros : Duration.microseconds largest ∈ samples.map Duration.microseconds :=
    List.mem_map_of_mem hmem
  obtain ⟨x, hx, hgreatest, hp⟩ := (holds_recordAll bounds samples).percentile_hundred nonempty
    increasing (List.ne_nil_of_mem hmicros)
  obtain ⟨s, hs, rfl⟩ := List.mem_map.mp hx
  have hsame : Duration.microseconds s = Duration.microseconds largest :=
    Nat.le_antisymm (Nat.div_le_div_right (hlargest s hs)) (hgreatest _ hmicros)
  rw [hp, hsame]

/-- **Buckets and bounds, to the microsecond.**  Whatever a histogram has recorded, the next sample
    counts in one bucket: the first whose bound it exceeds by less than a microsecond, or else the
    last.  That is the first whose bound is at least the sample, or else the last, if and only if
    no bound other than the last is exceeded by less than a microsecond.  Of samples within the
    last bound the largest is less than a microsecond above a hundred percent of them, and it is
    not above if and only if no bound is just below it. -/
theorem record_within_microsecond (bounds : List Nat) (nonempty : bounds ≠ [])
    (increasing : bounds.Pairwise (· < ·)) (samples : List Duration) :
    let h := (empty bounds).recordAll samples
    ofBounds bounds = .ok (empty bounds) ∧
    h.counts.length = bounds.length ∧
    (∀ latency : Duration, ∃ i, FirstWithin 999 bounds latency i ∧
      h.record latency = ⟨bounds, h.counts.modify i (· + 1), h.total + 1⟩ ∧
      (FirstWithin 0 bounds latency i ↔
        ∀ j (_ : j + 1 < bounds.length), ¬ JustAbove latency bounds[j])) ∧
    (∀ largest ∈ samples, (∀ s ∈ samples, s ≤ largest) →
      largest ≤ bounds.getLast nonempty * Duration.millisecond →
      largest < h.percentile (Unrounded.number 100) * Duration.millisecond + 1000 ∧
        (largest ≤ h.percentile (Unrounded.number 100) * Duration.millisecond ↔
          ∀ b ∈ bounds, ¬ JustAbove largest b)) := by
  intro h
  have hh : Holds h bounds (samples.map Duration.microseconds) := holds_recordAll bounds samples
  refine ⟨ofBounds_increasing nonempty increasing, ?_, ?_, ?_⟩
  · rw [hh.counts, length_placed]
  · intro latency
    have hbucket := firstWithin_bucketOf nonempty latency
    refine ⟨_, hbucket, ?_, firstWithin_zero_iff increasing hbucket⟩
    rw [record, hh.sameBounds]
  · intro largest hmem hlargest hlast
    rw [percentile_hundred_eq nonempty increasing hmem hlargest]
    exact le_boundFor_iff nonempty increasing hlast

/-- Five milliseconds and 999 nanoseconds, after three milliseconds, are in the bucket of five, and
    so are more than a hundred percent; another nanosecond is in the bucket of ten. -/
theorem five_milliseconds_and_less :
    let samples : List Duration := [3000000, 5000999]
    let h := (empty [1, 5, 10]).recordAll samples
    [1, 5, 10] ≠ [] ∧ [1, 5, 10].Pairwise (· < ·) ∧
      h.counts = [0, 2, 0] ∧ h.percentile (Unrounded.number 100) = 5 ∧
      ¬ 5000999 ≤ h.percentile (Unrounded.number 100) * Duration.millisecond ∧
      (h.record 5001000).counts = [0, 2, 1] ∧ FirstWithin 0 [1, 5, 10] 5001000 2 := by
  intro samples h
  have hincreasing : [1, 5, 10].Pairwise (· < ·) := by decide
  obtain ⟨-, -, hrecord, hlargest⟩ :=
    record_within_microsecond [1, 5, 10] (by decide) hincreasing samples
  obtain ⟨i, hfirst, hcounts, hiff⟩ := hrecord 5001000
  have hbucket : FirstWithin 999 [1, 5, 10] 5001000 2 := firstWithin_bucketOf (by decide) 5001000
  obtain rfl := hfirst.unique hbucket
  refine ⟨by decide, hincreasing, by decide +kernel, by decide +kernel, ?_, ?_, ?_⟩
  · intro hle
    have hnone := (hlargest 5000999 (by decide) (by decide) (by decide)).2.mp hle 5 (by decide)
    exact hnone (by decide)
  · rw [hcounts]
    decide +kernel
  · apply hiff.mpr
    intro j hj
    have hearlier : j = 0 ∨ j = 1 := by
      simp only [List.length_cons, List.length_nil] at hj
      omega
    rcases hearlier with rfl | rfl
    · have hone : ¬ JustAbove 5001000 1 := by decide
      exact hone
    · have hfive : ¬ JustAbove 5001000 5 := by decide
      exact hfive

/-- A nanosecond above the bound of one millisecond, a sample is counted there and not with those
    up to five, so it is more than a hundred percent of all samples. -/
theorem counted_under_lower_bound :
    let h := (empty [1, 5]).record 1000001
    FirstWithin 0 [1, 5] 1000001 1 ∧ (empty [1, 5]).counts.modify 1 (· + 1) = [0, 1] ∧
      h.counts = [1, 0] ∧ 1000001 ≤ 5 * Duration.millisecond ∧
      h.percentile (Unrounded.number 100) * Duration.millisecond < 1000001 := by
  intro h
  have hfirst : FirstWithin 0 [1, 5] 1000001 1 := by
    refine ⟨by decide, ?_, Or.inl (by decide)⟩
    decide
  exact ⟨hfirst, rfl, rfl, by decide, by decide +kernel⟩

end Histogram

end Floodgate
