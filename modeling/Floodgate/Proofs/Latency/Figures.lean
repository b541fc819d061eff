/-
  Floodgate/Proofs/Latency/Figures.lean
  =====================================
  **The figures of a snapshot belong together.**  A recorder keeps five accumulators,
  and each is brought up to date on its own: two counters, a sum of 64 bits that starts
  over when it is full, a maximum, and a histogram with a total of its own.  After any
  requests they are all figures of these requests (`Tallied`), so a snapshot agrees with
  the requests and with itself.

  Two of the figures lose something.  A latency counts at most 2^64 - 1 microseconds, and
  the sum is known up to a multiple of 2^64; a sum that has started over is smaller than
  the true one, so the average may come out too low, but never above the maximum.
-/
import Floodgate.Latency.Recorder
import Floodgate.Proofs.Latency.Percentiles
import Mathlib.Algebra.Order.BigOperators.Group.List

namespace Floodgate

/-! ### Percentiles of any number of samples -/

namespace Histogram

/-- A greater percentage has no lower bound; without samples all of them are zero. -/
theorem Holds.percentile_mono {h : Histogram} {bounds xs : List Nat} (hh : Holds h bounds xs)
    (nonempty : bounds ≠ []) (increasing : bounds.Pairwise (· < ·)) {p p' : Unrounded}
    (hle : Quantity.atLeast p' p = true) : h.percentile p ≤ h.percentile p' := by
  by_cases recorded : xs = []
  · have hnone : h.total = 0 := by
      rw [hh.total, recorded]
      rfl
    rw [Histogram.percentile, Histogram.percentile, if_pos hnone, if_pos hnone]
  · obtain ⟨x, hx, -, hp⟩ := hh.percentile nonempty increasing recorded p
    obtain ⟨x', hx', -, hp'⟩ := hh.percentile nonempty increasing recorded p'
    have hsome : 1 ≤ h.total := hh.total ▸ List.length_pos_of_ne_nil recorded
    rw [hp, hp']
    apply boundFor_mono increasing
    exact kthSmallest_mono (rank_pos p _) (rank_mono (percent_mono hle) _)
      (hh.total ▸ rank_le p' hsome) hx hx'

end Histogram

namespace Recorder

/-! ### What a recorder has recorded -/

/-- A recorder after some more requests, each with its latency and whether it failed. -/
def recordAll (r : Recorder) (samples : List (Duration × Bool)) : Recorder :=
  samples.foldl (fun r sample => r.record sample.1 sample.2) r

/-- The latencies of some requests as they are added up. -/
def latencies (samples : List (Duration × Bool)) : List Nat :=
  samples.map fun sample => micros sample.1

/-- Latencies that add up to less than 2^64 microseconds are what they are. -/
theorem latencies_eq {samples : List (Duration × Bool)}
    (h : (samples.map fun sample => Duration.microseconds sample.1).sum < sumSize) :
    latencies samples = samples.map fun sample => Duration.microseconds sample.1 := by
  apply List.map_congr_left
  intro sample hsample
  have hmem : Duration.microseconds sample.1 ∈
      samples.map fun sample => Duration.microseconds sample.1 :=
    List.mem_map_of_mem hsample
  have hle := List.single_le_sum (fun _ _ => Nat.zero_le _) _ hmem
  exact Nat.min_eq_left (by omega)

/-- A recorder with these bounds has recorded these requests. -/
structure Tallied (r : Recorder) (bounds : List Nat) (samples : List (Duration × Bool)) :
    Prop where
  requests : r.requests = samples.length
  errors : r.errors = samples.countP (·.2)
  sum : r.sum = (latencies samples).sum % sumSize
  greatest : ∀ most, r.greatest ≤ most ↔ ∀ x ∈ latencies samples, x ≤ most
  histogram : r.histogram.Holds bounds
    (samples.map fun sample => Duration.microseconds sample.1)

theorem tallied_new (bounds : List Nat) : Tallied (new (Histogram.empty bounds)) bounds [] where
  requests := rfl
  errors := rfl
  sum := rfl
  greatest := by simp [new, latencies]
  histogram := Histogram.holds_empty bounds

namespace Tallied

variable {r : Recorder} {bounds : List Nat} {earlier samples : List (Duration × Bool)}

theorem record (hr : Tallied r bounds earlier) (latency : Duration) (isError : Bool) :
    Tallied (r.record latency isError) bounds (earlier ++ [(latency, isError)]) where
  requests := by simp [Recorder.record, hr.requests]
  errors := by simp [Recorder.record, hr.errors]
  sum := by simp [Recorder.record, hr.sum, latencies]
  greatest most := by
    have hearlier := hr.greatest most
    simp only [latencies] at hearlier
    simp [Recorder.record, latencies, hearlier, or_imp, forall_and]
  histogram := by
    rw [List.map_append]
    exact (hr.histogram.record latency).perm (List.perm_append_singleton _ _).symm

/-- **A recorder is what it has recorded.** -/
theorem recordAll (hr : Tallied r bounds earlier) (samples : List (Duration × Bool)) :
    Tallied (r.recordAll samples) bounds (earlier ++ samples) := by
  induction samples generalizing r earlier with
  | nil =>
    rw [List.append_nil]
    exact hr
  | cons sample samples ih =>
    have hrest := ih (hr.record sample.1 sample.2)
    rwa [List.append_assoc] at hrest

/-! ### What is read off -/

theorem errors_le (hr : Tallied r bounds samples) : r.errors ≤ r.requests := by
  rw [hr.errors, hr.requests]
  exact List.countP_le_length

theorem greatest_eq (hr : Tallied r bounds samples) :
    r.greatest = (latencies samples).max?.getD 0 := by
  cases hmax : (latencies samples).max? with
  | none =>
    have hnone : latencies samples = [] := List.max?_eq_none_iff.mp hmax
    have hzero := (hr.greatest 0).mpr (by simp [hnone])
    exact Nat.le_zero.mp hzero
  | some x =>
    obtain ⟨hmem, hall⟩ := List.max?_eq_some_iff.mp hmax
    exact Nat.le_antisymm ((hr.greatest x).mpr hall) ((hr.greatest r.greatest).mp le_rfl x hmem)

/-- The sum, whether it has started over or not, is at most what it would be if all latencies
    were the greatest. -/
theorem sum_le (hr : Tallied r bounds samples) : r.sum ≤ r.requests * r.greatest := by
  calc r.sum = (latencies samples).sum % sumSize := hr.sum
    _ ≤ (latencies samples).sum := Nat.mod_le _ _
    _ ≤ (latencies samples).length • r.greatest :=
      List.sum_le_card_nsmul _ _ ((hr.greatest r.greatest).mp le_rfl)
    _ = r.requests * r.greatest := by rw [latencies, List.length_map, hr.requests, Nat.nsmul_eq_mul]

end Tallied

/-! ### Snapshots -/

/-- Without requests the average is zero, which is also what dividing by none gives. -/
theorem snapshot_average (r : Recorder) (saved : Nat) :
    (r.snapshot saved : Snapshot Unrounded).average = .number (r.sum / r.requests / 1000) := by
  show (if r.requests = 0 then Quantity.ofNat 0
    else Quantity.ofNat r.sum / Quantity.ofNat r.requests / Quantity.ofNat 1000 : Unrounded) = _
  by_cases hnone : r.requests = 0
  · simp [hnone]
  · rw [if_neg hnone, Unrounded.ofNat_number, Unrounded.ofNat_number, Unrounded.ofNat_number,
      Unrounded.div_number _ (Nat.cast_ne_zero.mpr hnone), Unrounded.div_number _ (by norm_num)]
    norm_num

theorem snapshot_greatest (r : Recorder) (saved : Nat) :
    (r.snapshot saved : Snapshot Unrounded).greatest = .number (r.greatest / 1000) := by
  show (Quantity.ofNat r.greatest / Quantity.ofNat 1000 : Unrounded) = _
  rw [Unrounded.ofNat_number, Unrounded.ofNat_number, Unrounded.div_number _ (by norm_num)]
  norm_num

theorem Tallied.average_le {r : Recorder} {bounds : List Nat} {samples : List (Duration × Bool)}
    (hr : Tallied r bounds samples) (saved : Nat) :
    let snap : Snapshot Unrounded := r.snapshot saved
    Quantity.atLeast snap.greatest snap.average = true := by
  intro snap
  have hsum : (r.sum : ℚ) ≤ r.greatest * r.requests := by
    rw [mul_comm]
    exact_mod_cast hr.sum_le
  have hmean : (r.sum / r.requests : ℚ) ≤ r.greatest :=
    div_le_of_le_mul₀ (Nat.cast_nonneg _) (Nat.cast_nonneg _) hsum
  rw [snapshot_average, snapshot_greatest, Unrounded.atLeast_number, decide_eq_true_eq]
  linarith

/-- **A snapshot agrees with the requests and with itself.**  After any requests it shows how many
    there were, and the histogram and its buckets count as many; the errors are those that failed,
    so no more than there are requests; the maximum is the greatest latency, and the percentiles
    do not decrease.  As long as the latencies add up to less than 2^64 microseconds the average
    is their mean, and it is never above the maximum, even when the sum has started over. -/
theorem snapshot_of_requests (bounds : List Nat) (nonempty : bounds ≠ [])
    (increasing : bounds.Pairwise (· < ·)) (samples : List (Duration × Bool)) (saved : Nat) :
    let micros := latencies samples
    let r := (new (Histogram.empty bounds)).recordAll samples
    let snap : Snapshot Unrounded := r.snapshot saved
    Histogram.ofBounds bounds = .ok (Histogram.empty bounds) ∧
    (snap.requests = samples.length ∧ r.histogram.total = snap.requests ∧
      r.histogram.counts.sum = snap.requests) ∧
    (snap.errors = samples.countP (·.2) ∧ snap.errors ≤ snap.requests) ∧
    snap.greatest = .number ((micros.max?.getD 0 : ℕ) / 1000) ∧
    (micros.sum < sumSize → snap.average = .number (micros.sum / samples.length / 1000)) ∧
    Quantity.atLeast snap.greatest snap.average = true ∧
    (snap.p50 ≤ snap.p95 ∧ snap.p95 ≤ snap.p99) ∧ snap.saved = saved ∧
    ((samples.map fun sample => Duration.microseconds sample.1).sum < sumSize →
      micros = samples.map fun sample => Duration.microseconds sample.1) := by
  intro micros r snap
  have hr : Tallied r bounds samples := (tallied_new bounds).recordAll samples
  have hcounts : r.histogram.counts.sum = r.requests := by
    rw [hr.histogram.counts, Histogram.sum_placed nonempty, List.length_map, hr.requests]
  have hpercentile : ∀ p p' : Nat, p ≤ p' →
      r.histogram.percentile (Quantity.ofNat p : Unrounded) ≤
        r.histogram.percentile (Quantity.ofNat p' : Unrounded) := by
    intro p p' hle
    apply hr.histogram.percentile_mono nonempty increasing
    simpa using hle
  refine ⟨Histogram.ofBounds_increasing nonempty increasing, ⟨hr.requests, ?_, hcounts⟩,
    ⟨hr.errors, hr.errors_le⟩, ?_, ?_, hr.average_le saved,
    ⟨hpercentile 50 95 (by decide), hpercentile 95 99 (by decide)⟩, rfl, latencies_eq⟩
  · rw [hr.histogram.total, List.length_map]
    exact hr.requests.symm
  · rw [snapshot_greatest, hr.greatest_eq]
  · intro hsum
    rw [snapshot_average, hr.sum, hr.requests, Nat.mod_eq_of_lt hsum]

/-- Of 2, 4 and 30 milliseconds, the last of a request that failed, the mean is 12 and the median
    belongs to the bound at 5. -/
theorem snapshot_of_three :
    let samples : List (Duration × Bool) :=
      [(2000000, false), (4000000, false), (30000000, true)]
    let snap : Snapshot Unrounded :=
      ((new (Histogram.empty Histogram.defaultBounds)).recordAll samples).snapshot 7
    Histogram.defaultBounds ≠ [] ∧ Histogram.defaultBounds.Pairwise (· < ·) ∧
      (latencies samples).sum < sumSize ∧
      snap = ⟨3, 1, .number 12, 5, 50, 50, .number 30, 7⟩ := by
  intro samples snap
  have hnonempty : Histogram.defaultBounds ≠ [] := by decide
  have hincreasing : Histogram.defaultBounds.Pairwise (· < ·) := by decide
  have hsum : (latencies samples).sum < sumSize := by decide +kernel
  obtain ⟨-, ⟨hrequests, -⟩, ⟨herrors, -⟩, hgreatest, haverage, -, -, hsaved, -⟩ :=
    snapshot_of_requests Histogram.defaultBounds hnonempty hincreasing samples 7
  have hmost : (((latencies samples).max?.getD 0 : ℕ) / 1000 : ℚ) = 30 := by decide +kernel
  have hmean : ((latencies samples).sum / samples.length / 1000 : ℚ) = 12 := by decide +kernel
  refine ⟨hnonempty, hincreasing, hsum, ?_⟩
  calc snap = ⟨snap.requests, snap.errors, snap.average, snap.p50, snap.p95, snap.p99,
        snap.greatest, snap.saved⟩ := rfl
    _ = ⟨3, 1, .number 12, snap.p50, snap.p95, snap.p99, .number 30, 7⟩ := by
      rw [hrequests, herrors, haverage hsum, hgreatest, hsaved, hmost, hmean]
      rfl
    _ = ⟨3, 1, .number 12, 5, 50, 50, .number 30, 7⟩ := by
      decide +kernel

/-- Two latencies of 2^64 - 1 microseconds: the sum has started over, and the average is half of
    what it should be. -/
example :
    let r := (new (Histogram.empty [1])).recordAll
      [(Duration.longest, false), (Duration.longest, false)]
    r.sum = sumSize - 2 ∧ r.greatest = sumSize - 1 := by
  decide +kernel

end Recorder

end Floodgate
