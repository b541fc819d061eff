/-
  Floodgate/Proofs/Latency/Placement.lean
  =======================================
  **Where samples are counted.**  A histogram that has recorded some samples is known
  from these samples alone, and their order does not matter: each bucket counts the
  samples that belong to it (`placed`), and the total is their number.  So nothing is
  counted twice or lost, however long the histogram is in use.

  A sample belongs to the first bound that covers it, in whole microseconds, or to the
  last bound of all.
-/
import Floodgate.Latency.Histogram
import Mathlib.Algebra.GroupWithZero.Nat
import Mathlib.Data.List.Chain

namespace Floodgate

/-! ### Bounds that are accepted -/

theorem firstDescent?_eq_none_iff (start : Nat) (bounds : List Nat) :
    firstDescent? start bounds = none ↔ bounds.IsChain (· < ·) := by
  induction bounds generalizing start with
  | nil => simp [firstDescent?]
  | cons a rest ih =>
    cases rest with
    | nil => simp [firstDescent?]
    | cons b rest =>
      rw [List.isChain_cons_cons, ← ih (start + 1), firstDescent?]
      by_cases h : b ≤ a
      · simp [h, Nat.not_lt.mpr h]
      · simp [h, Nat.lt_of_not_le h]

theorem boundsFault?_eq_none_iff {bounds : List Nat} :
    boundsFault? bounds = none ↔ bounds ≠ [] ∧ bounds.Pairwise (· < ·) := by
  cases bounds with
  | nil => simp [boundsFault?]
  | cons b rest =>
    simp [boundsFault?, firstDescent?_eq_none_iff, List.isChain_iff_pairwise]

namespace Histogram

theorem ofBounds_increasing {bounds : List Nat} (nonempty : bounds ≠ [])
    (increasing : bounds.Pairwise (· < ·)) : ofBounds bounds = .ok (empty bounds) := by
  rw [ofBounds, boundsFault?_eq_none_iff.mpr ⟨nonempty, increasing⟩]

/-! ### The bucket of a sample -/

variable {bounds : List Nat}

theorem bucketOf_cons (b : Nat) (rest : List Nat) (x : Nat) :
    bucketOf (b :: rest) x =
      if x ≤ b * 1000 then 0 else if rest = [] then 0 else bucketOf rest x + 1 := by
  unfold bucketOf
  rw [List.findIdx?_cons]
  by_cases hb : x ≤ b * 1000
  · simp [hb]
  · cases rest with
    | nil => simp [hb]
    | cons c rest =>
      simp only [hb, decide_false, Bool.false_eq_true, if_false, List.length_cons,
        Nat.add_sub_cancel, reduceCtorEq]
      cases (c :: rest).findIdx? fun bound => decide (x ≤ bound * 1000) with
      | none => rfl
      | some i => rfl

/-- The bound of the bucket of a sample: the first that covers it, or else the last. -/
def boundFor (bounds : List Nat) (x : Nat) : Nat :=
  (bounds.find? fun bound => decide (x ≤ bound * 1000)).getD (bounds.getLast?.getD 0)

theorem boundFor_cons (b : Nat) {rest : List Nat} (hrest : rest ≠ []) (x : Nat) :
    boundFor (b :: rest) x = if x ≤ b * 1000 then b else boundFor rest x := by
  obtain ⟨c, tail, rfl⟩ := List.exists_cons_of_ne_nil hrest
  unfold boundFor
  by_cases hb : x ≤ b * 1000
  · simp [hb]
  · rw [List.find?_cons_of_neg (by simpa using hb), if_neg hb, List.getLast?_cons_cons]

theorem boundFor_singleton (b x : Nat) : boundFor [b] x = b := by
  unfold boundFor
  by_cases hb : x ≤ b * 1000 <;> simp [hb]

theorem boundFor_mem (nonempty : bounds ≠ []) (x : Nat) : boundFor bounds x ∈ bounds := by
  unfold boundFor
  cases hfind : bounds.find? fun bound => decide (x ≤ bound * 1000) with
  | none =>
    rw [List.getLast?_eq_some_getLast nonempty]
    exact List.getLast_mem nonempty
  | some b => exact List.mem_of_find?_eq_some hfind

/-- A sample within the last bound is covered by the bound of its bucket. -/
theorem le_boundFor (nonempty : bounds ≠ []) {x : Nat} (h : x ≤ bounds.getLast nonempty * 1000) :
    x ≤ boundFor bounds x * 1000 := by
  unfold boundFor
  cases hfind : bounds.find? fun bound => decide (x ≤ bound * 1000) with
  | none =>
    rw [List.getLast?_eq_some_getLast nonempty]
    exact h
  | some b =>
    have hcovers : decide (x ≤ b * 1000) = true :=
      List.find?_some (p := fun bound => decide (x ≤ bound * 1000)) hfind
    exact of_decide_eq_true hcovers

/-- A greater sample has no lower bound. -/
theorem boundFor_mono (increasing : bounds.Pairwise (· < ·)) {x y : Nat} (h : x ≤ y) :
    boundFor bounds x ≤ boundFor bounds y := by
  induction bounds with
  | nil => exact Nat.le_refl _
  | cons b rest ih =>
    obtain ⟨hfirst, hrest⟩ := List.pairwise_cons.mp increasing
    by_cases hlast : rest = []
    · rw [hlast, boundFor_singleton, boundFor_singleton]
    · rw [boundFor_cons b hlast, boundFor_cons b hlast]
      split_ifs with hx hy
      · exact Nat.le_refl b
      · exact Nat.le_of_lt (hfirst _ (boundFor_mem hlast y))
      · omega
      · exact ih hrest

/-! ### What the buckets count -/

/-- The counts of the buckets after some samples, in whole microseconds. -/
def placed (bounds xs : List Nat) : List Nat :=
  (List.range bounds.length).map fun i => xs.countP fun x => decide (bucketOf bounds x = i)

@[simp] theorem length_placed (bounds xs : List Nat) :
    (placed bounds xs).length = bounds.length := by
  simp [placed]

theorem placed_nil (bounds : List Nat) : placed bounds [] = bounds.map fun _ => 0 := by
  apply List.ext_getElem
  · simp
  · intro i _ _
    simp [placed]

/-- One more sample is one more in its bucket. -/
theorem placed_cons (bounds : List Nat) (x : Nat) (xs : List Nat) :
    placed bounds (x :: xs) = (placed bounds xs).modify (bucketOf bounds x) (· + 1) := by
  apply List.ext_getElem
  · simp
  · intro i _ _
    rw [List.getElem_modify]
    simp only [placed, List.getElem_map, List.getElem_range, List.countP_cons]
    by_cases hi : bucketOf bounds x = i <;> simp [hi]

theorem placed_perm {xs ys : List Nat} (h : xs.Perm ys) : placed bounds xs = placed bounds ys := by
  unfold placed
  congr 1
  funext i
  exact h.countP_eq _

/-- The first bucket counts what the first bound covers, and the others count the rest. -/
theorem placed_cons_bounds (b : Nat) {rest : List Nat} (hrest : rest ≠ []) (xs : List Nat) :
    placed (b :: rest) xs =
      xs.countP (fun x => decide (x ≤ b * 1000)) ::
        placed rest (xs.filter fun x => decide (b * 1000 < x)) := by
  unfold placed
  rw [List.length_cons, List.range_succ_eq_map, List.map_cons, List.map_map]
  congr 1
  · congr 1
    funext x
    rw [bucketOf_cons, if_neg hrest]
    by_cases hx : x ≤ b * 1000 <;> simp [hx]
  · congr 1
    funext i
    rw [Function.comp_apply, List.countP_filter]
    congr 1
    funext x
    rw [bucketOf_cons, if_neg hrest]
    by_cases hx : x ≤ b * 1000
    · simp [hx, Nat.not_lt.mpr hx]
    · simp [hx, Nat.lt_of_not_le hx]

theorem placed_singleton (b : Nat) (xs : List Nat) : placed [b] xs = [xs.length] := by
  have hall : xs.countP (fun x => decide (bucketOf [b] x = 0)) = xs.length := by
    apply List.countP_eq_length.mpr
    intro x _
    simp [bucketOf_cons]
  simp [placed, hall]

theorem sum_placed (nonempty : bounds ≠ []) (xs : List Nat) :
    (placed bounds xs).sum = xs.length := by
  induction bounds generalizing xs with
  | nil => exact absurd rfl nonempty
  | cons b rest ih =>
    by_cases hlast : rest = []
    · rw [hlast, placed_singleton]
      exact List.sum_singleton
    · rw [placed_cons_bounds b hlast, List.sum_cons, ih hlast, ← List.countP_eq_length_filter]
      have hsplit := List.length_eq_countP_add_countP (l := xs) fun x => decide (x ≤ b * 1000)
      simpa using hsplit.symm

/-! ### Recording -/

/-- A histogram after some more samples, in order. -/
def recordAll (h : Histogram) (samples : List Duration) : Histogram := samples.foldl record h

/-- A histogram with these bounds has recorded these samples, in whole microseconds. -/
structure Holds (h : Histogram) (bounds xs : List Nat) : Prop where
  sameBounds : h.bounds = bounds
  counts : h.counts = placed bounds xs
  total : h.total = xs.length

theorem holds_empty (bounds : List Nat) : Holds (empty bounds) bounds [] where
  sameBounds := rfl
  counts := (placed_nil bounds).symm
  total := rfl

namespace Holds

variable {h : Histogram} {xs ys : List Nat}

theorem perm (hh : Holds h bounds xs) (hperm : xs.Perm ys) : Holds h bounds ys where
  sameBounds := hh.sameBounds
  counts := hh.counts.trans (placed_perm hperm)
  total := hh.total.trans hperm.length_eq

theorem record (hh : Holds h bounds xs) (latency : Duration) :
    Holds (h.record latency) bounds (Duration.microseconds latency :: xs) where
  sameBounds := hh.sameBounds
  counts := by
    rw [placed_cons, ← hh.counts, ← hh.sameBounds]
    rfl
  total := congrArg (· + 1) hh.total

theorem recordAll (hh : Holds h bounds xs) (samples : List Duration) :
    Holds (h.recordAll samples) bounds (samples.map Duration.microseconds ++ xs) := by
  induction samples generalizing h xs with
  | nil => exact hh
  | cons s samples ih =>
    have hrest := ih (hh.record s)
    rw [List.map_cons, List.cons_append]
    exact hrest.perm List.perm_middle

end Holds

/-- **A histogram is what it has recorded.** -/
theorem holds_recordAll (bounds : List Nat) (samples : List Duration) :
    Holds ((empty bounds).recordAll samples) bounds (samples.map Duration.microseconds) := by
  have h := (holds_empty bounds).recordAll samples
  rwa [List.append_nil] at h

end Histogram

end Floodgate
