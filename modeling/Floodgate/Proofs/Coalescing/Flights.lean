/-
  Floodgate/Proofs/Coalescing/Flights.lean
  ========================================
  **What each operation does to the flights.**  A request joins the flight of its key
  or starts one under a new number; a flight that is completed or cancelled is over,
  and what it came to stands under its number.  For those who know only the keys and
  numbers, `current?` and `landing?` are all there is to see.
-/
import Floodgate.Coalescing.Flights

namespace Floodgate

namespace Flights

variable {κ ρ : Type} [DecidableEq κ] {f : Flights κ ρ} {key k : κ} {id g : FlightId}
  {result : Except Failure ρ}

/-- The flight of a key, while it is under way. -/
def current? (f : Flights κ ρ) (key : κ) : Option FlightId := (f.inFlight.get? key).map Flight.id

theorem flight_of_current (h : f.current? key = some id) :
    ∃ waiters, f.inFlight.get? key = some ⟨id, waiters⟩ := by
  obtain ⟨flight, hget, rfl⟩ := Option.map_eq_some_iff.mp h
  exact ⟨flight.waiters, hget⟩

theorem none_of_current (h : f.current? key = Option.none) :
    f.inFlight.get? key = Option.none :=
  Option.map_eq_none_iff.mp h

/-! ### Joining -/

theorem join_waiter (h : f.current? key = some id) : (f.join key).1 = .waiter id := by
  obtain ⟨waiters, hget⟩ := flight_of_current h
  simp only [join, hget]

theorem join_leader (h : f.current? key = Option.none) : (f.join key).1 = .leader := by
  simp only [join, none_of_current h]

theorem current_join_waiter (h : f.current? key = some id) :
    (f.join key).2.current? k = f.current? k := by
  obtain ⟨waiters, hget⟩ := flight_of_current h
  simp only [join, hget, current?, Table.get?_put]
  by_cases hk : key = k
  · subst hk
    simp [hget]
  · simp [hk]

theorem current_join_leader (h : f.current? key = Option.none) :
    (f.join key).2.current? k = if key = k then some f.next else f.current? k := by
  simp only [join, none_of_current h, current?, Table.get?_put]
  by_cases hk : key = k <;> simp [hk]

/-- Flights go on while others join them or start their own. -/
theorem current_join (h : f.current? k = some id) : (f.join key).2.current? k = some id := by
  cases hkey : f.current? key with
  | none =>
    have hother : key ≠ k := by
      intro heq
      rw [← heq, hkey] at h
      cases h
    rw [current_join_leader hkey, if_neg hother]
    exact h
  | some flight =>
    rw [current_join_waiter hkey]
    exact h

theorem next_join_waiter (h : f.current? key = some id) : (f.join key).2.next = f.next := by
  obtain ⟨waiters, hget⟩ := flight_of_current h
  simp only [join, hget]

theorem next_join_leader (h : f.current? key = Option.none) :
    (f.join key).2.next = f.next + 1 := by
  simp only [join, none_of_current h]

theorem landing_join : (f.join key).2.landing? g = f.landing? g := by
  unfold join
  split <;> rfl

/-! ### Completing -/

/-- The leader gets what it brought back, marked as shared or not. -/
theorem complete_result (f : Flights κ ρ) (key : κ) (result : Except Failure ρ) :
    (f.complete key result).1 = result ∨ (f.complete key result).1 = sharedResult result := by
  unfold complete
  split
  · exact .inl rfl
  · dsimp only
    split
    · exact .inl rfl
    · exact .inr rfl

theorem current_complete :
    (f.complete key result).2.2.current? k = if key = k then Option.none else f.current? k := by
  unfold complete
  split
  · next hget =>
    by_cases hk : key = k
    · subst hk
      simp [current?, hget]
    · simp [hk]
  · dsimp only
    split <;> by_cases hk : key = k <;> simp [current?, Table.get?_remove, hk]

theorem next_complete : (f.complete key result).2.2.next = f.next := by
  unfold complete
  split
  · rfl
  · dsimp only
    split <;> rfl

theorem landing_complete (h : f.current? key = some id) :
    (f.complete key result).2.2.landing? g = f.landing? g ∨
      (g = id ∧
        (f.complete key result).2.2.landing? g = some (.completed (sharedResult result))) := by
  obtain ⟨waiters, hget⟩ := flight_of_current h
  by_cases hw : waiters = 0
  · simp only [complete, hget, if_pos hw]
    exact .inl rfl
  · simp only [complete, hget, if_neg hw, landing?, Table.get?_put]
    by_cases hg : id = g
    · exact .inr ⟨hg.symm, if_pos hg⟩
    · exact .inl (if_neg hg)

/-! ### Cancelling -/

theorem current_cancel :
    (f.cancel key).current? k = if key = k then Option.none else f.current? k := by
  unfold cancel
  split
  · next hget =>
    by_cases hk : key = k
    · subst hk
      simp [current?, hget]
    · simp [hk]
  · by_cases hk : key = k <;> simp [current?, Table.get?_remove, hk]

theorem next_cancel : (f.cancel key).next = f.next := by
  unfold cancel
  split <;> rfl

theorem landing_cancel (h : f.current? key = some id) :
    (f.cancel key).landing? g = f.landing? g ∨
      (g = id ∧ (f.cancel key).landing? g = some .cancelled) := by
  obtain ⟨waiters, hget⟩ := flight_of_current h
  simp only [cancel, hget, landing?, Table.get?_put]
  by_cases hg : id = g
  · exact .inr ⟨hg.symm, if_pos hg⟩
  · exact .inl (if_neg hg)

/-! ### Flights with their passengers -/

theorem get?_join_leader (h : f.current? key = Option.none) :
    (f.join key).2.inFlight.get? k = if key = k then some ⟨f.next, 0⟩ else f.inFlight.get? k := by
  simp only [join, none_of_current h, Table.get?_put]

theorem get?_join_waiter {waiters : Nat} (h : f.inFlight.get? key = some ⟨id, waiters⟩) :
    (f.join key).2.inFlight.get? k =
      if key = k then some ⟨id, waiters + 1⟩ else f.inFlight.get? k := by
  simp only [join, h, Table.get?_put]

theorem get?_complete :
    (f.complete key result).2.2.inFlight.get? k =
      if key = k then Option.none else f.inFlight.get? k := by
  unfold complete
  split
  · next hget =>
    by_cases hk : key = k
    · subst hk
      simp [hget]
    · simp [hk]
  · dsimp only
    split <;> exact Table.get?_remove ..

theorem get?_cancel :
    (f.cancel key).inFlight.get? k = if key = k then Option.none else f.inFlight.get? k := by
  unfold cancel
  split
  · next hget =>
    by_cases hk : key = k
    · subst hk
      simp [hget]
    · simp [hk]
  · exact Table.get?_remove ..

/-- What a leader gets back depends on whether somebody joined it. -/
theorem complete_of_get? {waiters : Nat} (h : f.inFlight.get? key = some ⟨id, waiters⟩)
    (result : Except Failure ρ) :
    (f.complete key result).1 = (if waiters = 0 then result else sharedResult result) ∧
      (f.complete key result).2.1 = some waiters := by
  simp only [complete, h]
  split
  · next hw => exact ⟨rfl, by rw [hw]⟩
  · exact ⟨rfl, rfl⟩

theorem landing_complete_alone (h : f.inFlight.get? key = some ⟨id, 0⟩) :
    (f.complete key result).2.2.landing? g = f.landing? g := by
  simp only [complete, h, if_pos]
  rfl

theorem landing_complete_joined {waiters : Nat}
    (h : f.inFlight.get? key = some ⟨id, waiters⟩) (hw : waiters ≠ 0) :
    (f.complete key result).2.2.landing? g =
      if id = g then some (.completed (sharedResult result)) else f.landing? g := by
  simp only [complete, h, if_neg hw, landing?, Table.get?_put]

theorem landing_cancel_of_get? {waiters : Nat} (h : f.inFlight.get? key = some ⟨id, waiters⟩) :
    (f.cancel key).landing? g = if id = g then some .cancelled else f.landing? g := by
  simp only [cancel, h, landing?, Table.get?_put]

/-! ### Keys of flights -/

/-- The keys of the flights under way. -/
def keys (f : Flights κ ρ) : List κ := f.inFlight.keys

omit [DecidableEq κ] in
theorem length_keys (f : Flights κ ρ) : f.keys.length = f.size := List.length_map ..

theorem mem_keys : key ∈ f.keys ↔ (f.inFlight.get? key).isSome = true := Table.mem_keys

theorem nodup_keys_join (h : f.keys.Nodup) (key : κ) : (f.join key).2.keys.Nodup := by
  unfold join
  split <;> exact Table.nodup_keys_put h key _

theorem nodup_keys_complete (h : f.keys.Nodup) (key : κ) (result : Except Failure ρ) :
    (f.complete key result).2.2.keys.Nodup := by
  unfold complete
  split
  · exact h
  · dsimp only
    split <;> exact Table.nodup_keys_remove h key

theorem nodup_keys_cancel (h : f.keys.Nodup) (key : κ) : (f.cancel key).keys.Nodup := by
  unfold cancel
  split
  · exact h
  · exact Table.nodup_keys_remove h key

end Flights

end Floodgate
