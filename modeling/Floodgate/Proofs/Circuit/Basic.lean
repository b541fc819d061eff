/-
  Floodgate/Proofs/Circuit/Basic.lean
  ===================================
  **What each operation does to a circuit.**  One lemma for each way in which the
  operations of `Circuit` can go; what is proved of circuits is proved from these.
  Two facts hold of all of them: the settings stay as they are, and the generation
  goes up by one with every change of state and stays otherwise.
-/
import Floodgate.Circuit.Basic

namespace Floodgate

/-! ### Phases of a state -/

theorem Phase.eq_halfOpen {phase : Phase} (h : phase.state = .halfOpen) :
    ∃ issued successes, phase = .halfOpen issued successes := by
  cases phase with
  | closed failures => cases h
  | opened since => cases h
  | halfOpen issued successes => exact ⟨issued, successes, rfl⟩

namespace Circuit

variable {c : Circuit} {now : Instant} {next : Phase}

/-! ### Changes of phase -/

@[simp] theorem enter_phase : (c.enter now next).1.phase = next := by
  unfold enter
  split <;> rfl

@[simp] theorem enter_name : (c.enter now next).1.name = c.name := by
  unfold enter
  split <;> rfl

@[simp] theorem enter_threshold : (c.enter now next).1.threshold = c.threshold := by
  unfold enter
  split <;> rfl

@[simp] theorem enter_probes : (c.enter now next).1.probes = c.probes := by
  unfold enter
  split <;> rfl

@[simp] theorem enter_cooldown : (c.enter now next).1.cooldown = c.cooldown := by
  unfold enter
  split <;> rfl

theorem enter_generation_same (h : c.phase.state = next.state) :
    (c.enter now next).1.generation = c.generation := by
  simp only [enter, h, if_true]

theorem enter_generation_other (h : c.phase.state ≠ next.state) :
    (c.enter now next).1.generation = c.generation + 1 := by
  simp only [enter, h, if_false]

/-- The one circuit came from the other by an operation: the settings are the same, and the
    generation counts the change of state if there was one. -/
structure Follows (c c' : Circuit) : Prop where
  name : c'.name = c.name
  threshold : c'.threshold = c.threshold
  cooldown : c'.cooldown = c.cooldown
  probes : c'.probes = c.probes
  same : c'.phase.state = c.phase.state → c'.generation = c.generation
  other : c'.phase.state ≠ c.phase.state → c'.generation = c.generation + 1

theorem Follows.refl (c : Circuit) : Follows c c :=
  ⟨rfl, rfl, rfl, rfl, fun _ => rfl, fun h => absurd rfl h⟩

theorem Follows.generation_le {c c' : Circuit} (h : Follows c c') :
    c.generation ≤ c'.generation := by
  by_cases hs : c'.phase.state = c.phase.state
  · exact Nat.le_of_eq (h.same hs).symm
  · rw [h.other hs]
    exact Nat.le_succ c.generation

theorem follows_enter (c : Circuit) (now : Instant) (next : Phase) :
    Follows c (c.enter now next).1 where
  name := enter_name
  threshold := enter_threshold
  cooldown := enter_cooldown
  probes := enter_probes
  same := by
    intro h
    rw [enter_phase] at h
    exact enter_generation_same h.symm
  other := by
    intro h
    rw [enter_phase] at h
    exact enter_generation_other (Ne.symm h)

/-! ### Asking for a call to be admitted -/

/-- A call is admitted by a closed circuit, by one that has cooled down, or as a probe. -/
theorem acquire_some {g : Generation} (h : (c.acquire now).1 = some g) :
    (∃ failures, c.phase = .closed failures ∧ g = c.generation ∧ (c.acquire now).2.1 = c) ∨
    (∃ since, c.phase = .opened since ∧ g = c.generation + 1 ∧
      (c.acquire now).2.1 = (c.enter now (.halfOpen 1 0)).1) ∨
    (∃ issued successes, c.phase = .halfOpen issued successes ∧ issued < c.probes ∧
      g = c.generation ∧
      (c.acquire now).2.1 = { c with phase := .halfOpen (issued + 1) successes }) := by
  cases hp : c.phase with
  | closed failures =>
    simp only [acquire, hp, Option.some.injEq] at h
    exact .inl ⟨failures, rfl, h.symm, by simp only [acquire, hp]⟩
  | opened since =>
    have hstate : c.phase.state ≠ (Phase.halfOpen 1 0).state := by simp [hp, Phase.state]
    by_cases hcool : c.cooldown ≤ now - since
    · simp only [acquire, hp, if_pos hcool, Option.some.injEq] at h
      rw [enter_generation_other hstate] at h
      exact .inr (.inl ⟨since, rfl, h.symm, by simp only [acquire, hp, if_pos hcool]⟩)
    · simp only [acquire, hp, if_neg hcool] at h
      cases h
  | halfOpen issued successes =>
    by_cases hleft : issued < c.probes
    · simp only [acquire, hp, if_pos hleft, Option.some.injEq] at h
      exact .inr (.inr ⟨issued, successes, rfl, hleft, h.symm,
        by simp only [acquire, hp, if_pos hleft]⟩)
    · simp only [acquire, hp, if_neg hleft] at h
      cases h

theorem acquire_generation {g : Generation} (h : (c.acquire now).1 = some g) :
    g = (c.acquire now).2.1.generation := by
  obtain ⟨failures, _, hg, hc⟩ | ⟨since, hp, hg, hc⟩ | ⟨issued, successes, _, _, hg, hc⟩ :=
    acquire_some h
  · rw [hc, hg]
  · have hstate : c.phase.state ≠ (Phase.halfOpen 1 0).state := by simp [hp, Phase.state]
    rw [hc, hg, enter_generation_other hstate]
  · rw [hc, hg]

/-- A circuit that let a call through is not open. -/
theorem acquire_state_ne_opened {g : Generation} (h : (c.acquire now).1 = some g) :
    (c.acquire now).2.1.phase.state ≠ .opened := by
  obtain ⟨failures, hp, _, hc⟩ | ⟨since, _, _, hc⟩ | ⟨issued, successes, _, _, _, hc⟩ :=
    acquire_some h
  · simp [hc, hp, Phase.state]
  · simp [hc, Phase.state]
  · simp [hc, Phase.state]

theorem acquire_none (h : (c.acquire now).1 = none) : (c.acquire now).2.1 = c := by
  cases hp : c.phase with
  | closed failures =>
    simp only [acquire, hp] at h
    cases h
  | opened since =>
    by_cases hcool : c.cooldown ≤ now - since
    · simp only [acquire, hp, if_pos hcool] at h
      cases h
    · simp only [acquire, hp, if_neg hcool]
  | halfOpen issued successes =>
    by_cases hleft : issued < c.probes
    · simp only [acquire, hp, if_pos hleft] at h
      cases h
    · simp only [acquire, hp, if_neg hleft]

/-- A half-open circuit refuses calls as soon as all probes have been given away. -/
theorem acquire_halfOpen_eq_none_iff {issued successes : Nat}
    (h : c.phase = .halfOpen issued successes) :
    (c.acquire now).1 = none ↔ c.probes ≤ issued := by
  by_cases hleft : issued < c.probes
  · simp [acquire, h, hleft]
  · simp only [acquire, h, if_neg hleft, true_iff]
    omega

theorem acquire_halfOpen_of_lt {issued successes : Nat}
    (h : c.phase = .halfOpen issued successes) (hleft : issued < c.probes) :
    (c.acquire now).1 = some c.generation := by
  simp only [acquire, h, if_pos hleft]

/-- An open circuit refuses calls until its cooldown is over. -/
theorem acquire_opened_eq_none_iff {since : Instant} (h : c.phase = .opened since) :
    (c.acquire now).1 = none ↔ now - since < c.cooldown := by
  by_cases hcool : c.cooldown ≤ now - since
  · simp only [acquire, h, if_pos hcool, reduceCtorEq, false_iff]
    exact Nat.not_lt_of_le hcool
  · simp only [acquire, h, if_neg hcool, true_iff]
    exact Nat.lt_of_not_le hcool

theorem acquire_opened_of_le {since : Instant} (h : c.phase = .opened since)
    (hcool : c.cooldown ≤ now - since) :
    (c.acquire now).1 = some (c.generation + 1) ∧
      (c.acquire now).2.1 =
        { c with
            phase := .halfOpen 1 0
            published := .halfOpen
            generation := c.generation + 1
            changedAt := now } := by
  simp [acquire, h, hcool, enter, Phase.state]

theorem follows_acquire (c : Circuit) (now : Instant) : Follows c (c.acquire now).2.1 := by
  cases hasked : (c.acquire now).1 with
  | none =>
    rw [acquire_none hasked]
    exact Follows.refl c
  | some g =>
    obtain ⟨failures, _, _, hc⟩ | ⟨since, _, _, hc⟩ | ⟨issued, successes, hp, _, _, hc⟩ :=
      acquire_some hasked
    · rw [hc]
      exact Follows.refl c
    · rw [hc]
      exact follows_enter c now _
    · rw [hc]
      exact ⟨rfl, rfl, rfl, rfl, fun _ => rfl, fun h => absurd (by simp [hp, Phase.state]) h⟩

/-! ### Taking note of an outcome -/

/-- An outcome from before the latest change of state counts for nothing. -/
theorem settle_stale {g : Generation} (h : g ≠ c.generation) (failure : Bool) :
    (c.settle now g failure).1 = c := by
  simp only [settle, if_pos (Ne.symm h)]

theorem settle_failure :
    (c.settle now c.generation true).1 =
      { (c.enter now (c.afterFailure now)).1 with lastFailure := some now } := by
  simp [settle, recordFailure]

theorem settle_success :
    (c.settle now c.generation false).1 = (c.enter now c.afterSuccess).1 := by
  simp [settle, recordSuccess]

theorem settle_failure_phase : (c.settle now c.generation true).1.phase = c.afterFailure now := by
  rw [settle_failure]
  exact enter_phase

theorem settle_success_phase : (c.settle now c.generation false).1.phase = c.afterSuccess := by
  rw [settle_success]
  exact enter_phase

/-- Only a closed circuit is closed after a failure. -/
theorem closed_of_afterFailure (h : (c.afterFailure now).state = .closed) :
    c.phase.state = .closed := by
  cases hp : c.phase with
  | closed failures => rfl
  | opened since =>
    simp only [afterFailure, hp] at h
    cases h
  | halfOpen issued successes =>
    simp only [afterFailure, hp] at h
    cases h

/-- A failure that leaves a circuit open starts the cooldown. -/
theorem afterFailure_of_opened (h : (c.afterFailure now).state = .opened) :
    c.afterFailure now = .opened now := by
  cases hp : c.phase with
  | closed failures =>
    by_cases hlast : c.threshold ≤ failures + 1
    · simp only [afterFailure, hp, if_pos hlast]
    · simp only [afterFailure, hp, if_neg hlast] at h
      cases h
  | opened since => simp only [afterFailure, hp]
  | halfOpen issued successes => simp only [afterFailure, hp]

/-- Only an open circuit is open after a success. -/
theorem opened_of_afterSuccess (h : c.afterSuccess.state = .opened) : c.phase.state = .opened := by
  cases hp : c.phase with
  | closed failures =>
    simp only [afterSuccess, hp] at h
    cases h
  | opened since => rfl
  | halfOpen issued successes =>
    by_cases hlast : c.probes ≤ successes + 1
    · simp only [afterSuccess, hp, if_pos hlast] at h
      cases h
    · simp only [afterSuccess, hp, if_neg hlast] at h
      cases h

theorem afterSuccess_of_closed (h : c.afterSuccess.state = .closed) :
    c.afterSuccess = .closed 0 := by
  cases hp : c.phase with
  | closed failures => simp only [afterSuccess, hp]
  | opened since =>
    simp only [afterSuccess, hp] at h
    cases h
  | halfOpen issued successes =>
    by_cases hlast : c.probes ≤ successes + 1
    · simp only [afterSuccess, hp, if_pos hlast]
    · simp only [afterSuccess, hp, if_neg hlast] at h
      cases h

theorem afterFailure_ne_halfOpen (c : Circuit) (now : Instant) :
    (c.afterFailure now).state ≠ .halfOpen := by
  cases hp : c.phase with
  | closed failures =>
    simp only [afterFailure, hp]
    split <;> simp [Phase.state]
  | opened since => simp [afterFailure, hp, Phase.state]
  | halfOpen issued successes => simp [afterFailure, hp, Phase.state]

/-- A half-open episode that goes on after a success has a success more and wants another. -/
theorem afterSuccess_cases (c : Circuit) :
    c.afterSuccess.state ≠ .halfOpen ∨
    ∃ issued successes, c.phase = .halfOpen issued successes ∧ successes + 1 < c.probes ∧
      c.afterSuccess = .halfOpen issued (successes + 1) := by
  cases hp : c.phase with
  | closed failures => exact .inl (by simp [afterSuccess, hp, Phase.state])
  | opened since => exact .inl (by simp [afterSuccess, hp, Phase.state])
  | halfOpen issued successes =>
    by_cases hlast : c.probes ≤ successes + 1
    · exact .inl (by simp [afterSuccess, hp, hlast, Phase.state])
    · refine .inr ⟨issued, successes, rfl, Nat.lt_of_not_le hlast, ?_⟩
      simp only [afterSuccess, hp, if_neg hlast]

theorem follows_settle (c : Circuit) (now : Instant) (g : Generation) (failure : Bool) :
    Follows c (c.settle now g failure).1 := by
  by_cases hg : g = c.generation
  · rw [hg]
    cases failure with
    | false =>
      rw [settle_success]
      exact follows_enter c now _
    | true =>
      rw [settle_failure]
      have hf := follows_enter c now (c.afterFailure now)
      exact ⟨hf.name, hf.threshold, hf.cooldown, hf.probes, hf.same, hf.other⟩
  · rw [settle_stale hg]
    exact Follows.refl c

/-! ### Giving back a probe -/

theorem release_stale {g : Generation} (h : g ≠ c.generation) : c.release g = c := by
  simp only [release, if_pos (Ne.symm h)]

theorem release_halfOpen {issued successes : Nat} (h : c.phase = .halfOpen issued successes) :
    c.release c.generation = { c with phase := .halfOpen (issued - 1) successes } := by
  simp [release, h]

theorem release_other (h : c.phase.state ≠ .halfOpen) (g : Generation) : c.release g = c := by
  unfold release
  split
  · rfl
  · split
    · next hp => exact absurd (by simp [hp, Phase.state]) h
    · rfl

/-- Giving back a probe changes how many there are, and nothing else. -/
theorem release_eq (c : Circuit) (g : Generation) :
    c.release g = c ∨ ∃ issued successes, c.phase = .halfOpen issued successes ∧
      c.release g = { c with phase := .halfOpen (issued - 1) successes } := by
  by_cases hg : g = c.generation
  · cases hp : c.phase with
    | closed failures => exact .inl (release_other (by simp [hp, Phase.state]) g)
    | opened since => exact .inl (release_other (by simp [hp, Phase.state]) g)
    | halfOpen issued successes =>
      rw [hg]
      exact .inr ⟨issued, successes, rfl, release_halfOpen hp⟩
  · exact .inl (release_stale hg)

theorem follows_release (c : Circuit) (g : Generation) : Follows c (c.release g) := by
  obtain hc | ⟨issued, successes, hp, hc⟩ := release_eq c g
  · rw [hc]
    exact Follows.refl c
  · rw [hc]
    exact ⟨rfl, rfl, rfl, rfl, fun _ => rfl, fun h => absurd (by simp [hp, Phase.state]) h⟩

/-! ### Orders of operators -/

theorem follows_reset (c : Circuit) (now : Instant) : Follows c (c.reset now).1 := by
  have hf := follows_enter c now (.closed 0)
  exact ⟨hf.name, hf.threshold, hf.cooldown, hf.probes, hf.same, hf.other⟩

end Circuit

end Floodgate
