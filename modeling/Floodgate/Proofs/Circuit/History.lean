/-
  Floodgate/Proofs/Circuit/History.lean
  =====================================
  **A circuit as its history tells it.**  What a circuit does next can be told from
  what has happened at it, without its counters and generations.  An outcome takes
  effect if the state has not changed between the admission of the call and its end.
  A closed circuit opens at the outcome that makes the failures in a row as many as
  the threshold, a half-open one closes at the success that uses the budget up and
  opens at the first failure; outcomes that take no effect change nothing at all.

  A history is a list with the latest entry first, so that what counts since some
  entry is a recursion that stops there.  `Recounts` is the simulation between a
  circuit and its history, `Explained` is what it is good for.
-/
import Floodgate.Proofs.Circuit.Probes

namespace Floodgate

/-! ### What a history tells -/

/-- A deed and the state that the circuit is in after it. -/
structure Entry where
  deed : Deed
  after : CircuitState
deriving DecidableEq, Repr

/-- What has happened at a circuit since it was new, the latest first. -/
abbrev History := List Entry

namespace History

/-- The state that the circuit is in. -/
def state : History → CircuitState
  | [] => .closed
  | e :: _ => e.after

/-- An outcome of the call would take effect: the state has not changed since it was let
    through. -/
def effective (n : Nat) : History → Bool
  | [] => false
  | e :: past =>
    if e.deed = .admitted n then true
    else if e.after = state past then effective n past
    else false

/-- Failures that took effect since the latest success that did, the latest reset and the
    latest change of state. -/
def failures : History → Nat
  | [] => 0
  | e :: past =>
    if e.after = state past then
      match e.deed with
      | .reset => 0
      | .ended n failure =>
        if effective n past then if failure then failures past + 1 else 0 else failures past
      | _ => failures past
    else 0

/-- Successes that took effect since the latest change of state. -/
def successes : History → Nat
  | [] => 0
  | e :: past =>
    if e.after = state past then
      match e.deed with
      | .ended n false => if effective n past then successes past + 1 else successes past
      | _ => successes past
    else 0

variable {past : History} {x : Deed} {after : CircuitState} {n : Nat}

theorem failures_changed (h : after ≠ past.state) : failures (⟨x, after⟩ :: past) = 0 := by
  simp only [failures, if_neg h]

theorem successes_changed (h : after ≠ past.state) : successes (⟨x, after⟩ :: past) = 0 := by
  simp only [successes, if_neg h]

/-- The deed is no reset and no outcome that takes effect. -/
def Quiet (past : History) : Deed → Prop
  | .ended n _ => past.effective n = false
  | .reset => False
  | _ => True

theorem failures_quiet (h : after = past.state) (hx : past.Quiet x) :
    failures (⟨x, after⟩ :: past) = failures past := by
  cases x with
  | ended n failure =>
    have hstale : effective n past = false := hx
    simp [failures, h, hstale]
  | reset => exact hx.elim
  | _ => simp only [failures, if_pos h]

theorem successes_quiet (h : after = past.state) (hx : past.Quiet x) :
    successes (⟨x, after⟩ :: past) = successes past := by
  cases x with
  | ended n failure =>
    have hstale : effective n past = false := hx
    cases failure <;> simp [successes, h, hstale]
  | reset => exact hx.elim
  | _ => simp only [successes, if_pos h]

theorem failures_failure (h : after = past.state) (hn : past.effective n = true) :
    failures (⟨.ended n true, after⟩ :: past) = failures past + 1 := by
  simp [failures, h, hn]

/-- A success that takes effect makes the failures in a row start again, and so does a reset. -/
theorem failures_success (hn : past.effective n = true) :
    failures (⟨.ended n false, after⟩ :: past) = 0 := by
  simp [failures, hn]

theorem failures_reset : failures (⟨.reset, after⟩ :: past) = 0 := by
  simp [failures]

theorem successes_success (h : after = past.state) (hn : past.effective n = true) :
    successes (⟨.ended n false, after⟩ :: past) = successes past + 1 := by
  simp [successes, h, hn]

/-! ### The model -/

/-- **The state that comes next**, by the history alone. -/
def next (threshold budget : Nat) (h : History) : Deed → CircuitState
  | .forced => .opened
  | .reset => .closed
  | .admitted _ => if h.state = .opened then .halfOpen else h.state
  | .ended n failure =>
    if h.effective n then
      match h.state, failure with
      | .closed, true => if h.failures + 1 = threshold then .opened else .closed
      | .halfOpen, true => .opened
      | .halfOpen, false => if h.successes + 1 = budget then .closed else .halfOpen
      | s, _ => s
    else h.state
  | _ => h.state

variable {threshold budget : Nat} {h : History}

theorem next_quiet (hx : h.Quiet x) (hforced : x ≠ .forced)
    (hadmitted : h.state = .opened → ∀ n, x ≠ .admitted n) :
    next threshold budget h x = h.state := by
  cases x with
  | ended n failure =>
    have hstale : effective n h = false := hx
    simp [next, hstale]
  | reset => exact hx.elim
  | forced => exact absurd rfl hforced
  | admitted n =>
    have hother : h.state ≠ .opened := fun hs => hadmitted hs n rfl
    simp only [next, if_neg hother]
  | _ => rfl

theorem next_closed_eq_opened_iff (hs : h.state = .closed) :
    next threshold budget h x = .opened ↔ x = .forced ∨
      ∃ n, x = .ended n true ∧ h.effective n = true ∧ h.failures + 1 = threshold := by
  cases x with
  | ended n failure => cases failure <;> cases heff : h.effective n <;> simp [next, hs, heff]
  | _ => simp [next, hs]

theorem next_closed_ne_halfOpen (hs : h.state = .closed) :
    next threshold budget h x ≠ .halfOpen := by
  cases x with
  | ended n failure =>
    cases failure <;> cases heff : h.effective n <;> simp [next, hs, heff]
    split <;> simp
  | _ => simp [next, hs]

theorem next_halfOpen_eq_closed_iff (hs : h.state = .halfOpen) :
    next threshold budget h x = .closed ↔ x = .reset ∨
      ∃ n, x = .ended n false ∧ h.effective n = true ∧ h.successes + 1 = budget := by
  cases x with
  | ended n failure => cases failure <;> cases heff : h.effective n <;> simp [next, hs, heff]
  | _ => simp [next, hs]

theorem next_halfOpen_eq_opened_iff (hs : h.state = .halfOpen) :
    next threshold budget h x = .opened ↔ x = .forced ∨
      ∃ n, x = .ended n true ∧ h.effective n = true := by
  cases x with
  | ended n failure =>
    cases failure <;> cases heff : h.effective n <;> simp [next, hs, heff]
    split <;> simp
  | _ => simp [next, hs]

theorem next_opened_eq_halfOpen_iff (hs : h.state = .opened) :
    next threshold budget h x = .halfOpen ↔ ∃ n, x = .admitted n := by
  cases x with
  | ended n failure => cases failure <;> cases heff : h.effective n <;> simp [next, hs, heff]
  | _ => simp [next, hs]

theorem next_opened_eq_closed_iff (hs : h.state = .opened) :
    next threshold budget h x = .closed ↔ x = .reset := by
  cases x with
  | ended n failure => cases failure <;> cases heff : h.effective n <;> simp [next, hs, heff]
  | _ => simp [next, hs]

end History

/-! ### The simulation -/

/-- A circuit is where its history says, and so are the permits that calls hold. -/
structure Recounts (c : Circuit) (ps : Permits) (h : History) : Prop where
  threshold : 1 ≤ c.threshold
  budget : 1 ≤ c.probes
  state : c.phase.state = h.state
  past : ∀ (n : Nat) (g : Generation), ps[n]? = some (some g) → g ≤ c.generation
  current : ∀ (n : Nat) (g : Generation), ps[n]? = some (some g) →
    (h.effective n = true ↔ g = c.generation)
  failures : c.phase.state ≠ .opened → c.phase.counts.1 = h.failures
  successes : c.phase.state = .halfOpen → c.phase.counts.2.2 = h.successes
  belowThreshold : c.phase.counts.1 < c.threshold
  belowBudget : c.phase.counts.2.2 < c.probes

variable {now : Instant} {c c' : Circuit} {ps ps' : Permits} {h : History} {x : Deed}

theorem Dealt.permit_cases (hd : Dealt now c ps x c' ps') {n : Nat} {g : Generation}
    (hn : ps'[n]? = some (some g)) :
    (x = .admitted n ∧ g = c'.generation) ∨ (x ≠ .admitted n ∧ ps[n]? = some (some g)) := by
  cases hd with
  | idle => exact .inr ⟨by simp, hn⟩
  | skipped =>
    rcases getElem?_concat_cases hn with ⟨_, hp⟩ | ⟨_, hold⟩
    · cases hp
    · exact .inr ⟨by simp, hold⟩
  | admitted g' asked =>
    rcases getElem?_concat_cases hn with ⟨hnew, hp⟩ | ⟨hlt, hold⟩
    · cases hp
      exact .inl ⟨by rw [hnew], Circuit.acquire_generation asked⟩
    · refine .inr ⟨?_, hold⟩
      intro heq
      cases heq
      exact absurd hlt (Nat.lt_irrefl _)
  | refused asked =>
    rcases getElem?_concat_cases hn with ⟨_, hp⟩ | ⟨_, hold⟩
    · cases hp
    · exact .inr ⟨by simp, hold⟩
  | ended n' g' failure held => exact .inr ⟨by simp, Permits.getElem?_set hn⟩
  | dropped n' g' held => exact .inr ⟨by simp, Permits.getElem?_set hn⟩
  | forced => exact .inr ⟨by simp, hn⟩
  | reset => exact .inr ⟨by simp, hn⟩

namespace Recounts

/-- An outcome takes effect if the call was let through under the present generation. -/
theorem effective_iff (hr : Recounts c ps h) {n : Nat} {g : Generation}
    (held : ps[n]? = some (some g)) : h.effective n = true ↔ g = c.generation :=
  hr.current n g held

/-- Generations tell after every deed which outcomes would take effect. -/
theorem current_next (hr : Recounts c ps h) (hd : Dealt now c ps x c' ps') {n : Nat}
    {g : Generation} (hn : ps'[n]? = some (some g)) :
    History.effective n (⟨x, c'.phase.state⟩ :: h) = true ↔ g = c'.generation := by
  have hf := hd.follows
  rcases hd.permit_cases hn with ⟨hx, hg⟩ | ⟨hx, hold⟩
  · simp [History.effective, hx, hg]
  · have hpast := hr.past n g hold
    by_cases hs : c'.phase.state = c.phase.state
    · have hstate : c'.phase.state = h.state := hs.trans hr.state
      simp only [History.effective, if_neg hx, if_pos hstate]
      rw [hf.same hs]
      exact hr.current n g hold
    · have hstate : c'.phase.state ≠ h.state := fun heq => hs (heq.trans hr.state.symm)
      simp only [History.effective, if_neg hx, if_neg hstate]
      rw [hf.other hs]
      constructor
      · intro hfalse
        cases hfalse
      · intro hg
        rw [hg] at hpast
        exact absurd hpast (Nat.not_succ_le_self _)

theorem past_next (hr : Recounts c ps h) (hd : Dealt now c ps x c' ps') {n : Nat}
    {g : Generation} (hn : ps'[n]? = some (some g)) : g ≤ c'.generation := by
  have hf := hd.follows
  rcases hd.permit_cases hn with ⟨_, hg⟩ | ⟨_, hold⟩
  · exact Nat.le_of_eq hg
  · have hpast := hr.past n g hold
    by_cases hs : c'.phase.state = c.phase.state
    · rw [hf.same hs]
      exact hpast
    · rw [hf.other hs]
      exact Nat.le_succ_of_le hpast

theorem of_counts (hr : Recounts c ps h) (hd : Dealt now c ps x c' ps')
    (failures : c'.phase.state ≠ .opened →
      c'.phase.counts.1 = History.failures (⟨x, c'.phase.state⟩ :: h))
    (successes : c'.phase.state = .halfOpen →
      c'.phase.counts.2.2 = History.successes (⟨x, c'.phase.state⟩ :: h))
    (belowThreshold : c'.phase.counts.1 < c.threshold)
    (belowBudget : c'.phase.counts.2.2 < c.probes) :
    Recounts c' ps' (⟨x, c'.phase.state⟩ :: h) := by
  have hf := hd.follows
  refine ⟨?_, ?_, rfl, ?_, ?_, failures, successes, ?_, ?_⟩
  · rw [hf.threshold]
    exact hr.threshold
  · rw [hf.probes]
    exact hr.budget
  · intro n g hn
    exact hr.past_next hd hn
  · intro n g hn
    exact hr.current_next hd hn
  · rw [hf.threshold]
    exact belowThreshold
  · rw [hf.probes]
    exact belowBudget

theorem opened (hr : Recounts c ps h) (hd : Dealt now c ps x c' ps') {since : Instant}
    (hphase : c'.phase = .opened since) : Recounts c' ps' (⟨x, c'.phase.state⟩ :: h) := by
  apply hr.of_counts hd
  · intro hother
    rw [hphase] at hother
    exact absurd rfl hother
  · intro hhalf
    rw [hphase] at hhalf
    cases hhalf
  · rw [hphase]
    exact hr.threshold
  · rw [hphase]
    exact hr.budget

/-- A closed circuit that counts as many failures as its history does. -/
theorem closed (hr : Recounts c ps h) (hd : Dealt now c ps x c' ps') {failures : Nat}
    (hphase : c'.phase = .closed failures)
    (hcount : failures = History.failures (⟨x, c'.phase.state⟩ :: h))
    (hbelow : failures < c.threshold) : Recounts c' ps' (⟨x, c'.phase.state⟩ :: h) := by
  apply hr.of_counts hd
  · intro _
    rw [← hcount, hphase]
    rfl
  · intro hhalf
    rw [hphase] at hhalf
    cases hhalf
  · rw [hphase]
    exact hbelow
  · rw [hphase]
    exact hr.budget

/-- A half-open circuit that counts as many successes as its history does, and no failure. -/
theorem halfOpen (hr : Recounts c ps h) (hd : Dealt now c ps x c' ps') {issued successes : Nat}
    (hphase : c'.phase = .halfOpen issued successes)
    (hfailures : History.failures (⟨x, c'.phase.state⟩ :: h) = 0)
    (hcount : successes = History.successes (⟨x, c'.phase.state⟩ :: h))
    (hbelow : successes < c.probes) : Recounts c' ps' (⟨x, c'.phase.state⟩ :: h) := by
  apply hr.of_counts hd
  · intro _
    rw [hfailures, hphase]
    rfl
  · intro _
    rw [← hcount, hphase]
    rfl
  · rw [hphase]
    exact hr.threshold
  · rw [hphase]
    exact hbelow

/-- A deed that is no outcome, or one that takes no effect. -/
theorem quiet (hr : Recounts c ps h) (hd : Dealt now c ps x c' ps') (hx : h.Quiet x)
    (hs : c'.phase.state = c.phase.state) (hfailures : c'.phase.counts.1 = c.phase.counts.1)
    (hsuccesses : c'.phase.counts.2.2 = c.phase.counts.2.2) :
    Recounts c' ps' (⟨x, c'.phase.state⟩ :: h) := by
  have hstate : c'.phase.state = h.state := hs.trans hr.state
  apply hr.of_counts hd
  · intro hopen
    rw [hfailures, History.failures_quiet hstate hx]
    exact hr.failures (hs ▸ hopen)
  · intro hhalf
    rw [hsuccesses, History.successes_quiet hstate hx]
    exact hr.successes (hs ▸ hhalf)
  · rw [hfailures]
    exact hr.belowThreshold
  · rw [hsuccesses]
    exact hr.belowBudget

/-- **All that can happen to the phase of a circuit**, told by its history. -/
theorem phase_cases (hr : Recounts c ps h) (hd : Dealt now c ps x c' ps') :
    (h.Quiet x ∧ x ≠ .forced ∧ (c.phase.state = .opened → ∀ n, x ≠ .admitted n) ∧
      c'.phase.state = c.phase.state ∧ c'.phase.counts.1 = c.phase.counts.1 ∧
      c'.phase.counts.2.2 = c.phase.counts.2.2) ∨
    (x = .forced ∧ c'.phase = .opened now) ∨
    (x = .reset ∧ c'.phase = .closed 0) ∨
    (∃ n, x = .admitted n ∧ c.phase.state = .opened ∧ c'.phase = .halfOpen 1 0) ∨
    (∃ n, x = .ended n true ∧ h.effective n = true ∧ c'.phase = c.afterFailure now) ∨
    (∃ n, x = .ended n false ∧ h.effective n = true ∧ c'.phase = c.afterSuccess) := by
  cases hd with
  | idle => exact .inl ⟨trivial, by simp, by simp, rfl, rfl, rfl⟩
  | skipped => exact .inl ⟨trivial, by simp, by simp, rfl, rfl, rfl⟩
  | admitted g asked =>
    obtain ⟨failures, hp, _, hc⟩ | ⟨since, hp, _, hc⟩ | ⟨issued, successes, hp, _, _, hc⟩ :=
      Circuit.acquire_some asked
    · rw [hc]
      exact .inl ⟨trivial, by simp, by simp [hp, Phase.state], rfl, rfl, rfl⟩
    · rw [hc]
      exact .inr (.inr (.inr (.inl ⟨_, rfl, by rw [hp]; rfl, Circuit.enter_phase⟩)))
    · rw [hc]
      refine .inl ⟨trivial, by simp, ?_, ?_, ?_, ?_⟩ <;> simp [hp, Phase.state, Phase.counts]
  | refused asked =>
    rw [Circuit.acquire_none asked]
    exact .inl ⟨trivial, by simp, by simp, rfl, rfl, rfl⟩
  | ended n g failure held =>
    by_cases hg : g = c.generation
    · have heff := (hr.effective_iff held).mpr hg
      subst hg
      cases failure with
      | true =>
        exact .inr (.inr (.inr (.inr (.inl ⟨n, rfl, heff, Circuit.settle_failure_phase⟩))))
      | false =>
        exact .inr (.inr (.inr (.inr (.inr ⟨n, rfl, heff, Circuit.settle_success_phase⟩))))
    · have hstale : h.effective n = false :=
        Bool.eq_false_iff.mpr (mt (hr.effective_iff held).mp hg)
      rw [Circuit.settle_stale hg]
      exact .inl ⟨hstale, by simp, by simp, rfl, rfl, rfl⟩
  | dropped n g held =>
    obtain hc | ⟨issued, successes, hp, hc⟩ := Circuit.release_eq c g
    · rw [hc]
      exact .inl ⟨trivial, by simp, by simp, rfl, rfl, rfl⟩
    · rw [hc]
      refine .inl ⟨trivial, by simp, by simp, ?_, ?_, ?_⟩ <;> simp [hp, Phase.state, Phase.counts]
  | forced => exact .inr (.inl ⟨rfl, Circuit.enter_phase⟩)
  | reset => exact .inr (.inr (.inl ⟨rfl, Circuit.enter_phase⟩))

theorem failures_closed (hr : Recounts c ps h) {n : Nat} (hp : c.phase = .closed n) :
    n = h.failures := by
  have := hr.failures (by simp [hp, Phase.state])
  simpa [hp, Phase.counts] using this

theorem successes_halfOpen (hr : Recounts c ps h) {issued successes : Nat}
    (hp : c.phase = .halfOpen issued successes) : successes = h.successes := by
  have := hr.successes (by simp [hp, Phase.state])
  simpa [hp, Phase.counts] using this

theorem failed (hr : Recounts c ps h) {n : Nat} (hd : Dealt now c ps (.ended n true) c' ps')
    (heff : h.effective n = true) (hphase : c'.phase = c.afterFailure now) :
    Recounts c' ps' (⟨.ended n true, c'.phase.state⟩ :: h) := by
  cases hp : c.phase with
  | closed failures =>
    by_cases hlast : c.threshold ≤ failures + 1
    · have hopened : c'.phase = .opened now := by
        rw [hphase]
        simp only [Circuit.afterFailure, hp, if_pos hlast]
      exact hr.opened hd hopened
    · have hclosed : c'.phase = .closed (failures + 1) := by
        rw [hphase]
        simp only [Circuit.afterFailure, hp, if_neg hlast]
      have hstate : c'.phase.state = h.state := by
        rw [hclosed, ← hr.state, hp]
        rfl
      apply hr.closed hd hclosed
      · rw [History.failures_failure hstate heff, hr.failures_closed hp]
      · exact Nat.not_le.mp hlast
  | opened since =>
    have hopened : c'.phase = .opened now := by
      rw [hphase]
      simp only [Circuit.afterFailure, hp]
    exact hr.opened hd hopened
  | halfOpen issued successes =>
    have hopened : c'.phase = .opened now := by
      rw [hphase]
      simp only [Circuit.afterFailure, hp]
    exact hr.opened hd hopened

theorem succeeded (hr : Recounts c ps h) {n : Nat} (hd : Dealt now c ps (.ended n false) c' ps')
    (heff : h.effective n = true) (hphase : c'.phase = c.afterSuccess) :
    Recounts c' ps' (⟨.ended n false, c'.phase.state⟩ :: h) := by
  have hnone : ∀ after, History.failures (⟨.ended n false, after⟩ :: h) = 0 := fun _ =>
    History.failures_success heff
  cases hp : c.phase with
  | closed failures =>
    have hclosed : c'.phase = .closed 0 := by
      rw [hphase]
      simp only [Circuit.afterSuccess, hp]
    exact hr.closed hd hclosed (hnone _).symm hr.threshold
  | opened since =>
    have hopened : c'.phase = .opened since := by
      rw [hphase]
      simp only [Circuit.afterSuccess, hp]
    exact hr.opened hd hopened
  | halfOpen issued successes =>
    by_cases hlast : c.probes ≤ successes + 1
    · have hclosed : c'.phase = .closed 0 := by
        rw [hphase]
        simp only [Circuit.afterSuccess, hp, if_pos hlast]
      exact hr.closed hd hclosed (hnone _).symm hr.threshold
    · have hhalf : c'.phase = .halfOpen issued (successes + 1) := by
        rw [hphase]
        simp only [Circuit.afterSuccess, hp, if_neg hlast]
      have hstate : c'.phase.state = h.state := by
        rw [hhalf, ← hr.state, hp]
        rfl
      apply hr.halfOpen hd hhalf (hnone _)
      · rw [History.successes_success hstate heff, hr.successes_halfOpen hp]
      · exact Nat.not_le.mp hlast

end Recounts

/-- **Whatever happens at a circuit, its history tells where it is.** -/
theorem Dealt.recounts (hd : Dealt now c ps x c' ps') (hr : Recounts c ps h) :
    Recounts c' ps' (⟨x, c'.phase.state⟩ :: h) := by
  obtain ⟨hquiet, _, _, hs, hfailures, hsuccesses⟩ | ⟨_, hphase⟩ | ⟨hx, hphase⟩ |
      ⟨n, _, hopened, hphase⟩ | ⟨n, hx, heff, hphase⟩ | ⟨n, hx, heff, hphase⟩ :=
    hr.phase_cases hd
  · exact hr.quiet hd hquiet hs hfailures hsuccesses
  · exact hr.opened hd hphase
  · apply hr.closed hd hphase
    · rw [hx, History.failures_reset]
    · exact hr.threshold
  · have hstate : c'.phase.state ≠ h.state := by
      rw [hphase, ← hr.state, hopened]
      simp [Phase.state]
    apply hr.halfOpen hd hphase (History.failures_changed hstate)
    · rw [History.successes_changed hstate]
    · exact hr.budget
  · subst hx
    exact hr.failed hd heff hphase
  · subst hx
    exact hr.succeeded hd heff hphase

/-! ### What the history explains -/

/-- What a deed does to a circuit is what its history says: `c` and `c'` are the circuit
    before and after the deed `x`, and `h` is the history before it. -/
structure Explained (threshold budget : Nat) (h : History) (x : Deed) (c c' : Circuit) :
    Prop where
  state : c.phase.state = h.state
  next : c'.phase.state = h.next threshold budget x
  /-- A closed circuit counts the failures in a row. -/
  failures : ∀ n, c.phase = .closed n → n = h.failures
  closed_opened : c.phase.state = .closed →
    (c'.phase.state = .opened ↔ x = .forced ∨
      ∃ n, x = .ended n true ∧ h.effective n = true ∧ h.failures + 1 = threshold)
  closed_halfOpen : c.phase.state = .closed → c'.phase.state ≠ .halfOpen
  halfOpen_closed : c.phase.state = .halfOpen →
    (c'.phase.state = .closed ↔ x = .reset ∨
      ∃ n, x = .ended n false ∧ h.effective n = true ∧ h.successes + 1 = budget)
  halfOpen_opened : c.phase.state = .halfOpen →
    (c'.phase.state = .opened ↔ x = .forced ∨ ∃ n, x = .ended n true ∧ h.effective n = true)
  /-- So the failure that opens a half-open circuit is the first of its episode. -/
  halfOpen_failures : c.phase.state = .halfOpen → h.failures = 0
  opened_halfOpen : c.phase.state = .opened →
    (c'.phase.state = .halfOpen ↔ ∃ n, x = .admitted n)
  opened_closed : c.phase.state = .opened → (c'.phase.state = .closed ↔ x = .reset)
  /-- An outcome that takes no effect changes nothing. -/
  stale : ∀ n failure, x = .ended n failure → h.effective n = false → c' = c
  /-- A call that is given up gives its probe back and changes nothing else. -/
  dropped : ∀ n, x = .dropped n → c' = c ∨ ∃ issued successes,
    c.phase = .halfOpen issued successes ∧
      c' = { c with phase := .halfOpen (issued - 1) successes }

/-- The state after a deed is the one that the history says. -/
theorem Recounts.next (hr : Recounts c ps h) (hd : Dealt now c ps x c' ps') :
    c'.phase.state = h.next c.threshold c.probes x := by
  have hbelowThreshold := hr.belowThreshold
  have hbelowBudget := hr.belowBudget
  obtain ⟨hquiet, hforced, hadmitted, hs, _, _⟩ | ⟨hx, hphase⟩ | ⟨hx, hphase⟩ |
      ⟨n, hx, hopened, hphase⟩ | ⟨n, hx, heff, hphase⟩ | ⟨n, hx, heff, hphase⟩ :=
    hr.phase_cases hd
  · rw [hs, hr.state]
    rw [hr.state] at hadmitted
    exact (History.next_quiet hquiet hforced hadmitted).symm
  · rw [hphase, hx]
    rfl
  · rw [hphase, hx]
    rfl
  · rw [hr.state] at hopened
    rw [hphase, hx]
    simp [History.next, hopened, Phase.state]
  · rw [hphase, hx]
    cases hp : c.phase with
    | closed failures =>
      have hstate : h.state = .closed := by rw [← hr.state, hp]; rfl
      have hcount := hr.failures_closed hp
      have hlast : c.threshold ≤ failures + 1 ↔ h.failures + 1 = c.threshold := by
        simp only [hp, Phase.counts] at hbelowThreshold
        omega
      by_cases hopens : h.failures + 1 = c.threshold
      · simp [History.next, Circuit.afterFailure, hp, heff, hstate, hlast, hopens, Phase.state]
      · simp [History.next, Circuit.afterFailure, hp, heff, hstate, hlast, hopens, Phase.state]
    | opened since =>
      have hstate : h.state = .opened := by rw [← hr.state, hp]; rfl
      simp [History.next, Circuit.afterFailure, hp, heff, hstate, Phase.state]
    | halfOpen issued successes =>
      have hstate : h.state = .halfOpen := by rw [← hr.state, hp]; rfl
      simp [History.next, Circuit.afterFailure, hp, heff, hstate, Phase.state]
  · rw [hphase, hx]
    cases hp : c.phase with
    | closed failures =>
      have hstate : h.state = .closed := by rw [← hr.state, hp]; rfl
      simp [History.next, Circuit.afterSuccess, hp, heff, hstate, Phase.state]
    | opened since =>
      have hstate : h.state = .opened := by rw [← hr.state, hp]; rfl
      simp [History.next, Circuit.afterSuccess, hp, heff, hstate, Phase.state]
    | halfOpen issued successes =>
      have hstate : h.state = .halfOpen := by rw [← hr.state, hp]; rfl
      have hcount := hr.successes_halfOpen hp
      have hlast : c.probes ≤ successes + 1 ↔ h.successes + 1 = c.probes := by
        simp only [hp, Phase.counts] at hbelowBudget
        omega
      by_cases hcloses : h.successes + 1 = c.probes
      · simp [History.next, Circuit.afterSuccess, hp, heff, hstate, hlast, hcloses, Phase.state]
      · simp [History.next, Circuit.afterSuccess, hp, heff, hstate, hlast, hcloses, Phase.state]

/-- An outcome that takes no effect leaves the circuit alone. -/
theorem Recounts.stale (hr : Recounts c ps h) {n : Nat} {failure : Bool}
    (hd : Dealt now c ps (.ended n failure) c' ps') (hn : h.effective n = false) : c' = c := by
  cases hd with
  | ended n g failure held =>
    apply Circuit.settle_stale
    intro hg
    rw [(hr.effective_iff held).mpr hg] at hn
    cases hn

/-- **The simulation explains every deed.** -/
theorem Recounts.explained (hr : Recounts c ps h) (hd : Dealt now c ps x c' ps') :
    Explained c.threshold c.probes h x c c' := by
  have hnext := hr.next hd
  refine ⟨hr.state, hnext, ?_, ?_, ?_, ?_, ?_, ?_, ?_, ?_, ?_, ?_⟩
  · intro n hp
    exact hr.failures_closed hp
  · intro hc
    rw [hnext]
    exact History.next_closed_eq_opened_iff (hr.state ▸ hc)
  · intro hc
    rw [hnext]
    exact History.next_closed_ne_halfOpen (hr.state ▸ hc)
  · intro hc
    rw [hnext]
    exact History.next_halfOpen_eq_closed_iff (hr.state ▸ hc)
  · intro hc
    rw [hnext]
    exact History.next_halfOpen_eq_opened_iff (hr.state ▸ hc)
  · intro hc
    obtain ⟨issued, successes, hp⟩ := Phase.eq_halfOpen hc
    have hcount := hr.failures (by rw [hc]; simp)
    rw [← hcount, hp]
    rfl
  · intro hc
    rw [hnext]
    exact History.next_opened_eq_halfOpen_iff (hr.state ▸ hc)
  · intro hc
    rw [hnext]
    exact History.next_opened_eq_closed_iff (hr.state ▸ hc)
  · intro n failure hx hn
    subst hx
    exact hr.stale hd hn
  · intro n hx
    subst hx
    cases hd with
    | dropped n g held => exact Circuit.release_eq c g

/-! ### Under traffic -/

variable {π η : Type}

/-- The history of a run, on top of what had happened before it. -/
def Guarded.record (o : BreakerOptions) (P : Pipeline π η) (t : Callers P) :
    List (Move π η) → History → History
  | [], h => h
  | m :: moves, h =>
    let after := move o P t m
    record o P after moves (⟨deed o P t m, after.state.own.phase.state⟩ :: h)

theorem Guarded.record_concat (o : BreakerOptions) (P : Pipeline π η) (t : Callers P)
    (moves : List (Move π η)) (m : Move π η) (h : History) :
    record o P t (moves ++ [m]) h =
      ⟨deed o P ((P.guarded o).run t moves) m,
        (move o P ((P.guarded o).run t moves) m).state.own.phase.state⟩ ::
      record o P t moves h := by
  induction moves generalizing t h with
  | nil => rfl
  | cons m' moves ih => exact ih (move o P t m') _

/-- The history of a circuit breaker around a pipeline. -/
def Deployment.guardedHistory (d : Deployment π η) (spec : BreakerSpec) (now : Instant)
    (moves : List (Move π η)) : History :=
  Guarded.record spec.options d.pipeline ((d.guarded spec now).opened now) moves []

theorem Deployment.guardedAfter_concat (d : Deployment π η) (spec : BreakerSpec) (now : Instant)
    (moves : List (Move π η)) (m : Move π η) :
    d.guardedAfter spec now (moves ++ [m]) =
      Guarded.move spec.options d.pipeline (d.guardedAfter spec now moves) m :=
  Pipeline.run_concat _ moves m

theorem recounts_record {o : BreakerOptions} (on : o.enabled = true) (P : Pipeline π η)
    {moves : List (Move π η)} (hm : ∀ m ∈ moves, m.Orderly) (t : Guarded.Callers P)
    (hr : Recounts t.state.own (Guarded.permits t) h) :
    let t' : Guarded.Callers P := (P.guarded o).run t moves
    Recounts t'.state.own (Guarded.permits t') (Guarded.record o P t moves h) ∧
      t'.state.own.threshold = t.state.own.threshold ∧
      t'.state.own.probes = t.state.own.probes := by
  induction moves generalizing t h with
  | nil => exact ⟨hr, rfl, rfl⟩
  | cons m moves ih =>
    have hd := Guarded.dealt_move on t (hm m (by simp))
    obtain ⟨hr', hthreshold, hprobes⟩ :=
      ih (fun m' hm' => hm m' (by simp [hm'])) (Guarded.move o P t m) (hd.recounts hr)
    exact ⟨hr', hthreshold.trans hd.follows.threshold, hprobes.trans hd.follows.probes⟩

theorem recounts_circuit (spec : BreakerSpec) (now : Instant) :
    Recounts (spec.circuit now) [] [] where
  threshold := Nat.le_max_right spec.threshold 1
  budget := Nat.le_max_right spec.probes 1
  state := rfl
  past := by simp
  current := by simp
  failures := fun _ => rfl
  successes := fun _ => rfl
  belowThreshold := Nat.le_max_right spec.threshold 1
  belowBudget := Nat.le_max_right spec.probes 1

/-- **A circuit breaker follows its history.**  Wherever a run of an enabled breaker has got,
    what the next move comes to changes the circuit as the history says. -/
theorem guarded_follows_history (d : Deployment π η) (spec : BreakerSpec)
    (on : spec.enabled = true) (now : Instant) (moves : List (Move π η)) (m : Move π η)
    (hm : ∀ m' ∈ moves ++ [m], m'.Orderly) :
    let h := d.guardedHistory spec now moves
    let x := Guarded.deed spec.options d.pipeline (d.guardedAfter spec now moves) m
    let c := (d.guardedAfter spec now moves).state.own
    let c' := (d.guardedAfter spec now (moves ++ [m])).state.own
    d.guardedHistory spec now (moves ++ [m]) = ⟨x, c'.phase.state⟩ :: h ∧
      Explained (max spec.threshold 1) (max spec.probes 1) h x c c' := by
  intro h x c c'
  have hbefore : ∀ m' ∈ moves, m'.Orderly := fun m' hm' => hm m' (by simp [hm'])
  obtain ⟨hr, hthreshold, hprobes⟩ :=
    recounts_record (o := spec.options) on d.pipeline hbefore ((d.guarded spec now).opened now)
      (recounts_circuit spec now)
  have hd := Guarded.dealt_move (o := spec.options) on (d.guardedAfter spec now moves)
    (hm m (by simp))
  have hexplained := Recounts.explained hr hd
  have hc' : c' =
      (Guarded.move spec.options d.pipeline (d.guardedAfter spec now moves) m).state.own :=
    congrArg (fun t : Guarded.Callers d.pipeline => t.state.own)
      (d.guardedAfter_concat spec now moves m)
  refine ⟨?_, ?_⟩
  · rw [hc']
    exact Guarded.record_concat spec.options d.pipeline _ moves m []
  · rw [hc']
    rw [hthreshold, hprobes] at hexplained
    exact hexplained

/-- The second failure in a row opens the circuit, though the two calls overlapped. -/
theorem opened_by_second_failure :
    let r : Http.Request := ⟨"GET", ⟨"/", none⟩, [], none, none⟩
    let down : Option ScriptedAnswer := some (.error (.message "down"))
    let spec : BreakerSpec := { threshold := 2 }
    let moves : List (Move Errand Handler) := [.call r ⟨"a", down⟩, .call r ⟨"b", down⟩, .poll 1]
    (Deployment.guardedAfter ⟨Handler.pipeline, .fresh, []⟩ spec 0
      (moves ++ [.poll 0])).state.own.phase.state = .opened := by
  intro r down spec moves
  have hexplained := (guarded_follows_history ⟨Handler.pipeline, .fresh, []⟩ spec rfl 0 moves
    (.poll 0) (by simp [moves, Move.Orderly])).2
  exact (hexplained.closed_opened rfl).mpr (.inr ⟨0, rfl, rfl, rfl⟩)

end Floodgate
