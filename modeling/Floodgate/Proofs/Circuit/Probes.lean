/-
  Floodgate/Proofs/Circuit/Probes.lean
  ====================================
  **A half-open circuit keeps account of its probes.**  The probes that a half-open
  circuit counts as issued are those that succeeded and those whose calls are still
  under way, whatever calls of earlier episodes do meanwhile (`Balanced`).  So a
  half-open circuit refuses a call only while as many probes as it may admit have
  succeeded or are under way, and it cannot get stuck: with no probe under way it
  admits the next call (`halfOpen_never_stuck`).
-/
import Floodgate.Proofs.Circuit.Permits
import Floodgate.Session.Handler

namespace Floodgate

/-! ### The account -/

/-- A circuit and the permits that calls hold agree. -/
structure Balanced (c : Circuit) (ps : Permits) : Prop where
  budget : 1 ≤ c.probes
  /-- No permit is from a generation to come. -/
  past : ∀ g, some g ∈ ps → g ≤ c.generation
  /-- Probes are given away until the budget is used up, and enough successes end the episode. -/
  probing : ∀ issued successes, c.phase = .halfOpen issued successes →
    issued = successes + ps.held c.generation ∧ issued ≤ c.probes ∧ successes < c.probes
  /-- An open circuit admits nobody. -/
  resting : c.phase.state = .opened → ps.held c.generation = 0

variable {now : Instant} {c c' : Circuit} {ps ps' : Permits} {g : Generation}

theorem held_next (past : ∀ g, some g ∈ ps → g ≤ c.generation) :
    ps.held (c.generation + 1) = 0 := by
  apply Permits.held_eq_zero
  intro hmem
  exact Nat.not_succ_le_self _ (past _ hmem)

/-- A circuit that opens or closes keeps account, whatever probes it had. -/
theorem balanced_enter (now : Instant) {next : Phase} (hnext : next.state ≠ .halfOpen)
    (hbudget : 1 ≤ c.probes) (past : ∀ g, some g ∈ ps → g ≤ c.generation)
    (resting : c.phase.state = .opened → ps.held c.generation = 0) :
    Balanced (c.enter now next).1 ps := by
  have hf := Circuit.follows_enter c now next
  refine ⟨?_, ?_, ?_, ?_⟩
  · rw [hf.probes]
    exact hbudget
  · intro g hg
    have hle := past g hg
    by_cases hs : c.phase.state = next.state
    · rw [Circuit.enter_generation_same hs]
      exact hle
    · rw [Circuit.enter_generation_other hs]
      exact Nat.le_succ_of_le hle
  · intro issued successes hphase
    rw [Circuit.enter_phase] at hphase
    exact absurd (by rw [hphase]; rfl) hnext
  · intro hopened
    rw [Circuit.enter_phase] at hopened
    by_cases hs : c.phase.state = next.state
    · rw [Circuit.enter_generation_same hs]
      exact resting (hs.trans hopened)
    · rw [Circuit.enter_generation_other hs]
      exact held_next past

namespace Balanced

theorem admitted (hb : Balanced c ps) (h : (c.acquire now).1 = some g) :
    Balanced (c.acquire now).2.1 (ps ++ [some g]) := by
  have hpast : ∀ g', some g' ∈ ps ++ [some g] → g' ≤ c.generation ∨ g' = g := by
    intro g' hmem
    rcases List.mem_append.mp hmem with hold | hnew
    · exact .inl (hb.past g' hold)
    · exact .inr (by simpa using hnew)
  obtain ⟨failures, hp, hg, hc⟩ | ⟨since, hp, hg, hc⟩ | ⟨issued, successes, hp, hlt, hg, hc⟩ :=
    Circuit.acquire_some h
  · rw [hc]
    refine ⟨hb.budget, ?_, ?_, ?_⟩
    · intro g' hmem
      rcases hpast g' hmem with hle | heq
      · exact hle
      · exact Nat.le_of_eq (heq.trans hg)
    · intro issued successes hphase
      rw [hp] at hphase
      cases hphase
    · intro hopened
      rw [hp] at hopened
      cases hopened
  · -- the first probe of a new episode
    have hstate : c.phase.state ≠ (Phase.halfOpen 1 0).state := by simp [hp, Phase.state]
    have hgen : (c.enter now (.halfOpen 1 0)).1.generation = c.generation + 1 :=
      Circuit.enter_generation_other hstate
    rw [hc]
    refine ⟨by simpa using hb.budget, ?_, ?_, ?_⟩
    · intro g' hmem
      rw [hgen]
      rcases hpast g' hmem with hle | heq
      · exact Nat.le_succ_of_le hle
      · exact Nat.le_of_eq (heq.trans hg)
    · intro issued successes hphase
      rw [Circuit.enter_phase] at hphase
      cases hphase
      rw [hgen, hg, Permits.held_append_some, held_next hb.past, Circuit.enter_probes, if_pos rfl]
      exact ⟨rfl, hb.budget, hb.budget⟩
    · intro hopened
      rw [Circuit.enter_phase] at hopened
      cases hopened
  · obtain ⟨hissued, _, hsuccesses⟩ := hb.probing issued successes hp
    rw [hc]
    refine ⟨hb.budget, ?_, ?_, ?_⟩
    · intro g' hmem
      rcases hpast g' hmem with hle | heq
      · exact hle
      · exact Nat.le_of_eq (heq.trans hg)
    · intro issued' successes' hphase
      cases hphase
      show issued + 1 = successes + Permits.held (ps ++ [some g]) c.generation ∧
        issued + 1 ≤ c.probes ∧ successes < c.probes
      rw [hg, Permits.held_append_some, if_pos rfl]
      omega
    · intro hopened
      cases hopened

/-- A call from before the latest change of state gives its permit back. -/
theorem stale (hb : Balanced c ps) {n : Nat} (held : ps[n]? = some (some g))
    (hg : g ≠ c.generation) : Balanced c (ps.set n none) := by
  have hsame : Permits.held (ps.set n none) c.generation = ps.held c.generation := by
    rw [Permits.held_set held, if_neg hg, Nat.sub_zero]
  refine ⟨hb.budget, fun g' hmem => hb.past g' (Permits.mem_of_mem_set hmem), ?_, ?_⟩
  · rw [hsame]
    exact hb.probing
  · rw [hsame]
    exact hb.resting

theorem held_set_current {n : Nat} (held : ps[n]? = some (some c.generation)) :
    Permits.held (ps.set n none) c.generation + 1 = ps.held c.generation := by
  have hpos := Permits.held_pos held
  rw [Permits.held_set held, if_pos rfl]
  omega

theorem ended (hb : Balanced c ps) {n : Nat} (held : ps[n]? = some (some g)) (failure : Bool) :
    Balanced (c.settle now g failure).1 (ps.set n none) := by
  by_cases hg : g = c.generation
  · subst hg
    have hone := held_set_current held
    have hpast : ∀ g, some g ∈ ps.set n none → g ≤ c.generation := fun g' hmem =>
      hb.past g' (Permits.mem_of_mem_set hmem)
    have hresting : c.phase.state = .opened → Permits.held (ps.set n none) c.generation = 0 := by
      intro hopened
      have := hb.resting hopened
      omega
    cases failure with
    | true =>
      have hentered := balanced_enter now (Circuit.afterFailure_ne_halfOpen c now)
        hb.budget hpast hresting
      rw [Circuit.settle_failure]
      exact ⟨hentered.budget, hentered.past, hentered.probing, hentered.resting⟩
    | false =>
      rw [Circuit.settle_success]
      obtain hnext | ⟨issued, successes, hp, hlast, hafter⟩ := Circuit.afterSuccess_cases c
      · exact balanced_enter now hnext hb.budget hpast hresting
      · -- the episode goes on with a success more and a probe under way less
        obtain ⟨hissued, hle, _⟩ := hb.probing issued successes hp
        have hgen : (c.enter now (.halfOpen issued (successes + 1))).1.generation =
            c.generation := Circuit.enter_generation_same (by simp [hp, Phase.state])
        rw [hafter]
        refine ⟨by simpa using hb.budget, ?_, ?_, ?_⟩
        · rw [hgen]
          exact hpast
        · intro issued' successes' hphase
          rw [Circuit.enter_phase] at hphase
          cases hphase
          rw [hgen, Circuit.enter_probes]
          omega
        · intro hopened
          rw [Circuit.enter_phase] at hopened
          cases hopened
  · rw [Circuit.settle_stale hg]
    exact hb.stale held hg

theorem dropped (hb : Balanced c ps) {n : Nat} (held : ps[n]? = some (some g)) :
    Balanced (c.release g) (ps.set n none) := by
  by_cases hg : g = c.generation
  · subst hg
    have hone := held_set_current held
    have hpast : ∀ g, some g ∈ ps.set n none → g ≤ c.generation := fun g' hmem =>
      hb.past g' (Permits.mem_of_mem_set hmem)
    cases hp : c.phase with
    | closed failures =>
      rw [Circuit.release_other (by simp [hp, Phase.state])]
      refine ⟨hb.budget, hpast, ?_, ?_⟩
      · intro issued successes hphase
        rw [hp] at hphase
        cases hphase
      · intro hopened
        rw [hp] at hopened
        cases hopened
    | opened since =>
      have := hb.resting (by rw [hp]; rfl)
      omega
    | halfOpen issued successes =>
      obtain ⟨hissued, hle, hlt⟩ := hb.probing issued successes hp
      rw [Circuit.release_halfOpen hp]
      refine ⟨hb.budget, hpast, ?_, ?_⟩
      · intro issued' successes' hphase
        cases hphase
        show issued - 1 = successes + Permits.held (ps.set n none) c.generation ∧
          issued - 1 ≤ c.probes ∧ successes < c.probes
        omega
      · intro hopened
        cases hopened
  · rw [Circuit.release_stale hg]
    exact hb.stale held hg

end Balanced

/-- **Whatever happens at a circuit, it keeps account of its probes.** -/
theorem Dealt.balanced {x : Deed} (h : Dealt now c ps x c' ps') (hb : Balanced c ps) :
    Balanced c' ps' := by
  cases h with
  | idle => exact hb
  | skipped =>
    refine ⟨hb.budget, ?_, ?_, ?_⟩
    · intro g hmem
      exact hb.past g (by simpa using hmem)
    · simpa using hb.probing
    · simpa using hb.resting
  | admitted g asked => exact hb.admitted asked
  | refused asked =>
    rw [Circuit.acquire_none asked]
    refine ⟨hb.budget, ?_, ?_, ?_⟩
    · intro g hmem
      exact hb.past g (by simpa using hmem)
    · simpa using hb.probing
    · simpa using hb.resting
  | ended n g failure held => exact hb.ended held failure
  | dropped n g held => exact hb.dropped held
  | forced => exact balanced_enter now (by simp [Phase.state]) hb.budget hb.past hb.resting
  | reset =>
    have hnext : (Phase.closed 0).state ≠ .halfOpen := by simp [Phase.state]
    have hclosed := balanced_enter now hnext hb.budget hb.past hb.resting
    exact ⟨hclosed.budget, hclosed.past, hclosed.probing, hclosed.resting⟩

/-! ### Under traffic -/

variable {π η : Type}

/-- A circuit breaker around a pipeline, after a run of its callers. -/
def Deployment.guardedAfter (d : Deployment π η) (spec : BreakerSpec) (now : Instant)
    (moves : List (Move π η)) : Guarded.Callers d.pipeline :=
  (d.guarded spec now).pipeline.run ((d.guarded spec now).opened now) moves

/-- A new circuit has no probes to account for. -/
theorem balanced_circuit (spec : BreakerSpec) (now : Instant) : Balanced (spec.circuit now) [] where
  budget := Nat.le_max_right spec.probes 1
  past := by
    intro g hmem
    cases hmem
  probing := by
    intro issued successes hphase
    cases hphase
  resting := by
    intro hopened
    cases hopened

/-- **Every circuit keeps account of its probes**, and its budget is the one that was set. -/
theorem balanced_guardedAfter (d : Deployment π η) {spec : BreakerSpec} (on : spec.enabled = true)
    (now : Instant) {moves : List (Move π η)} (hm : ∀ m ∈ moves, m.Orderly) :
    Balanced (d.guardedAfter spec now moves).state.own
        (Guarded.permits (d.guardedAfter spec now moves)) ∧
      (d.guardedAfter spec now moves).state.own.probes = max spec.probes 1 := by
  let Inv (t : Guarded.Callers d.pipeline) : Prop :=
    Balanced t.state.own (Guarded.permits t) ∧ t.state.own.probes = max spec.probes 1
  have hstep : ∀ (t : Guarded.Callers d.pipeline) (m : Move π η), m.Orderly → Inv t →
      Inv (Guarded.move spec.options d.pipeline t m) := by
    intro t m hm ⟨hb, hprobes⟩
    have hdealt := Guarded.dealt_move (o := spec.options) on t hm
    exact ⟨hdealt.balanced hb, hdealt.follows.probes.trans hprobes⟩
  exact Pipeline.run_invariant (P := d.pipeline.guarded spec.options) (I := Inv) hstep
    ⟨balanced_circuit spec now, rfl⟩ moves hm

/-- **A half-open circuit never gets stuck.**  After any run of an enabled breaker, the probes
    that were issued are those that succeeded and those under way, within the budget; a call
    is refused exactly while these use the budget up, and is let through whenever no probe is
    under way.  No call under way was let through by a circuit that is open now. -/
theorem halfOpen_never_stuck (d : Deployment π η) (spec : BreakerSpec) (on : spec.enabled = true)
    (now : Instant) (moves : List (Move π η)) (hm : ∀ m ∈ moves, m.Orderly) :
    let t := d.guardedAfter spec now moves
    let budget := max spec.probes 1
    let unfinished := (Guarded.permits t).held t.state.own.generation
    (∀ issued successes, t.state.own.phase = .halfOpen issued successes →
      issued = successes + unfinished ∧ issued ≤ budget ∧ successes < budget ∧
      (∀ later r p, (Guarded.start spec.options d.pipeline.toService later r p t.state).value =
          .rejected ↔ budget ≤ successes + unfinished) ∧
      (unfinished = 0 → ∀ later r p, ∃ inner,
        (Guarded.start spec.options d.pipeline.toService later r p t.state).value =
          .admitted t.state.own.generation inner)) ∧
    (∀ since, t.state.own.phase = .opened since → unfinished = 0) := by
  intro t budget unfinished
  obtain ⟨hb, hprobes⟩ := balanced_guardedAfter d on now hm
  refine ⟨?_, ?_⟩
  · intro issued successes hp
    obtain ⟨hissued, hle, hlt⟩ : issued = successes + unfinished ∧ _ :=
      hb.probing issued successes hp
    rw [hprobes] at hle hlt
    have hrefused : ∀ later r p,
        (Guarded.start spec.options d.pipeline.toService later r p t.state).value = .rejected ↔
          budget ≤ successes + unfinished := by
      intro later r p
      rw [Guarded.start_rejected_iff on, Circuit.acquire_halfOpen_eq_none_iff hp, hprobes, hissued]
    refine ⟨hissued, hle, hlt, hrefused, ?_⟩
    intro hnone later r p
    have hroom : issued < t.state.own.probes := by
      have hsame : issued = successes := hissued.trans (by rw [hnone, Nat.add_zero])
      rw [hprobes, hsame]
      exact hlt
    exact ⟨_, Guarded.start_admitted on (Circuit.acquire_halfOpen_of_lt hp hroom)⟩
  · intro since hp
    exact hb.resting (by rw [hp]; rfl)

/-- The breaker of a service that failed once: two probes are all that it may admit, and while
    both are under way every request is turned away. -/
theorem turned_away_behind_two_probes :
    let r : Http.Request := ⟨"GET", ⟨"/", none⟩, [], none, none⟩
    let spec : BreakerSpec := { threshold := 1, cooldown := 5, probes := 2 }
    let moves : List (Move Errand Handler) :=
      [.call r ⟨"a", some (.error (.message "down"))⟩, .poll 0, .advance 5,
        .call r ⟨"b", none⟩, .call r ⟨"c", none⟩]
    let t := Deployment.guardedAfter ⟨Handler.pipeline, .fresh, []⟩ spec 0 moves
    t.state.own.phase = .halfOpen 2 0 ∧
      ∀ later p, (Guarded.start spec.options Handler.service later r p t.state).value =
        .rejected := by
  intro r spec moves t
  have hphase : t.state.own.phase = .halfOpen 2 0 := rfl
  refine ⟨hphase, ?_⟩
  intro later p
  have hprobes := (halfOpen_never_stuck ⟨Handler.pipeline, .fresh, []⟩ spec rfl 0 moves
    (by simp [moves, Move.Orderly])).1 2 0 hphase
  exact (hprobes.2.2.2.1 later r p).mpr (by decide)

end Floodgate
