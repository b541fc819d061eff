/-
  Floodgate/Proofs/Pipeline/Edge.lean
  ===================================
  **The edge under traffic.**  Rendering and admission control stand in front of the
  breaker and pass calls on or keep them; so the traffic of an edge is traffic of its
  breaker, of its coalescer, and of what is behind them, under the same numbers.

  The breaker hears of calls and not of executions.  It takes as many failures as its
  threshold to open it (`edge_opened_by_failures`), but these need not be failures of
  the handler: callers who waited for a leader that failed count once each, and so do
  those who waited for one that was given up, though nothing may have failed at all
  (`edge_opened_by_waiters`).
-/
import Floodgate.Proofs.Pipeline.Opening
import Floodgate.Gzip.Deflate

namespace Floodgate

/-! ### The stages of the edge -/

section

variable {π η : Type} (c : Gzip.Codec) (e : EdgeSpec) (P : Pipeline π η)

/-- The stages of the edge behind the coalescer. -/
def EdgeSpec.source : Pipeline π η :=
  (P.metered e.meter.options e.meter.saved).compressed c e.compressor.options

/-- The stages of the edge from its breaker inwards. -/
def EdgeSpec.guarded : Pipeline π η :=
  ((e.source c P).coalesced e.coalescer.options).guarded e.breaker.options

/-- The record of executions, as it is known behind the coalescer. -/
def EdgeSpec.executing : Executing (e.source c P.recorded) :=
  Compressed.executing c e.compressor.options
    (Metered.executing e.meter.options e.meter.saved (Recorded.executing P))

end

namespace Deployment

variable {π η : Type} (c : Gzip.Codec) (e : EdgeSpec) (now : Instant) (d : Deployment π η)

/-- From the callers of the edge to its breaker. -/
def edgePassage : Passage (d.edge c e now).pipeline (e.guarded c d.pipeline) :=
  (Passage.unseen ((e.guarded c d.pipeline).limited e.limiter.options).rendered _).trans
    ((Rendered.front ((e.guarded c d.pipeline).limited e.limiter.options)).passage.trans
      (Limited.front e.limiter.options (e.guarded c d.pipeline)).passage)

end Deployment

/-- What is to be seen of an edge after a run of its callers. -/
structure Watch where
  /-- Number of calls made. -/
  calls : Nat
  circuit : Circuit
  /-- Executions of what the edge protects. -/
  log : Log
  /-- Executions, leaders and waiters among the calls. -/
  cast : Cast

/-- Watches the edge around a deployment whose executions are put on record. -/
def Deployment.watch {π η : Type} (c : Gzip.Codec) (e : EdgeSpec) (now : Instant)
    (d : Deployment π η) (moves : List (Move π η)) : Watch :=
  let edge := d.recorded.edge c e now
  let A := d.recorded.edgePassage c e now
  let X := e.executing c d.pipeline
  let after := edge.pipeline.run (edge.opened now) moves
  { calls := after.slots.length
    circuit := A.circuit after
    log := A.inside.log X after
    cast := A.inside.castAfter X (edge.opened now) moves .empty }

open Coalesced (LetDown)

/-- **The breaker of the edge opens on as many failures as its threshold since it closed**: of
    executions begun since, and of callers who have waited since for leaders that failed or
    were given up. -/
theorem edge_opened_by_failures {π η : Type} (c : Gzip.Codec) (e : EdgeSpec)
    (on : e.settings.breaker.enabled = true) (now : Instant) (d : Deployment π η)
    (moves : List (Move π η)) (m : Move π η) (hm : ∀ m' ∈ moves ++ [m], m'.Calm) :
    let seen := d.watch c e now
    let threshold := max e.settings.breaker.failureThreshold 1
    (seen moves).circuit.phase.state = .closed →
      (seen (moves ++ [m])).circuit.phase.state = .opened →
        ∃ past recent, ∃ waiters : Finset Nat, moves = past ++ recent ∧
          ClosedSince (fun moves => (seen moves).circuit) past recent ∧
          (∀ n ∈ waiters, (seen past).calls ≤ n ∧
            LetDown (seen (moves ++ [m])).cast (seen (moves ++ [m])).log.failed n) ∧
          threshold ≤ ((seen (moves ++ [m])).log.failed.filter
            ((seen past).log.started ≤ ·)).card + waiters.card := by
  intro seen threshold hclosed hopened
  let A := d.recorded.edgePassage c e now
  let X := e.executing c d.pipeline
  let start := (d.recorded.edge c e now).opened now
  have hstaged : Coalesced.Staged X .empty (A.inside.behind start) := by
    refine ⟨rfl, Cast.numbered_empty, ?_, ?_⟩
    · intro n call hslot
      cases hslot
    · intro flight landing hlanding
      cases hlanding
  have htally : Tally start.slots.length ∅ (A.circuit start) (A.permits start) := by
    refine ⟨rfl, ?_, ?_, ?_, Nat.le_refl _⟩
    · intro n hn
      cases hn
    · intro n hn
      cases hn
    · intro n hn
      exact Nat.zero_le n
  exact opened_by_failures (A := A) (X := X) (t := start) on rfl hstaged
    (balanced_circuit e.breaker now) htally hm hclosed hopened

/-- Of three calls that failed the handler has seen one, so the other two have waited. -/
theorem edge_counts_two_waiters :
    let r : Http.Request := ⟨"GET", ⟨"/", none⟩, [], none, none⟩
    let e : EdgeSpec :=
      { settings := { rate := { enabled := false }, breaker := { failureThreshold := 3 } } }
    let seen := Deployment.watch Gzip.deflating e 0 ⟨Handler.pipeline, .fresh, []⟩
    let moves : List (Move Errand Handler) :=
      [.call r ⟨"a", some (.error (.message "down"))⟩, .call r ⟨"b", none⟩, .call r ⟨"c", none⟩,
        .poll 0, .poll 1]
    ∃ waiters : Finset Nat, 2 ≤ waiters.card ∧
      ∀ n ∈ waiters, LetDown (seen (moves ++ [.poll 2])).cast {0} n := by
  intro r e seen moves
  have hclosed : (seen moves).circuit.phase.state = .closed := by decide +kernel
  have hopened : (seen (moves ++ [.poll 2])).circuit.phase.state = .opened := by decide +kernel
  have hfailed : (seen (moves ++ [.poll 2])).log.failed = {0} := by decide +kernel
  obtain ⟨past, recent, waiters, _, _, hdown, hcard⟩ :=
    edge_opened_by_failures Gzip.deflating e rfl 0 ⟨Handler.pipeline, .fresh, []⟩ moves (.poll 2)
      (by simp [moves, Move.Calm]) hclosed hopened
  refine ⟨waiters, ?_, ?_⟩
  · have hone : ((seen (moves ++ [.poll 2])).log.failed.filter
        ((seen past).log.started ≤ ·)).card ≤ 1 := by
      rw [hfailed]
      exact Finset.card_filter_le _ _
    have hthree : max e.settings.breaker.failureThreshold 1 = 3 := rfl
    rw [hthree] at hcard
    exact Nat.le_of_add_le_add_left (Nat.le_trans hcard (Nat.add_le_add_right hone _))
  · intro n hn
    rw [← hfailed]
    exact (hdown n hn).2

/-- **Waiting callers open the breaker.**  A threshold of three is reached by one execution that
    failed and two callers who waited for it, a threshold of two by callers who waited for a
    leader that was given up, though nothing failed. -/
theorem edge_opened_by_waiters :
    let r : Http.Request := ⟨"GET", ⟨"/", none⟩, [], none, none⟩
    let seen (threshold : Nat) :=
      Deployment.watch Gzip.deflating
        { settings :=
            { rate := { enabled := false }, breaker := { failureThreshold := threshold } } }
        0 ⟨Handler.pipeline, .fresh, []⟩
    let failed : List (Move Errand Handler) :=
      [.call r ⟨"a", some (.error (.message "down"))⟩, .call r ⟨"b", none⟩, .call r ⟨"c", none⟩,
        .poll 0, .poll 1]
    let givenUp : List (Move Errand Handler) :=
      [.call r ⟨"a", none⟩, .call r ⟨"b", none⟩, .call r ⟨"c", none⟩, .drop 0, .poll 1]
    (∀ m ∈ failed ++ givenUp ++ [.poll 2], m.Calm) ∧
      ((seen 3 failed).circuit.phase.state = .closed ∧
        (seen 3 (failed ++ [.poll 2])).circuit.phase.state = .opened ∧
        (seen 3 (failed ++ [.poll 2])).log.failed.card = 1) ∧
      ((seen 2 givenUp).circuit.phase.state = .closed ∧
        (seen 2 (givenUp ++ [.poll 2])).circuit.phase.state = .opened ∧
        (seen 2 (givenUp ++ [.poll 2])).log.failed.card = 0) := by
  intro r seen failed givenUp
  refine ⟨by simp [failed, givenUp, Move.Calm], ⟨?_, ?_, ?_⟩, ?_, ?_, ?_⟩ <;> decide +kernel

end Floodgate
