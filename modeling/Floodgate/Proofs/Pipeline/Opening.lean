/-
  Floodgate/Proofs/Pipeline/Opening.lean
  ======================================
  **What it takes to open the breaker of the edge.**  The breaker stands in front of the
  coalescer, so it hears of every call and not of every execution.  If it opens, then
  calls that were made since it closed have failed, as many as its threshold says.
  Each of them is an execution that has failed, or it waited for a leader whose
  execution has failed or that was given up.

  The proof is about any stages in front of a breaker in front of a coalescer around
  executions on record; the edge is one case.  `Reckoned` is the invariant of a run.  It
  puts the tally of the circuit and the cast of the coalescer together.
-/
import Floodgate.Proofs.Circuit.Probes
import Floodgate.Proofs.Circuit.Tally
import Floodgate.Proofs.Coalescing.Blame
import Floodgate.Proofs.Traffic.Front

namespace Floodgate

open Coalesced (Blamed LetDown Staged castNext)

/-! ### Counting calls by their executions -/

namespace Cast

/-- The execution of a call, if it is one of its own. -/
def execution? (c : Cast) (n : Nat) : Option Nat :=
  match c.parts[n]? with
  | some (some (.ran e _)) => some e
  | _ => none

variable {c : Cast} {n e : Nat}

theorem execution_of_plays {flight : Option FlightId} (h : c.Plays n (.ran e flight)) :
    c.execution? n = some e := by
  have hpart : c.parts[n]? = some (some (.ran e flight)) := h
  simp only [execution?, hpart]

theorem plays_of_execution (h : c.execution? n = some e) :
    ∃ flight, c.Plays n (.ran e flight) := by
  unfold execution? at h
  split at h
  · next e' flight hpart =>
    cases h
    exact ⟨flight, hpart⟩
  · cases h

/-- **Calls that are to be blamed are executions that have failed, or they were let down.** -/
theorem card_le_of_blamed {started next first : Nat} (hnumbered : c.Numbered started next)
    {calls failed : Finset Nat} (hblamed : ∀ n ∈ calls, Blamed c failed n)
    (hfirst : ∀ n ∈ calls, ∀ e flight, c.Plays n (.ran e flight) → first ≤ e) :
    ∃ waiters ⊆ calls, (∀ n ∈ waiters, LetDown c failed n) ∧
      calls.card ≤ (failed.filter (first ≤ ·)).card + waiters.card := by
  let own := calls.filter fun n => ¬c.execution? n = none
  have hown : ∀ n ∈ own, ∃ e flight, c.Plays n (.ran e flight) ∧ e ∈ failed ∧ first ≤ e := by
    intro n hn
    obtain ⟨hcall, hsome⟩ := Finset.mem_filter.mp hn
    obtain ⟨e, he⟩ := Option.ne_none_iff_exists'.mp hsome
    obtain ⟨flight, hplays⟩ := plays_of_execution he
    rcases hblamed n hcall with ⟨e', flight', hplays', hfailed⟩ | ⟨flight', hjoined, _⟩
    · exact ⟨e', flight', hplays', hfailed, hfirst n hcall e' flight' hplays'⟩
    · have hpart : c.parts[n]? = some (some (.joined flight')) := hjoined
      simp only [execution?, hpart] at he
      cases he
  refine ⟨calls.filter fun n => c.execution? n = none, Finset.filter_subset _ _, ?_, ?_⟩
  · intro n hn
    obtain ⟨hcall, hnone⟩ := Finset.mem_filter.mp hn
    rcases hblamed n hcall with ⟨e, flight, hplays, _⟩ | hdown
    · rw [execution_of_plays hplays] at hnone
      cases hnone
    · exact hdown
  · have hcard : own.card ≤ (failed.filter (first ≤ ·)).card := by
      apply Finset.card_le_card_of_injOn fun n => (c.execution? n).getD 0
      · intro n hn
        obtain ⟨e, flight, hplays, hfailed, hle⟩ := hown n hn
        simp only [execution_of_plays hplays, Option.getD_some]
        exact Finset.mem_filter.mpr ⟨hfailed, hle⟩
      · intro n hn n' hn' heq
        obtain ⟨e, flight, hplays, _, _⟩ := hown n hn
        obtain ⟨e', flight', hplays', _, _⟩ := hown n' hn'
        simp only [execution_of_plays hplays, execution_of_plays hplays', Option.getD_some] at heq
        subst heq
        exact hnumbered.one_execution n n' e flight flight' hplays hplays'
    have hsplit : (calls.filter fun n => c.execution? n = none).card + own.card = calls.card :=
      Finset.card_filter_add_card_filter_not _
    omega

end Cast

/-! ### In front of a coalescer -/

section

variable {π η K : Type} [DecidableEq K] {Q P : Pipeline π η} {o : CoalescerOptions K}
  (B : Passage Q (P.coalesced o)) (X : Executing P)

/-- The record of executions. -/
def Passage.log (t : Q.Callers) : Log := X.log (B.behind t).state.inner

/-- The cast of a run, on top of a cast before it. -/
def Passage.castAfter (t : Q.Callers) : List (Move π η) → Cast → Cast
  | [], c => c
  | m :: moves, c =>
    castAfter (Q.step t m) moves (castNext X o (B.behind t) (B.inward t m) c)

variable {B X} {t : Q.Callers} {c : Cast}

theorem Passage.castAfter_append (before after : List (Move π η)) :
    B.castAfter X t (before ++ after) c =
      B.castAfter X (Q.run t before) after (B.castAfter X t before c) := by
  induction before generalizing t c with
  | nil => rfl
  | cons m before ih => exact ih

theorem Passage.extends_castAfter (moves : List (Move π η)) :
    c.Extends (B.castAfter X t moves c) := by
  induction moves generalizing t c with
  | nil => exact .refl c
  | cons m moves ih => exact (Coalesced.extends_castNext _).trans ih

/-- **Every run keeps the coalescer and the cast in agreement.** -/
theorem staged_run (h : Staged X c (B.behind t)) (moves : List (Move π η)) :
    Staged X (B.castAfter X t moves c) (B.behind (Q.run t moves)) := by
  induction moves generalizing t c with
  | nil => exact h
  | cons m moves ih =>
    apply ih
    rw [B.behind_step]
    exact h.move (B.inward t m)

/-- Calls made after a run are executions begun after it. -/
theorem started_le_of_plays (h : Staged X c (B.behind t)) {moves : List (Move π η)}
    {n e : Nat} {flight : Option FlightId}
    (hplays : (B.castAfter X t moves c).Plays n (.ran e flight)) (hn : t.slots.length ≤ n) :
    (B.log X t).started ≤ e := by
  by_contra hlt
  obtain ⟨n', flight', hplays'⟩ := h.numbered.played e (Nat.lt_of_not_le hlt)
  have hlater := (Passage.extends_castAfter (X := X) (B := B) (t := t) moves).plays n' _ hplays'
  have hsame := (staged_run h moves).numbered.one_execution n n' e _ _ hplays hlater
  obtain ⟨hbound, _⟩ := List.getElem?_eq_some_iff.mp hplays'
  have hlength : c.parts.length = t.slots.length := h.length.trans (B.length_behind t)
  omega

theorem failed_subset_step (t : Q.Callers) (m : Move π η) :
    (B.log X t).failed ⊆ (B.log X (Q.step t m)).failed := by
  unfold Passage.log
  rw [B.behind_step]
  exact Coalesced.failed_move (B.behind t) (B.inward t m)

end

/-! ### Since the circuit closed -/

/-- The circuit became closed with the last move of `past`, unless it was closed from the start,
    and has been closed all through `recent`. -/
structure ClosedSince {μ : Type} (circuit : List μ → Circuit) (past recent : List μ) : Prop where
  before : past = [] ∨
    ∃ earlier m, past = earlier ++ [m] ∧ (circuit earlier).phase.state ≠ .closed
  throughout : ∀ part, part <+: recent → (circuit (past ++ part)).phase.state = .closed

namespace ClosedSince

variable {μ : Type} {circuit : List μ → Circuit} {past recent : List μ} {m : μ}

theorem start (h : (circuit []).phase.state = .closed) : ClosedSince circuit [] [] where
  before := .inl rfl
  throughout part hpart := by
    rw [List.prefix_nil.mp hpart]
    exact h

theorem closes (h : (circuit past).phase.state ≠ .closed)
    (h' : (circuit (past ++ [m])).phase.state = .closed) :
    ClosedSince circuit (past ++ [m]) [] where
  before := .inr ⟨past, m, rfl, h⟩
  throughout part hpart := by
    rw [List.prefix_nil.mp hpart, List.append_nil]
    exact h'

theorem concat (h : ClosedSince circuit past recent)
    (h' : (circuit (past ++ recent ++ [m])).phase.state = .closed) :
    ClosedSince circuit past (recent ++ [m]) where
  before := h.before
  throughout part hpart := by
    rcases List.prefix_concat_iff.mp hpart with rfl | hpart
    · rw [← List.append_assoc]
      exact h'
    · exact h.throughout part hpart

end ClosedSince

/-! ### In front of a breaker -/

/-- Who gives no orders to the circuit lets it hear of calls from the calls alone. -/
theorem Move.Calm.orderly {π η : Type} {m : Move π η} (hm : m.Calm) : m.Orderly := by
  cases m with
  | order order =>
    cases order with
    | circuit order => exact hm.elim
    | _ => trivial
  | _ => trivial

section

variable {π η : Type} {Q P : Pipeline π η} {o : BreakerOptions} (A : Passage Q (P.guarded o))

/-- The breaker and its callers. -/
def Passage.guard (t : Q.Callers) : Guarded.Callers P := A.behind t

/-- The circuit of the breaker. -/
def Passage.circuit (t : Q.Callers) : Circuit := (A.guard t).state.own

/-- The permits that calls hold. -/
def Passage.permits (t : Q.Callers) : Permits := Guarded.permits (A.guard t)

/-- What a move comes to at the circuit. -/
def Passage.deed (t : Q.Callers) (m : Move π η) : Deed :=
  Guarded.deed o P (A.guard t) (A.inward t m)

variable {A} {t : Q.Callers} {m : Move π η}

theorem Passage.length_permits (t : Q.Callers) : (A.permits t).length = t.slots.length :=
  (Guarded.length_permits (A.guard t)).trans (A.length_behind t)

theorem Passage.dealt_step (on : o.enabled = true) (hm : m.Calm) :
    Dealt (A.guard t).now (A.circuit t) (A.permits t) (A.deed t m) (A.circuit (Q.step t m))
      (A.permits (Q.step t m)) := by
  have hstep : A.guard (Q.step t m) = Guarded.move o P (A.guard t) (A.inward t m) :=
    A.behind_step t m
  unfold circuit permits
  rw [hstep]
  exact Guarded.dealt_move on (A.guard t) (A.calm hm).orderly

theorem Passage.deed_ne_forced (hm : m.Calm) : A.deed t m ≠ .forced := by
  intro hx
  have hcalm := A.calm (t := t) hm
  rw [Guarded.deed_eq_forced hx] at hcalm
  exact hcalm

theorem Passage.balanced_run (on : o.enabled = true) {moves : List (Move π η)}
    (hm : ∀ m ∈ moves, m.Calm) (h : Balanced (A.circuit t) (A.permits t)) :
    Balanced (A.circuit (Q.run t moves)) (A.permits (Q.run t moves)) ∧
      (A.circuit (Q.run t moves)).threshold = (A.circuit t).threshold := by
  have hstep : ∀ (t' : Q.Callers) (m : Move π η), m.Calm →
      (Balanced (A.circuit t') (A.permits t') ∧
        (A.circuit t').threshold = (A.circuit t).threshold) →
      Balanced (A.circuit (Q.step t' m)) (A.permits (Q.step t' m)) ∧
        (A.circuit (Q.step t' m)).threshold = (A.circuit t).threshold := by
    rintro t' m hm ⟨hb, hthreshold⟩
    have hd := A.dealt_step (t := t') on hm
    exact ⟨hd.balanced hb, hd.follows.threshold.trans hthreshold⟩
  exact Pipeline.run_invariant hstep ⟨h, rfl⟩ moves hm

end

/-! ### A breaker in front of a coalescer -/

section

variable {π η K : Type} [DecidableEq K] {Q P : Pipeline π η} {ob : BreakerOptions}
  {oc : CoalescerOptions K} (A : Passage Q ((P.coalesced oc).guarded ob)) (X : Executing P)

/-- The coalescer and its callers. -/
def Passage.inside : Passage Q (P.coalesced oc) :=
  A.trans (Guarded.front ob (P.coalesced oc)).passage

/-- What the circuit has counted since it closed, and who is to blame. -/
def Reckoned (t : Q.Callers) (moves : List (Move π η)) : Prop :=
  ∃ past recent calls, moves = past ++ recent ∧
    ClosedSince (fun moves => A.circuit (Q.run t moves)) past recent ∧
    Tally (Q.run t past).slots.length calls (A.circuit (Q.run t moves))
      (A.permits (Q.run t moves)) ∧
    ∀ n ∈ calls, Blamed (A.inside.castAfter X t moves .empty)
      (A.inside.log X (Q.run t moves)).failed n

variable {A X} {t : Q.Callers} {m : Move π η} {moves : List (Move π η)}

/-- A call that counts as a failure is to be blamed for it. -/
theorem blamed_of_ended (server : ob.classifier = .serverErrors) {c : Cast}
    (h : Staged X c (A.inside.behind t)) {n : Nat} (hx : A.deed t m = .ended n true) :
    Blamed c (A.inside.log X (Q.step t m)).failed n := by
  obtain ⟨hpoll, g, inner, answer, hslot, hdone, hfailure⟩ := Guarded.deed_eq_ended hx
  have hinner : (A.inside.behind t).slots[n]? = some (.calling inner) :=
    (Guarded.front ob (P.coalesced oc)).behind_getElem? hslot
  have hbad : Metered.isError answer = true := by
    rw [server] at hfailure
    cases answer <;> exact hfailure.symm
  have hstep : A.inside.behind (Q.step t m) =
      Coalesced.move oc (A.inside.behind t) (.poll n) := by
    rw [A.inside.behind_step]
    show (P.coalesced oc).step _ ((Guarded.front ob (P.coalesced oc)).inward _ (A.inward t m)) = _
    rw [hpoll]
    rfl
  unfold Passage.log
  rw [hstep]
  exact h.blamed hinner hdone hbad

theorem blamed_step {calls : Finset Nat}
    (h : ∀ n ∈ calls, Blamed (A.inside.castAfter X t moves .empty)
      (A.inside.log X (Q.run t moves)).failed n) (m : Move π η) :
    ∀ n ∈ calls, Blamed (A.inside.castAfter X t (moves ++ [m]) .empty)
      (A.inside.log X (Q.run t (moves ++ [m]))).failed n := by
  intro n hn
  rw [Passage.castAfter_append, Pipeline.run_concat]
  exact (h n hn).mono (Passage.extends_castAfter [m]) (failed_subset_step _ m)

/-- **What a move does to the reckoning.**  Where the circuit was closed it still is, or it has
    opened on as many failures as its threshold. -/
theorem Reckoned.step (h : Reckoned A X t moves) (on : ob.enabled = true)
    (server : ob.classifier = .serverErrors) (hstaged : Staged X .empty (A.inside.behind t))
    (hm : m.Calm) :
    Reckoned A X t (moves ++ [m]) ∨
      (A.circuit (Q.run t (moves ++ [m]))).phase.state = .opened ∧
        ∃ past recent, ∃ calls : Finset Nat, moves = past ++ recent ∧
          ClosedSince (fun moves => A.circuit (Q.run t moves)) past recent ∧
          (∀ n ∈ calls, (Q.run t past).slots.length ≤ n) ∧
          (∀ n ∈ calls, Blamed (A.inside.castAfter X t (moves ++ [m]) .empty)
            (A.inside.log X (Q.run t (moves ++ [m]))).failed n) ∧
          (A.circuit (Q.run t moves)).threshold ≤ calls.card := by
  obtain ⟨past, recent, calls, rfl, hsince, htally, hblamed⟩ := h
  have hd := A.dealt_step (t := Q.run t (past ++ recent)) on hm
  have hlater := blamed_step hblamed m
  rw [← Pipeline.run_concat] at hd
  have hgoes : ∀ calls', Tally (Q.run t past).slots.length calls'
        (A.circuit (Q.run t (past ++ recent ++ [m])))
        (A.permits (Q.run t (past ++ recent ++ [m]))) →
      (∀ n ∈ calls', Blamed (A.inside.castAfter X t (past ++ recent ++ [m]) .empty)
        (A.inside.log X (Q.run t (past ++ recent ++ [m]))).failed n) →
      Reckoned A X t (past ++ recent ++ [m]) := by
    intro calls' htally' hblamed'
    exact ⟨past, recent ++ [m], calls', by rw [List.append_assoc], hsince.concat htally'.state,
      htally', hblamed'⟩
  rcases hd.tally htally (A.deed_ne_forced hm) with hsame | hempty | ⟨n, hx, _, hn, hcounted⟩
  · exact .inl (hgoes calls hsame hlater)
  · refine .inl (hgoes ∅ hempty ?_)
    intro n hn
    cases hn
  · have hall : ∀ n' ∈ insert n calls,
        Blamed (A.inside.castAfter X t (past ++ recent ++ [m]) .empty)
          (A.inside.log X (Q.run t (past ++ recent ++ [m]))).failed n' := by
      intro n' hn'
      rcases Finset.mem_insert.mp hn' with rfl | hold
      · have hnew := blamed_of_ended server (staged_run hstaged (past ++ recent)) hx
        rw [← Pipeline.run_concat] at hnew
        rw [Passage.castAfter_append]
        exact hnew.mono (Passage.extends_castAfter [m]) (Finset.Subset.refl _)
      · exact hlater n' hold
    rcases hcounted with htally' | ⟨hopened, hthreshold⟩
    · exact .inl (hgoes _ htally' hall)
    · refine .inr ⟨hopened, past, recent, insert n calls, rfl, hsince, ?_, hall, hthreshold⟩
      intro n' hn'
      rcases Finset.mem_insert.mp hn' with rfl | hold
      · exact hn
      · exact htally.recent n' hold

/-- **Every closed circuit has reckoned with its failures.** -/
theorem reckoned_run (on : ob.enabled = true) (server : ob.classifier = .serverErrors)
    (hstaged : Staged X .empty (A.inside.behind t))
    (hbalanced : Balanced (A.circuit t) (A.permits t))
    (htally : Tally t.slots.length ∅ (A.circuit t) (A.permits t))
    (hm : ∀ m ∈ moves, m.Calm) (hclosed : (A.circuit (Q.run t moves)).phase.state = .closed) :
    Reckoned A X t moves := by
  induction moves using List.reverseRecOn with
  | nil => exact ⟨[], [], ∅, rfl, .start htally.state, htally, by simp⟩
  | append_singleton moves m ih =>
    have hbefore : ∀ m' ∈ moves, m'.Calm := fun m' hm' => hm m' (by simp [hm'])
    have hlast : m.Calm := hm m (by simp)
    by_cases hstate : (A.circuit (Q.run t moves)).phase.state = .closed
    · rcases (ih hbefore hstate).step on server hstaged hlast with h | ⟨hopened, _⟩
      · exact h
      · rw [hopened] at hclosed
        cases hclosed
    · have hd := A.dealt_step (t := Q.run t moves) on hlast
      have hpast := (Passage.balanced_run on hbefore hbalanced).1.past
      rw [← Pipeline.run_concat] at hd
      have hnew := hd.tally_closes hpast hstate hclosed
      rw [Passage.length_permits] at hnew
      refine ⟨moves ++ [m], [], ∅, by rw [List.append_nil], .closes hstate hclosed, hnew, by simp⟩

/-- **A circuit that opens has had as many failures as its threshold since it closed**, those of
    executions and those of calls that were let down. -/
theorem opened_by_failures (on : ob.enabled = true) (server : ob.classifier = .serverErrors)
    (hstaged : Staged X .empty (A.inside.behind t))
    (hbalanced : Balanced (A.circuit t) (A.permits t))
    (htally : Tally t.slots.length ∅ (A.circuit t) (A.permits t))
    (hm : ∀ m' ∈ moves ++ [m], m'.Calm)
    (hclosed : (A.circuit (Q.run t moves)).phase.state = .closed)
    (hopened : (A.circuit (Q.run t (moves ++ [m]))).phase.state = .opened) :
    ∃ past recent, ∃ waiters : Finset Nat, moves = past ++ recent ∧
      ClosedSince (fun moves => A.circuit (Q.run t moves)) past recent ∧
      (∀ n ∈ waiters, (Q.run t past).slots.length ≤ n ∧
        LetDown (A.inside.castAfter X t (moves ++ [m]) .empty)
          (A.inside.log X (Q.run t (moves ++ [m]))).failed n) ∧
      (A.circuit t).threshold ≤
        ((A.inside.log X (Q.run t (moves ++ [m]))).failed.filter
          ((A.inside.log X (Q.run t past)).started ≤ ·)).card + waiters.card := by
  have hbefore : ∀ m' ∈ moves, m'.Calm := fun m' hm' => hm m' (by simp [hm'])
  have hreckoned := reckoned_run on server hstaged hbalanced htally hbefore hclosed
  rcases hreckoned.step on server hstaged (hm m (by simp)) with
    ⟨past, recent, calls, _, _, htally', _⟩ |
    ⟨_, past, recent, calls, rfl, hsince, hlater, hblamed, hthreshold⟩
  · have hstate := htally'.state
    rw [hopened] at hstate
    cases hstate
  · -- executions of calls made after `past` were begun after it
    have hfirst : ∀ n ∈ calls, ∀ e flight,
        (A.inside.castAfter X t (past ++ recent ++ [m]) .empty).Plays n (.ran e flight) →
          (A.inside.log X (Q.run t past)).started ≤ e := by
      intro n hn e flight hplays
      rw [List.append_assoc, Passage.castAfter_append] at hplays
      exact started_le_of_plays (staged_run hstaged past) hplays (hlater n hn)
    have hnumbered := (staged_run hstaged (past ++ recent ++ [m])).numbered
    obtain ⟨waiters, hsubset, hdown, hcard⟩ := Cast.card_le_of_blamed hnumbered hblamed hfirst
    refine ⟨past, recent, waiters, rfl, hsince, ?_, ?_⟩
    · intro n hn
      exact ⟨hlater n (hsubset hn), hdown n hn⟩
    · rw [(Passage.balanced_run on hbefore hbalanced).2] at hthreshold
      exact Nat.le_trans hthreshold hcard

end

end Floodgate
