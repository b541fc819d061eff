/-
  Floodgate/Proofs/Pipeline/Executions.lean
  =========================================
  **What the handler did.**  Put a record around whatever a pipeline protects
  (`Pipeline.recorded`): it numbers the executions and notes which of them failed, by
  failing to answer, by answering with a server error or by a body that failed while
  it was read.  Nothing else changes, so what the record shows is what happened
  without it.

  The record is of use to the stages further out.  `Executing` is what they know of
  it: a call belongs to an execution, and if the call fails then so has the execution.
  Recording latencies and compressing responses keep this, though the latter reads
  bodies ahead and hands out its own.
-/
import Floodgate.Proofs.Traffic.Front
import Mathlib.Data.Finset.Card

namespace Floodgate

open Http (Bytes Frame Pull Request)

/-! ### The record -/

/-- Executions so far, numbered in the order in which they started, and those that failed. -/
structure Log where
  started : Nat
  failed : Finset Nat

namespace Log

def empty : Log := ⟨0, ∅⟩

def start (l : Log) : Log := { l with started := l.started + 1 }

/-- Notes how an execution went. -/
def note (l : Log) (e : Nat) (failure : Bool) : Log :=
  if failure then { l with failed := insert e l.failed } else l

/-- Executions have gone on, and none has started. -/
structure Grows (l l' : Log) : Prop where
  started : l'.started = l.started
  failed : l.failed ⊆ l'.failed

theorem Grows.refl (l : Log) : Grows l l := ⟨rfl, Finset.Subset.refl _⟩

theorem Grows.of_eq {l l' : Log} (h : l' = l) : Grows l l' := by
  rw [h]
  exact refl l

theorem Grows.trans {l l' l'' : Log} (h : Grows l l') (h' : Grows l' l'') : Grows l l'' :=
  ⟨h'.started.trans h.started, h.failed.trans h'.failed⟩

theorem grows_note (l : Log) (e : Nat) (failure : Bool) : Grows l (l.note e failure) := by
  cases failure with
  | true => exact ⟨rfl, Finset.subset_insert e l.failed⟩
  | false => exact Grows.refl l

theorem mem_note_true (l : Log) (e : Nat) : e ∈ (l.note e true).failed :=
  Finset.mem_insert_self e l.failed

end Log

/-- Polling a call came to a failure or to a server error. -/
def wentWrong {κ β : Type} : Progress κ β → Bool
  | .pending _ => false
  | .done answer => Metered.isError answer

/-- Asking a body for a frame failed. -/
def brokeOff {β : Type} : Pull β → Bool
  | .failed .. => true
  | _ => false

namespace Recorded

variable {π : Type} (S : Service π)

def start (now : Instant) (r : Request) (p : π) (s : Layered Log S.State) :
    Step (Layered Log S.State) (Nat × S.Call) :=
  ((S.start now r p s.inner).under s.own.start).map (Prod.mk s.own.started)

/-- An execution goes on. -/
def poll (now : Instant) (c : Nat × S.Call) (s : Layered Log S.State) :
    Step (Layered Log S.State) (Progress (Nat × S.Call) (Nat × S.Body)) :=
  let polled := S.poll now c.2 s.inner
  (polled.under (s.own.note c.1 (wentWrong polled.value))).map
    (.map (Prod.mk c.1) (Prod.mk c.1))

/-- The body of an execution's answer is read. -/
def pull (b : Nat × S.Body) (s : Layered Log S.State) :
    Step (Layered Log S.State) (Pull (Nat × S.Body)) :=
  let pulled := S.pull b.2 s.inner
  (pulled.under (s.own.note b.1 (brokeOff pulled.value))).map (.map (Prod.mk b.1))

/-- A service with a record of its executions. -/
def service : Service π where
  State := Layered Log S.State
  Call := Nat × S.Call
  Body := Nat × S.Body
  ready s := let r := S.ready s.inner; (r.1, ⟨s.own, r.2⟩)
  start := start S
  poll := poll S
  abandon c s := ⟨s.own, S.abandon c.2 s.inner⟩
  pull := pull S
  hint b := S.hint b.2
  ended b := S.ended b.2
  size b := S.size b.2
  pull_shrinks b s := Pull.Shrinks.map (fun _ => rfl) (S.pull_shrinks b.2 s.inner)

end Recorded

/-- A pipeline with a record of its executions. -/
def Pipeline.recorded {π η : Type} (P : Pipeline π η) : Pipeline π η where
  toService := Recorded.service P.toService
  core s := P.core s.inner
  withCore h s := ⟨s.own, P.withCore h s.inner⟩
  obey now order s := P.obeyThrough now order ⟨.none, s.own, []⟩ s.inner
  due now s := P.due now s.inner
  views s := P.views s.inner

/-- A record around a pipeline, from the start. -/
def Deployment.recorded {π η : Type} (d : Deployment π η) : Deployment π η :=
  ⟨d.pipeline.recorded, ⟨.empty, d.state⟩, d.happened⟩

section

variable {π η : Type} (P : Pipeline π η)

/-- The record passes everything on. -/
def Recorded.front : Front P.recorded P where
  state s := s.inner
  call c := some c.2
  body b := some b.2
  asks _ := true
  ready_eq _ := rfl
  start_cases _ _ _ _ := .inr ⟨rfl, rfl⟩
  poll_none _ _ _ h := by cases h
  poll_some now c s i h := by
    cases h
    refine ⟨rfl, ?_⟩
    show Slot.behind _ _
      (Slot.ofProgress ((P.poll now c.2 s.inner).value.map (Prod.mk c.1) (Prod.mk c.1))) = _
    cases (P.poll now c.2 s.inner).value with
    | pending j => rfl
    | done answer => cases answer <;> rfl
  abandon_none _ _ h := by cases h
  abandon_some _ _ _ h := by
    cases h
    rfl
  pull_none _ _ h := by cases h
  pull_some b s i h := by
    cases h
    refine ⟨rfl, ?_⟩
    show some (restOf ((P.pull b.2 s.inner).value.map (Prod.mk b.1))).2 = _
    rw [restOf_map]
  obey_eq _ _ _ := rfl
  core_eq _ _ := rfl

/-- **The record changes nothing**: behind it every run is the same run. -/
theorem Recorded.behind_run (t : P.recorded.Callers) (moves : List (Move π η)) :
    (Recorded.front P).behind (P.recorded.run t moves) =
      P.run ((Recorded.front P).behind t) moves := by
  apply Front.behind_run
  intro t m
  cases m <;> rfl

end

/-! ### What stages know of it -/

section

variable {κ κ' β β' : Type} {l : Log} {runs : κ → Nat → Prop} {runs' : κ' → Nat → Prop}
  {reads : β → Nat → Prop} {reads' : β' → Nat → Prop} {e : Nat}

/-- What polling a call of an execution shows of it: it goes on, or what it answered or
    failed with is on record. -/
def Tells (l : Log) (runs : κ → Nat → Prop) (reads : β → Nat → Prop) (e : Nat) :
    Progress κ β → Prop
  | .pending call => runs call e
  | .done (.ok r) => reads r.body e ∧ (r.head.status.isServerError = true → e ∈ l.failed)
  | .done (.error _) => e ∈ l.failed

/-- What asking a body of an execution for a frame shows of it. -/
def Yields (l : Log) (reads : β → Nat → Prop) (e : Nat) : Pull β → Prop
  | .pending rest => reads rest e
  | .frame _ rest => reads rest e
  | .failed _ rest => reads rest e ∧ e ∈ l.failed
  | .ended rest => reads rest e

theorem Tells.map {progress : Progress κ β} {wrapCall : κ → κ'} {wrapBody : β → β'}
    (h : Tells l runs reads e progress) (hcall : ∀ c, runs c e → runs' (wrapCall c) e)
    (hbody : ∀ b, reads b e → reads' (wrapBody b) e) :
    Tells l runs' reads' e (progress.map wrapCall wrapBody) := by
  cases progress with
  | pending call => exact hcall call h
  | done answer =>
    cases answer with
    | ok r => exact ⟨hbody r.body h.1, h.2⟩
    | error f => exact h

theorem Yields.map {pulled : Pull β} {wrap : β → β'} (h : Yields l reads e pulled)
    (hbody : ∀ b, reads b e → reads' (wrap b) e) : Yields l reads' e (pulled.map wrap) := by
  cases pulled with
  | pending rest => exact hbody rest h
  | frame f rest => exact hbody rest h
  | failed f rest => exact ⟨hbody rest h.1, h.2⟩
  | ended rest => exact hbody rest h

end

/-- A pipeline whose calls belong to executions on record. -/
structure Executing {π η : Type} (P : Pipeline π η) where
  log : P.State → Log
  /-- The call belongs to the execution. -/
  runs : P.Call → Nat → Prop
  /-- The body comes from the execution, as far as it is left to be read. -/
  reads : P.Body → Nat → Prop
  ready_log : ∀ s, log (P.ready s).2 = log s
  abandon_log : ∀ c s, log (P.abandon c s) = log s
  obey_log : ∀ now o s, log (P.obey now o s).state = log s
  core_log : ∀ h s, log (P.withCore h s) = log s
  start_log : ∀ now r p s, log (P.start now r p s).state = (log s).start
  start_runs : ∀ now r p s, runs (P.start now r p s).value (log s).started
  poll_grows : ∀ now c s, (log s).Grows (log (P.poll now c s).state)
  poll_tells : ∀ now c s e, runs c e →
    Tells (log (P.poll now c s).state) runs reads e (P.poll now c s).value
  pull_grows : ∀ b s, (log s).Grows (log (P.pull b s).state)
  pull_yields : ∀ b s e, reads b e → Yields (log (P.pull b s).state) reads e (P.pull b s).value

section

variable {π η : Type} (P : Pipeline π η)

/-- The record itself. -/
def Recorded.executing : Executing P.recorded where
  log s := s.own
  runs c e := c.1 = e
  reads b e := b.1 = e
  ready_log _ := rfl
  abandon_log _ _ := rfl
  obey_log _ _ _ := rfl
  core_log _ _ := rfl
  start_log _ _ _ _ := rfl
  start_runs _ _ _ _ := rfl
  poll_grows _ c s := s.own.grows_note c.1 _
  poll_tells now c s e hc := by
    have hc : c.1 = e := hc
    subst hc
    show Tells (s.own.note c.1 (wentWrong (P.poll now c.2 s.inner).value)) _ _ c.1
      ((P.poll now c.2 s.inner).value.map (Prod.mk c.1) (Prod.mk c.1))
    cases (P.poll now c.2 s.inner).value with
    | pending call => exact rfl
    | done answer =>
      cases answer with
      | ok r =>
        refine ⟨rfl, ?_⟩
        intro hstatus
        have hstatus : r.head.status.isServerError = true := hstatus
        simp only [wentWrong, Metered.isError, hstatus]
        exact s.own.mem_note_true c.1
      | error f => exact s.own.mem_note_true c.1
  pull_grows b s := s.own.grows_note b.1 _
  pull_yields b s e hb := by
    have hb : b.1 = e := hb
    subst hb
    show Yields (s.own.note b.1 (brokeOff (P.pull b.2 s.inner).value)) _ b.1
      ((P.pull b.2 s.inner).value.map (Prod.mk b.1))
    cases (P.pull b.2 s.inner).value with
    | failed f rest => exact ⟨rfl, s.own.mem_note_true b.1⟩
    | _ => exact rfl

/-- The call that is timed. -/
def Metered.Call.inner {κ : Type} : Metered.Call κ → κ
  | .passed inner => inner
  | .timed _ inner => inner

/-- Recording latencies changes neither what becomes of a call nor the state further in. -/
theorem Metered.poll_cases (o : MeterOptions) (S : Service π) (now : Instant) (c : Call S.Call)
    (s : Layered Recorder S.State) :
    (poll o S now c s).state.inner = (S.poll now c.inner s.inner).state ∧
      ((∃ inner c', (S.poll now c.inner s.inner).value = .pending inner ∧
          (poll o S now c s).value = .pending c' ∧ c'.inner = inner) ∨
        ∃ answer, (S.poll now c.inner s.inner).value = .done answer ∧
          (poll o S now c s).value = .done answer) := by
  cases c with
  | passed inner =>
    refine ⟨rfl, ?_⟩
    show (∃ j c', (S.poll now inner s.inner).value = .pending j ∧
        (S.poll now inner s.inner).value.map Call.passed id = .pending c' ∧ c'.inner = j) ∨
      ∃ answer, (S.poll now inner s.inner).value = .done answer ∧
        (S.poll now inner s.inner).value.map Call.passed id = .done answer
    cases (S.poll now inner s.inner).value with
    | pending j => exact .inl ⟨j, .passed j, rfl, rfl, rfl⟩
    | done answer => cases answer <;> exact .inr ⟨_, rfl, rfl⟩
  | timed since inner =>
    simp only [poll, Call.inner]
    cases (S.poll now inner s.inner).value with
    | pending j => exact ⟨rfl, .inl ⟨j, .timed since j, rfl, rfl, rfl⟩⟩
    | done answer => exact ⟨rfl, .inr ⟨answer, rfl, rfl⟩⟩

/-- Recording latencies keeps the record of executions. -/
def Metered.executing (o : MeterOptions) (saved : Nat) {P : Pipeline π η} (X : Executing P) :
    Executing (P.metered o saved) where
  log s := X.log s.inner
  runs c e := X.runs c.inner e
  reads b e := X.reads b e
  ready_log s := X.ready_log s.inner
  abandon_log c s := by
    cases c with
    | passed inner => exact X.abandon_log inner s.inner
    | timed since inner => exact X.abandon_log inner s.inner
  obey_log now order s := X.obey_log now order s.inner
  core_log h s := X.core_log h s.inner
  start_log now r p s := X.start_log now r p s.inner
  start_runs now r p s := by
    have h := X.start_runs now r p s.inner
    show X.runs ((if o.enabled then Metered.Call.timed now else .passed)
      (P.start now r p s.inner).value).inner _
    cases o.enabled <;> exact h
  poll_grows now c s := by
    have h := X.poll_grows now c.inner s.inner
    rw [← (Metered.poll_cases o P.toService now c s).1] at h
    exact h
  poll_tells now c s e hc := by
    have htells := X.poll_tells now c.inner s.inner e hc
    obtain ⟨hstate, hvalue⟩ := Metered.poll_cases o P.toService now c s
    show Tells (X.log (Metered.poll o P.toService now c s).state.inner)
      (fun c e => X.runs c.inner e) X.reads e (Metered.poll o P.toService now c s).value
    rw [hstate]
    obtain ⟨inner, c', hinner, hc', rfl⟩ | ⟨answer, hinner, hdone⟩ := hvalue
    · rw [hinner] at htells
      rw [hc']
      exact htells
    · rw [hinner] at htells
      rw [hdone]
      cases answer <;> exact htells
  pull_grows b s := X.pull_grows b s.inner
  pull_yields b s e hb := X.pull_yields b s.inner e hb

end

end Floodgate
