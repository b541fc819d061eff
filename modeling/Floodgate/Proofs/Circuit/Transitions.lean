/-
  Floodgate/Proofs/Circuit/Transitions.lean
  =========================================
  **What is told of a circuit is what happens to it.**  Whatever is done with a circuit,
  in whatever order, the state that others see is the state that it is in, its
  counters stay below their limits, and the changes of state that it tells of lead
  from closed to the state that it is in, one after the other.  Listeners hear of
  these changes, and the board counts them.

  The operations may be used out of protocol: successes of calls that nobody
  admitted, outcomes and releases of any generation.  `Tells` is what one operation
  keeps; a circuit that enters a phase keeps it (`tells_enter`), and so do all
  operations (`tells_act`).
-/
import Floodgate.Proofs.Circuit.Basic
import Floodgate.Proofs.Observe.Outside

namespace Floodgate

/-! ### Changes of state -/

/-- The change of state that an event tells of. -/
def CircuitEvent.change? : CircuitEvent → Option (CircuitState × CircuitState)
  | .transition before after => some (before, after)
  | _ => none

/-- Changes that lead from the one state to the other, each from where the last one led.  None
    of them changes nothing, and none leads from closed to half-open. -/
def Unbroken : CircuitState → List (CircuitState × CircuitState) → CircuitState → Prop
  | s, [], s' => s = s'
  | s, (before, after) :: rest, s' =>
    before = s ∧ after ≠ before ∧ ¬(before = .closed ∧ after = .halfOpen) ∧ Unbroken after rest s'

theorem Unbroken.append {s s' s'' : CircuitState} {xs ys : List (CircuitState × CircuitState)}
    (hx : Unbroken s xs s') (hy : Unbroken s' ys s'') : Unbroken s (xs ++ ys) s'' := by
  induction xs generalizing s with
  | nil =>
    have hs : s = s' := hx
    rw [hs]
    exact hy
  | cons x xs ih =>
    obtain ⟨hbefore, hother, hskip, hrest⟩ := hx
    exact ⟨hbefore, hother, hskip, ih hrest⟩

/-- The last change leads to where all of them lead. -/
theorem Unbroken.getLast? {s s' : CircuitState} {xs : List (CircuitState × CircuitState)}
    (h : Unbroken s xs s') : xs.getLast?.map Prod.snd = if xs = [] then none else some s' := by
  induction xs generalizing s with
  | nil => rfl
  | cons x xs ih =>
    obtain ⟨_, _, _, hrest⟩ := h
    have hlast := ih hrest
    cases xs with
    | nil =>
      have hx : x.2 = s' := hrest
      simp [hx]
    | cons y ys =>
      rw [List.getLast?_cons_cons, hlast]
      simp

/-! ### Limits of the counters -/

/-- The counters of a phase are where they may be. -/
def Phase.Within (threshold probes : Nat) (phase : Phase) : Prop :=
  phase.counts.1 < threshold ∧ phase.counts.2.1 ≤ probes ∧ phase.counts.2.2 < probes

/-- So are counters that start again. -/
theorem Phase.Within.restart {threshold probes : Nat} {phase next : Phase}
    (h : phase.Within threshold probes) (hnext : next.counts = (0, 0, 0)) :
    next.Within threshold probes := by
  obtain ⟨hfailures, _, hsuccesses⟩ := h
  unfold Within
  rw [hnext]
  exact ⟨Nat.zero_lt_of_lt hfailures, Nat.zero_le _, Nat.zero_lt_of_lt hsuccesses⟩

namespace Circuit

/-- What can be done with a circuit. -/
inductive Act where
  /-- Asks whether a call may go on, and takes a probe if so. -/
  | canExecute
  /-- Asks for a call to be admitted. -/
  | acquire
  | success
  | failure
  | forceOpen
  | reset
  /-- The outcome of a call that was admitted under a generation. -/
  | settle (admitted : Generation) (failure : Bool)
  /-- A call that was admitted under a generation is given up. -/
  | release (admitted : Generation)
  | advance (d : Duration)

/-- What is left of a circuit, and what is told of it. -/
def act (c : Circuit) (now : Instant) : Act → Circuit × List CircuitEvent
  | .canExecute => (c.acquire now).2
  | .acquire => (c.acquire now).2
  | .success => c.recordSuccess now
  | .failure => c.recordFailure now
  | .forceOpen => c.forceOpen now
  | .reset => c.reset now
  | .settle admitted failure => c.settle now admitted failure
  | .release admitted => (c.release admitted, [])
  | .advance _ => (c, [])

/-- What is told of an operation is what it did, and it keeps what a circuit is to keep. -/
structure Tells (c c' : Circuit) (es : List CircuitEvent) : Prop extends Follows c c' where
  consistent : c.Consistent → c'.Consistent
  within : c.phase.Within c.threshold c.probes → c'.phase.Within c.threshold c.probes
  unbroken : Unbroken c.phase.state (es.filterMap CircuitEvent.change?) c'.phase.state

variable {c c' : Circuit} {now : Instant} {next : Phase} {es es' : List CircuitEvent}

theorem tells_nothing (c : Circuit) : Tells c c [] where
  toFollows := Follows.refl c
  consistent h := h
  within h := h
  unbroken := rfl

/-- Events that tell of no change may be added. -/
theorem Tells.append (h : Tells c c' es) (hes : es'.filterMap CircuitEvent.change? = []) :
    Tells c c' (es ++ es') where
  toFollows := h.toFollows
  consistent := h.consistent
  within := h.within
  unbroken := by
    rw [List.filterMap_append, hes, List.append_nil]
    exact h.unbroken

/-- It tells nothing of when the last failure was. -/
theorem Tells.lastFailure (h : Tells c c' es) (time : Option Instant) :
    Tells c { c' with lastFailure := time } es where
  toFollows := ⟨h.name, h.threshold, h.cooldown, h.probes, h.same, h.other⟩
  consistent := h.consistent
  within := h.within
  unbroken := h.unbroken

/-- **A circuit that enters a phase tells of it**, if it does not skip a state. -/
theorem tells_enter (c : Circuit) (now : Instant)
    (hwithin : c.phase.Within c.threshold c.probes → next.Within c.threshold c.probes)
    (hskip : next.state = .halfOpen → c.phase.state ≠ .closed) :
    Tells c (c.enter now next).1 (c.enter now next).2 where
  toFollows := follows_enter c now next
  consistent h := consistent_enter h now next
  within := by
    rw [enter_phase]
    exact hwithin
  unbroken := by
    rw [enter_phase]
    by_cases hs : c.phase.state = next.state
    · simp only [enter, if_pos hs]
      exact hs
    · simp only [enter, if_neg hs]
      refine ⟨rfl, Ne.symm hs, ?_, rfl⟩
      rintro ⟨hclosed, hhalf⟩
      exact hskip hhalf hclosed

/-- Probes come and go within a half-open episode. -/
theorem tells_probes {issued successes issued' : Nat} (hp : c.phase = .halfOpen issued successes)
    (hissued : issued ≤ c.probes → issued' ≤ c.probes) :
    Tells c { c with phase := .halfOpen issued' successes } [] where
  toFollows := ⟨rfl, rfl, rfl, rfl, fun _ => rfl, fun h => absurd (by rw [hp]; rfl) h⟩
  consistent h := by
    have hs : c.published = c.phase.state := h
    rw [hp] at hs
    exact hs
  within := by
    rw [hp]
    rintro ⟨hfailures, hle, hsuccesses⟩
    exact ⟨hfailures, hissued hle, hsuccesses⟩
  unbroken := by
    rw [hp]
    rfl

theorem tells_acquire (c : Circuit) (now : Instant) :
    Tells c (c.acquire now).2.1 (c.acquire now).2.2 := by
  cases hp : c.phase with
  | closed failures =>
    simp only [acquire, hp]
    exact (tells_nothing c).append rfl
  | opened since =>
    by_cases hcool : c.cooldown ≤ now - since
    · simp only [acquire, hp, if_pos hcool]
      apply (tells_enter c now _ _).append rfl
      · rintro ⟨hfailures, _, hsuccesses⟩
        exact ⟨Nat.zero_lt_of_lt hfailures, Nat.zero_lt_of_lt hsuccesses,
          Nat.zero_lt_of_lt hsuccesses⟩
      · intro _
        simp [hp, Phase.state]
    · simp only [acquire, hp, if_neg hcool]
      exact (tells_nothing c).append rfl
  | halfOpen issued successes =>
    by_cases hleft : issued < c.probes
    · simp only [acquire, hp, if_pos hleft]
      exact (tells_probes hp fun _ => hleft).append rfl
    · simp only [acquire, hp, if_neg hleft]
      exact (tells_nothing c).append rfl

/-- Successes are counted up to the budget. -/
theorem within_afterSuccess (h : c.phase.Within c.threshold c.probes) :
    c.afterSuccess.Within c.threshold c.probes := by
  cases hp : c.phase with
  | closed failures =>
    simp only [afterSuccess, hp]
    exact h.restart rfl
  | opened since =>
    simp only [afterSuccess, hp]
    exact h.restart rfl
  | halfOpen issued successes =>
    simp only [afterSuccess, hp]
    split
    · exact h.restart rfl
    · next hlast =>
      rw [hp] at h
      obtain ⟨hfailures, hissued, _⟩ := h
      exact ⟨hfailures, hissued, Nat.lt_of_not_le hlast⟩

/-- Failures in a row are counted up to the threshold. -/
theorem within_afterFailure (now : Instant) (h : c.phase.Within c.threshold c.probes) :
    (c.afterFailure now).Within c.threshold c.probes := by
  cases hp : c.phase with
  | closed failures =>
    simp only [afterFailure, hp]
    split
    · exact h.restart rfl
    · next hlast =>
      rw [hp] at h
      obtain ⟨_, hissued, hsuccesses⟩ := h
      exact ⟨Nat.lt_of_not_le hlast, hissued, hsuccesses⟩
  | opened since =>
    simp only [afterFailure, hp]
    exact h.restart rfl
  | halfOpen issued successes =>
    simp only [afterFailure, hp]
    exact h.restart rfl

theorem tells_recordSuccess (c : Circuit) (now : Instant) :
    Tells c (c.recordSuccess now).1 (c.recordSuccess now).2 := by
  apply (tells_enter c now within_afterSuccess _).append rfl
  intro hhalf
  rcases afterSuccess_cases c with hother | ⟨issued, successes, hp, _, _⟩
  · exact absurd hhalf hother
  · simp [hp, Phase.state]

theorem tells_recordFailure (c : Circuit) (now : Instant) :
    Tells c (c.recordFailure now).1 (c.recordFailure now).2 := by
  apply ((tells_enter c now (within_afterFailure now) _).lastFailure _).append rfl
  intro hhalf _
  exact afterFailure_ne_halfOpen c now hhalf

theorem tells_settle (c : Circuit) (now : Instant) (g : Generation) (failure : Bool) :
    Tells c (c.settle now g failure).1 (c.settle now g failure).2 := by
  unfold settle
  split
  · exact tells_nothing c
  · split
    · exact tells_recordFailure c now
    · exact tells_recordSuccess c now

theorem tells_release (c : Circuit) (g : Generation) : Tells c (c.release g) [] := by
  obtain hc | ⟨issued, successes, hp, hc⟩ := release_eq c g
  · rw [hc]
    exact tells_nothing c
  · rw [hc]
    exact tells_probes hp fun hle => Nat.le_trans (Nat.sub_le issued 1) hle

theorem tells_forceOpen (c : Circuit) (now : Instant) :
    Tells c (c.forceOpen now).1 (c.forceOpen now).2 := by
  apply tells_enter
  · intro h
    exact h.restart rfl
  · intro hhalf
    cases hhalf

theorem tells_reset (c : Circuit) (now : Instant) :
    Tells c (c.reset now).1 (c.reset now).2 := by
  apply (tells_enter c now _ _).lastFailure
  · intro h
    exact h.restart rfl
  · intro hhalf
    cases hhalf

/-- **Every operation tells what it did.** -/
theorem tells_act (c : Circuit) (now : Instant) (a : Act) :
    Tells c (c.act now a).1 (c.act now a).2 := by
  cases a with
  | canExecute => exact tells_acquire c now
  | acquire => exact tells_acquire c now
  | success => exact tells_recordSuccess c now
  | failure => exact tells_recordFailure c now
  | forceOpen => exact tells_forceOpen c now
  | reset => exact tells_reset c now
  | settle admitted failure => exact tells_settle c now admitted failure
  | release admitted => exact tells_release c admitted
  | advance d => exact tells_nothing c

end Circuit

/-! ### What is told in the end -/

/-- The changes of state that occurrences tell of, in order. -/
def changesOf (os : List (Occurrence CircuitEvent)) : List (CircuitState × CircuitState) :=
  os.filterMap fun o => o.event.change?

theorem changesOf_append (os os' : List (Occurrence CircuitEvent)) :
    changesOf (os ++ os') = changesOf os ++ changesOf os' :=
  List.filterMap_append

section

variable {name : String} {os : List (Occurrence CircuitEvent)}

theorem CircuitEvent.set_measurements (name : String) (e : CircuitEvent) :
    (Observed.measurements name e).filterMap
        (·.set? "circuitbreaker_state" [("circuitbreaker", name)]) =
      e.change?.toList.map fun x => x.2.gauge := by
  cases e with
  | transition before after => simp [Observed.measurements, Measurement.set?, change?]
  | callPermitted s => rfl
  | callRejected => rfl
  | succeeded s => rfl
  | failed s => rfl

theorem CircuitEvent.kind?_of_change {e : CircuitEvent} {x : CircuitState × CircuitState}
    (h : e.change? = some x) : Observed.kind? e = some "state_transition" := by
  cases e with
  | transition before after => rfl
  | _ => cases h

end

/-! ### Runs -/

namespace Circuit

/-- A circuit and everything that was told of it. -/
structure Watched where
  now : Instant
  circuit : Circuit
  told : List (Occurrence CircuitEvent)

namespace Watched

def step (w : Watched) (a : Act) : Watched :=
  let done := w.circuit.act w.now a
  { now := match a with
      | .advance d => w.now + d
      | _ => w.now
    circuit := done.1
    told := w.told ++ done.2.map fun e => ⟨w.circuit.name, w.now, e⟩ }

def run (w : Watched) (acts : List Act) : Watched := acts.foldl step w

/-- A circuit of which nothing has been told yet. -/
def fresh (c : Circuit) (now : Instant) : Watched := ⟨now, c, []⟩

/-- What has been told of a circuit that was `c` at first is true. -/
structure Truthful (c : Circuit) (w : Watched) : Prop where
  name : w.circuit.name = c.name
  threshold : w.circuit.threshold = c.threshold
  probes : w.circuit.probes = c.probes
  consistent : w.circuit.Consistent
  within : w.circuit.phase.Within w.circuit.threshold w.circuit.probes
  unbroken : Unbroken c.phase.state (changesOf w.told) w.circuit.phase.state
  component : ∀ o ∈ w.told, o.component = c.name

variable {c : Circuit} {w : Watched}

namespace Truthful

theorem step (h : Truthful c w) (a : Act) : Truthful c (w.step a) := by
  have htells := tells_act w.circuit w.now a
  refine ⟨htells.name.trans h.name, htells.threshold.trans h.threshold,
    htells.probes.trans h.probes, htells.consistent h.consistent, ?_, ?_, ?_⟩
  · have hwithin := htells.within h.within
    rw [← htells.threshold, ← htells.probes] at hwithin
    exact hwithin
  · have hnew : changesOf ((w.circuit.act w.now a).2.map fun e => ⟨w.circuit.name, w.now, e⟩) =
        (w.circuit.act w.now a).2.filterMap CircuitEvent.change? :=
      List.filterMap_map
    show Unbroken c.phase.state (changesOf (w.told ++ _)) _
    rw [changesOf_append, hnew]
    exact h.unbroken.append htells.unbroken
  · intro o ho
    rcases List.mem_append.mp ho with hold | hnew
    · exact h.component o hold
    · obtain ⟨e, _, rfl⟩ := List.mem_map.mp hnew
      exact h.name

theorem run (h : Truthful c w) (acts : List Act) : Truthful c (w.run acts) := by
  induction acts generalizing w with
  | nil => exact h
  | cons a acts ih => exact ih (h.step a)

end Truthful

end Watched

/-- Outcomes of calls that nobody admitted count like any others. -/
example :
    let w := (Watched.fresh (new "db" 0 5 0 0) 0).run
      [.success, .failure, .success, .advance 5, .canExecute, .release 2, .success, .success,
        .forceOpen, .forceOpen]
    changesOf w.told =
      [(.closed, .opened), (.opened, .halfOpen), (.halfOpen, .closed), (.closed, .opened)] ∧
      w.circuit.phase = .opened 5 := by
  decide

end Circuit

end Floodgate
