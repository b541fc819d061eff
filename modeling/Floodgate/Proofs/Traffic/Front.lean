/-
  Floodgate/Proofs/Traffic/Front.lean
  ===================================
  **Stages in front of others.**  Rendering, admission control and the circuit breaker
  answer some calls themselves and pass all others on as they are.  Whoever stands
  behind such a stage sees traffic of its own: the same calls under the same numbers,
  with those left out that the stage kept to itself.

  `Front` says what it takes for that.  Every move in front of a stage is then one
  move behind it (`behind_step`), so what every move of a pipeline keeps is kept behind
  any such stage.  A `Passage` is all that is left to say of several stages.
-/
import Floodgate.Proofs.Traffic.Basic

namespace Floodgate

/-! ### Traffic behind a stage -/

namespace Slot

variable {κ κ' β β' : Type}

/-- A slot as it looks behind a stage; what the stage kept to itself never was. -/
def behind (call : κ → Option κ') (body : β → Option β') : Slot κ β → Slot κ' β'
  | .calling c =>
    match call c with
    | some inner => .calling inner
    | none => .gone
  | .reading b =>
    match body b with
    | some inner => .reading inner
    | none => .gone
  | .gone => .gone

variable {call : κ → Option κ'} {body : β → Option β'} {s : Slot κ β}

theorem eq_calling_of_behind {i : κ'} (h : s.behind call body = .calling i) :
    ∃ c, s = .calling c ∧ call c = some i := by
  cases s with
  | calling c =>
    cases hc : call c with
    | none => simp [behind, hc] at h
    | some j =>
      simp only [behind, hc, calling.injEq] at h
      exact ⟨c, rfl, by rw [hc, h]⟩
  | reading b => cases hb : body b <;> simp [behind, hb] at h
  | gone => cases h

theorem eq_reading_of_behind {i : β'} (h : s.behind call body = .reading i) :
    ∃ b, s = .reading b ∧ body b = some i := by
  cases s with
  | calling c => cases hc : call c <;> simp [behind, hc] at h
  | reading b =>
    cases hb : body b with
    | none => simp [behind, hb] at h
    | some j =>
      simp only [behind, hb, reading.injEq] at h
      exact ⟨b, rfl, by rw [hb, h]⟩
  | gone => cases h

end Slot

/-- A stage `Q` around `P` that answers calls itself or passes them on. -/
structure Front {π η : Type} (Q P : Pipeline π η) where
  state : Q.State → P.State
  /-- The call that was passed on. -/
  call : Q.Call → Option P.Call
  body : Q.Body → Option P.Body
  /-- Whether the stage asks those behind it if they are ready. -/
  asks : Q.State → Bool
  ready_eq : ∀ s, state (Q.ready s).2 = if asks s then (P.ready (state s)).2 else state s
  start_cases : ∀ now r p s,
    (call (Q.start now r p s).value = none ∧ state (Q.start now r p s).state = state s) ∨
    (call (Q.start now r p s).value = some (P.start now r p (state s)).value ∧
      state (Q.start now r p s).state = (P.start now r p (state s)).state)
  poll_none : ∀ now c s, call c = none →
    state (Q.poll now c s).state = state s ∧
      (Slot.ofProgress (Q.poll now c s).value).behind call body = .gone
  poll_some : ∀ now c s i, call c = some i →
    state (Q.poll now c s).state = (P.poll now i (state s)).state ∧
      (Slot.ofProgress (Q.poll now c s).value).behind call body =
        .ofProgress (P.poll now i (state s)).value
  abandon_none : ∀ c s, call c = none → state (Q.abandon c s) = state s
  abandon_some : ∀ c s i, call c = some i → state (Q.abandon c s) = P.abandon i (state s)
  pull_none : ∀ b s, body b = none →
    state (Q.pull b s).state = state s ∧ body (restOf (Q.pull b s).value) = none
  pull_some : ∀ b s i, body b = some i →
    state (Q.pull b s).state = (P.pull i (state s)).state ∧
      body (restOf (Q.pull b s).value) = some (restOf (P.pull i (state s)).value)
  obey_eq : ∀ now o s, state (Q.obey now o s).state = (P.obey now o (state s)).state
  core_eq : ∀ (change : η → η) s,
    state (Q.withCore (change (Q.core s)) s) = P.withCore (change (P.core (state s))) (state s)

namespace Front

variable {π η : Type} {Q P : Pipeline π η} (F : Front Q P)

/-- A slot as it looks behind the stage. -/
def slot (s : Slot Q.Call Q.Body) : Slot P.Call P.Body := s.behind F.call F.body

/-- The traffic behind the stage. -/
def behind (t : Q.Callers) : P.Callers := ⟨t.now, F.state t.state, t.slots.map F.slot⟩

/-- What a move comes to behind the stage. -/
def inward (t : Q.Callers) : Move π η → Move π η
  | .ready => if F.asks t.state then .ready else .advance 0
  | .call r p => if (F.call (Q.start t.now r p t.state).value).isSome then .call r p else .skip
  | m => m

@[simp] theorem behind_now (t : Q.Callers) : (F.behind t).now = t.now := rfl

@[simp] theorem behind_state (t : Q.Callers) : (F.behind t).state = F.state t.state := rfl

@[simp] theorem behind_slots (t : Q.Callers) : (F.behind t).slots = t.slots.map F.slot := rfl

theorem behind_getElem? {t : Q.Callers} {n : Nat} {s : Slot Q.Call Q.Body}
    (h : t.slots[n]? = some s) : (F.behind t).slots[n]? = some (F.slot s) := by
  rw [behind_slots, List.getElem?_map, h]
  rfl

theorem slot_calling {c : Q.Call} {i : P.Call} (h : F.call c = some i) :
    F.slot (.calling c) = .calling i := by
  simp only [slot, Slot.behind, h]

theorem slot_calling_none {c : Q.Call} (h : F.call c = none) : F.slot (.calling c) = .gone := by
  simp only [slot, Slot.behind, h]

theorem slot_reading {b : Q.Body} {i : P.Body} (h : F.body b = some i) :
    F.slot (.reading b) = .reading i := by
  simp only [slot, Slot.behind, h]

theorem slot_reading_none {b : Q.Body} (h : F.body b = none) : F.slot (.reading b) = .gone := by
  simp only [slot, Slot.behind, h]

variable {F} {t : Q.Callers}

theorem map_set_same {n : Nat} {s s' : Slot Q.Call Q.Body} (h : t.slots[n]? = some s)
    (hs : F.slot s' = F.slot s) : (t.slots.set n s').map F.slot = t.slots.map F.slot := by
  rw [List.map_set, hs]
  exact set_getElem?_eq_self (F.behind_getElem? h)

theorem calling_of_behind {n : Nat} {i : P.Call}
    (h : (F.behind t).slots[n]? = some (.calling i)) :
    ∃ c, t.slots[n]? = some (.calling c) ∧ F.call c = some i := by
  rw [behind_slots, List.getElem?_map, Option.map_eq_some_iff] at h
  obtain ⟨s, hs, hslot⟩ := h
  obtain ⟨c, rfl, hc⟩ := Slot.eq_calling_of_behind hslot
  exact ⟨c, hs, hc⟩

theorem reading_of_behind {n : Nat} {i : P.Body}
    (h : (F.behind t).slots[n]? = some (.reading i)) :
    ∃ b, t.slots[n]? = some (.reading b) ∧ F.body b = some i := by
  rw [behind_slots, List.getElem?_map, Option.map_eq_some_iff] at h
  obtain ⟨s, hs, hslot⟩ := h
  obtain ⟨b, rfl, hb⟩ := Slot.eq_reading_of_behind hslot
  exact ⟨b, hs, hb⟩

/-! ### One move -/

theorem behind_poll (F : Front Q P) (t : Q.Callers) (n : Nat) :
    F.behind (Q.stepPoll t n) = P.stepPoll (F.behind t) n := by
  rcases Pipeline.stepPoll_cases t n with ⟨hn, hidle⟩ | ⟨c, hslot, hpoll⟩
  · have hbehind : ∀ i, (F.behind t).slots[n]? ≠ some (.calling i) := by
      intro i hi
      obtain ⟨c, hc, _⟩ := calling_of_behind hi
      exact hn c hc
    rw [hidle, Pipeline.stepPoll_idle hbehind]
  · rw [hpoll]
    cases hc : F.call c with
    | none =>
      obtain ⟨hstate, hover⟩ := F.poll_none t.now c t.state hc
      have hbehind : ∀ i, (F.behind t).slots[n]? ≠ some (.calling i) := by
        intro i hi
        obtain ⟨c', hc', hcall⟩ := calling_of_behind hi
        rw [hslot] at hc'
        cases hc'
        rw [hc] at hcall
        cases hcall
      have hsame := map_set_same (F := F) hslot (hover.trans (F.slot_calling_none hc).symm)
      rw [Pipeline.stepPoll_idle hbehind]
      simp only [behind, hstate, hsame]
    | some i =>
      obtain ⟨hstate, hvalue⟩ := F.poll_some t.now c t.state i hc
      have hbehind := F.behind_getElem? hslot
      rw [F.slot_calling hc] at hbehind
      rw [Pipeline.stepPoll_calling hbehind]
      simp only [behind, hstate, List.map_set]
      exact congrArg (fun s => (⟨t.now, _, (t.slots.map F.slot).set n s⟩ : P.Callers)) hvalue

theorem behind_drop (F : Front Q P) (t : Q.Callers) (n : Nat) :
    F.behind (Q.stepDrop t n) = P.stepDrop (F.behind t) n := by
  rcases Pipeline.stepDrop_cases t n with ⟨hn, hidle⟩ | ⟨c, hslot, hdrop⟩ | ⟨b, hslot, hdrop⟩
  · have hbehind : (F.behind t).slots[n]? = none ∨ (F.behind t).slots[n]? = some .gone := by
      rcases hn with hn | hn
      · exact .inl (by rw [behind_slots, List.getElem?_map, hn]; rfl)
      · exact .inr (F.behind_getElem? hn)
    rw [hidle, Pipeline.stepDrop_idle hbehind]
  · rw [hdrop]
    have hbehind := F.behind_getElem? hslot
    cases hc : F.call c with
    | none =>
      rw [F.slot_calling_none hc] at hbehind
      have hsame : (t.slots.set n .gone).map F.slot = t.slots.map F.slot :=
        map_set_same hslot (F.slot_calling_none hc).symm
      rw [Pipeline.stepDrop_idle (.inr hbehind)]
      simp only [behind, F.abandon_none c t.state hc, hsame]
    | some i =>
      rw [F.slot_calling hc] at hbehind
      rw [Pipeline.stepDrop_calling hbehind]
      simp only [behind, F.abandon_some c t.state i hc, List.map_set]
      rfl
  · rw [hdrop]
    have hbehind := F.behind_getElem? hslot
    cases hb : F.body b with
    | none =>
      rw [F.slot_reading_none hb] at hbehind
      have hsame : (t.slots.set n .gone).map F.slot = t.slots.map F.slot :=
        map_set_same hslot (F.slot_reading_none hb).symm
      rw [Pipeline.stepDrop_idle (.inr hbehind)]
      simp only [behind, hsame]
    | some i =>
      rw [F.slot_reading hb] at hbehind
      rw [Pipeline.stepDrop_reading hbehind]
      simp only [behind, List.map_set]
      rfl

theorem behind_pull (F : Front Q P) (t : Q.Callers) (n : Nat) :
    F.behind (Q.stepPull t n) = P.stepPull (F.behind t) n := by
  rcases Pipeline.stepPull_cases t n with ⟨hn, hidle⟩ | ⟨b, hslot, hpull⟩
  · have hbehind : ∀ i, (F.behind t).slots[n]? ≠ some (.reading i) := by
      intro i hi
      obtain ⟨b, hb, _⟩ := reading_of_behind hi
      exact hn b hb
    rw [hidle, Pipeline.stepPull_idle hbehind]
  · rw [hpull]
    cases hb : F.body b with
    | none =>
      obtain ⟨hstate, hrest⟩ := F.pull_none b t.state hb
      have hbehind : ∀ i, (F.behind t).slots[n]? ≠ some (.reading i) := by
        intro i hi
        obtain ⟨b', hb', hbody⟩ := reading_of_behind hi
        rw [hslot] at hb'
        cases hb'
        rw [hb] at hbody
        cases hbody
      have hsame := map_set_same (F := F) hslot
        ((F.slot_reading_none hrest).trans (F.slot_reading_none hb).symm)
      rw [Pipeline.stepPull_idle hbehind]
      simp only [behind, hstate, hsame]
    | some i =>
      obtain ⟨hstate, hrest⟩ := F.pull_some b t.state i hb
      have hbehind := F.behind_getElem? hslot
      rw [F.slot_reading hb] at hbehind
      rw [Pipeline.stepPull_reading hbehind]
      simp only [behind, hstate, List.map_set, F.slot_reading hrest]

theorem behind_call (F : Front Q P) (t : Q.Callers) (r : Http.Request) (p : π) :
    F.behind (Q.step t (.call r p)) = P.step (F.behind t) (F.inward t (.call r p)) := by
  rcases F.start_cases t.now r p t.state with ⟨hc, hstate⟩ | ⟨hc, hstate⟩
  · simp only [inward, hc, Option.isSome_none, Bool.false_eq_true, if_false, Pipeline.step, behind,
      hstate, List.map_append, List.map_cons, List.map_nil, F.slot_calling_none hc]
  · simp only [inward, hc, Option.isSome_some, if_true, Pipeline.step, behind, hstate,
      List.map_append, List.map_cons, List.map_nil, F.slot_calling hc]

/-- **A move in front of a stage is a move behind it.** -/
theorem behind_step (F : Front Q P) (t : Q.Callers) (m : Move π η) :
    F.behind (Q.step t m) = P.step (F.behind t) (F.inward t m) := by
  cases m with
  | ready =>
    have hready := F.ready_eq t.state
    by_cases ha : F.asks t.state
    · simp only [ha, if_true] at hready
      simp only [inward, ha, if_true, Pipeline.step, behind, hready]
    · simp only [ha, Bool.false_eq_true, if_false] at hready
      simp only [inward, ha, Bool.false_eq_true, if_false, Pipeline.step, behind, hready,
        Nat.add_zero]
  | call r p => exact F.behind_call t r p
  | skip =>
    simp only [inward, Pipeline.step, behind, List.map_append, List.map_cons, List.map_nil]
    rfl
  | poll n => exact F.behind_poll t n
  | drop n => exact F.behind_drop t n
  | pull n => exact F.behind_pull t n
  | advance d => rfl
  | order o => simp only [inward, Pipeline.step, behind, F.obey_eq]
  | core change => simp only [inward, Pipeline.step, behind, F.core_eq]

/-- Behind a stage that keeps nothing to itself every run is the same run. -/
theorem behind_run (F : Front Q P) (h : ∀ t m, F.inward t m = m) (t : Q.Callers)
    (moves : List (Move π η)) : F.behind (Q.run t moves) = P.run (F.behind t) moves := by
  induction moves generalizing t with
  | nil => rfl
  | cons m moves ih => rw [Pipeline.run_cons, ih, behind_step, h, Pipeline.run_cons]

end Front

/-! ### Several stages -/

/-- Traffic in front of some stages and what it comes to behind them, under the same numbers. -/
structure Passage {π η : Type} (Q P : Pipeline π η) where
  behind : Q.Callers → P.Callers
  inward : Q.Callers → Move π η → Move π η
  behind_step : ∀ t m, behind (Q.step t m) = P.step (behind t) (inward t m)
  length_behind : ∀ t, (behind t).slots.length = t.slots.length
  inward_cases : ∀ t m, inward t m = m ∨ inward t m = .skip ∨ inward t m = .advance 0

/-- Nobody gives orders to the circuit. -/
def Move.Calm {π η : Type} : Move π η → Prop
  | .order (.circuit _) => False
  | _ => True

namespace Passage

variable {π η : Type} {R Q P : Pipeline π η}

/-- The one stage after the other. -/
def trans (A : Passage R Q) (B : Passage Q P) : Passage R P where
  behind t := B.behind (A.behind t)
  inward t m := B.inward (A.behind t) (A.inward t m)
  behind_step t m := by rw [A.behind_step, B.behind_step]
  length_behind t := by rw [B.length_behind, A.length_behind]
  inward_cases t m := by
    rcases A.inward_cases t m with hA | hA | hA
    · rw [hA]
      exact B.inward_cases (A.behind t) m
    · rw [hA]
      rcases B.inward_cases (A.behind t) .skip with hB | hB | hB
      · exact .inr (.inl hB)
      · exact .inr (.inl hB)
      · exact .inr (.inr hB)
    · rw [hA]
      rcases B.inward_cases (A.behind t) (.advance 0) with hB | hB | hB
      · exact .inr (.inr hB)
      · exact .inr (.inl hB)
      · exact .inr (.inr hB)

/-- What is to be seen of a pipeline does not matter to its callers. -/
def unseen (P : Pipeline π η) (views : P.State → List StageView) :
    Passage { P with views := views } P where
  behind t := t
  inward _ m := m
  behind_step t m := by
    cases m with
    | poll n =>
      rcases P.stepPoll_cases t n with ⟨hn, hidle⟩ | ⟨call, hslot, hpoll⟩
      · exact (Pipeline.stepPoll_idle (P := { P with views := views }) hn).trans hidle.symm
      · exact (Pipeline.stepPoll_calling hslot).trans hpoll.symm
    | drop n =>
      rcases P.stepDrop_cases t n with ⟨hn, hidle⟩ | ⟨call, hslot, hdrop⟩ | ⟨body, hslot, hdrop⟩
      · exact (Pipeline.stepDrop_idle hn).trans hidle.symm
      · exact (Pipeline.stepDrop_calling hslot).trans hdrop.symm
      · exact (Pipeline.stepDrop_reading hslot).trans hdrop.symm
    | pull n =>
      rcases P.stepPull_cases t n with ⟨hn, hidle⟩ | ⟨body, hslot, hpull⟩
      · exact (Pipeline.stepPull_idle (P := { P with views := views }) hn).trans hidle.symm
      · exact (Pipeline.stepPull_reading hslot).trans hpull.symm
    | _ => rfl
  length_behind _ := rfl
  inward_cases _ _ := .inl rfl

/-- Those who give no orders to the circuit give none behind the stages. -/
theorem calm (A : Passage Q P) {t : Q.Callers} {m : Move π η} (hm : m.Calm) :
    (A.inward t m).Calm := by
  rcases A.inward_cases t m with h | h | h
  · rw [h]
    exact hm
  · rw [h]
    trivial
  · rw [h]
    trivial

end Passage

/-- A single stage. -/
def Front.passage {π η : Type} {Q P : Pipeline π η} (F : Front Q P) : Passage Q P where
  behind := F.behind
  inward := F.inward
  behind_step := F.behind_step
  length_behind t := List.length_map ..
  inward_cases t m := by
    cases m with
    | ready => cases h : F.asks t.state <;> simp [Front.inward, h]
    | call r p =>
      cases h : (F.call (Q.start t.now r p t.state).value).isSome <;> simp [Front.inward, h]
    | _ => exact .inl rfl

/-! ### The stages of the edge that pass calls on -/

section

variable {π η : Type}

/-- A call of admission control that was let through. -/
def Limited.Call.inner? {κ : Type} : Limited.Call κ → Option κ
  | .rejected _ => none
  | .admitted inner => some inner

/-- A call of a circuit breaker that was let through. -/
def Guarded.Call.inner? {κ : Type} : Guarded.Call κ → Option κ
  | .passed inner => some inner
  | .rejected => none
  | .admitted _ inner => some inner

/-- A call of a rendering stage that is not answered with a failure that was held. -/
def Rendered.Call.inner? {κ : Type} : Rendered.Call κ → Option κ
  | .answered _ => none
  | .passed inner => some inner

/-- A body that is passed on. -/
def Relayed.inner? {β : Type} : Relayed β → Option β
  | .own _ => none
  | .passed inner => some inner

variable {S : Service π} {now : Instant} {r : Http.Request} {p : π}

theorem Limited.start_cases (o : LimiterOptions) (s : Layered (Limiter Float) S.State) :
    ((start o S now r p s).value.inner? = none ∧ (start o S now r p s).state.inner = s.inner) ∨
    ((start o S now r p s).value.inner? = some (S.start now r p s.inner).value ∧
      (start o S now r p s).state.inner = (S.start now r p s.inner).state) := by
  unfold start
  split
  · dsimp only
    split
    · exact .inr ⟨rfl, rfl⟩
    · exact .inl ⟨rfl, rfl⟩
  · exact .inr ⟨rfl, rfl⟩

theorem Guarded.start_cases (o : BreakerOptions) (s : Layered Circuit S.State) :
    ((start o S now r p s).value.inner? = none ∧ (start o S now r p s).state.inner = s.inner) ∨
    ((start o S now r p s).value.inner? = some (S.start now r p s.inner).value ∧
      (start o S now r p s).state.inner = (S.start now r p s.inner).state) := by
  unfold start
  split
  · dsimp only
    split
    · exact .inr ⟨rfl, rfl⟩
    · exact .inl ⟨rfl, rfl⟩
  · exact .inr ⟨rfl, rfl⟩

theorem Rendered.start_cases (s : Layered (Option Failure) S.State) :
    ((start S now r p s).value.inner? = none ∧ (start S now r p s).state.inner = s.inner) ∨
    ((start S now r p s).value.inner? = some (S.start now r p s.inner).value ∧
      (start S now r p s).state.inner = (S.start now r p s.inner).state) := by
  unfold start
  split
  · exact .inl ⟨rfl, rfl⟩
  · exact .inr ⟨rfl, rfl⟩

/-- Admission control in front of a pipeline. -/
def Limited.front (o : LimiterOptions) (P : Pipeline π η) : Front (P.limited o) P where
  state s := s.inner
  call c := c.inner?
  body b := some b
  asks _ := true
  ready_eq _ := rfl
  start_cases _ _ _ s := Limited.start_cases o s
  poll_none now c s h := by
    cases c with
    | rejected f => exact ⟨rfl, rfl⟩
    | admitted inner => cases h
  poll_some now c s i h := by
    cases c with
    | rejected f => cases h
    | admitted inner =>
      cases h
      refine ⟨rfl, ?_⟩
      show Slot.behind _ _
        (Slot.ofProgress ((P.poll now i s.inner).value.map Limited.Call.admitted id)) = _
      cases (P.poll now i s.inner).value with
      | pending j => rfl
      | done answer => cases answer <;> rfl
  abandon_none c s h := by
    cases c with
    | rejected f => rfl
    | admitted inner => cases h
  abandon_some c s i h := by
    cases c with
    | rejected f => cases h
    | admitted inner =>
      cases h
      rfl
  pull_none _ _ h := by cases h
  pull_some _ _ i h := by
    cases h
    exact ⟨rfl, rfl⟩
  obey_eq _ _ _ := rfl
  core_eq _ _ := rfl

/-- A circuit breaker in front of a pipeline. -/
def Guarded.front (o : BreakerOptions) (P : Pipeline π η) : Front (P.guarded o) P where
  state s := s.inner
  call c := c.inner?
  body b := some b
  asks _ := true
  ready_eq _ := rfl
  start_cases _ _ _ s := Guarded.start_cases o s
  poll_none now c s h := by
    cases c with
    | passed inner => cases h
    | rejected => exact ⟨rfl, rfl⟩
    | admitted g inner => cases h
  poll_some now c s i h := by
    cases c with
    | passed inner =>
      cases h
      refine ⟨rfl, ?_⟩
      show Slot.behind _ _
        (Slot.ofProgress ((P.poll now i s.inner).value.map Guarded.Call.passed id)) = _
      cases (P.poll now i s.inner).value with
      | pending j => rfl
      | done answer => cases answer <;> rfl
    | rejected => cases h
    | admitted g inner =>
      cases h
      show (Guarded.poll o P.toService now (.admitted g i) s).state.inner = _ ∧
        Slot.behind _ _
          (Slot.ofProgress (Guarded.poll o P.toService now (.admitted g i) s).value) = _
      cases hv : (P.poll now i s.inner).value with
      | pending j =>
        simp only [Guarded.poll, hv]
        exact ⟨trivial, rfl⟩
      | done answer =>
        simp only [Guarded.poll, hv]
        cases answer <;> exact ⟨trivial, rfl⟩
  abandon_none c s h := by
    cases c with
    | passed inner => cases h
    | rejected => rfl
    | admitted g inner => cases h
  abandon_some c s i h := by
    cases c with
    | passed inner =>
      cases h
      rfl
    | rejected => cases h
    | admitted g inner =>
      cases h
      rfl
  pull_none _ _ h := by cases h
  pull_some _ _ i h := by
    cases h
    exact ⟨rfl, rfl⟩
  obey_eq _ _ _ := rfl
  core_eq _ _ := rfl

/-- A rendering stage in front of a pipeline. -/
def Rendered.front (P : Pipeline π η) : Front P.rendered P where
  state s := s.inner
  call c := c.inner?
  body b := b.inner?
  asks s := s.own.isNone
  ready_eq s := by
    obtain ⟨own, inner⟩ := s
    cases own with
    | some f => rfl
    | none =>
      show (Rendered.ready P.toService ⟨none, inner⟩).2.inner = (P.ready inner).2
      simp only [Rendered.ready]
      split <;> rfl
  start_cases _ _ _ s := Rendered.start_cases s
  poll_none now c s h := by
    cases c with
    | answered r => exact ⟨rfl, rfl⟩
    | passed inner => cases h
  poll_some now c s i h := by
    cases c with
    | answered r => cases h
    | passed inner =>
      cases h
      show (Rendered.poll P.toService now (.passed i) s).state.inner = _ ∧
        Slot.behind _ _ (Slot.ofProgress (Rendered.poll P.toService now (.passed i) s).value) = _
      cases hv : (P.poll now i s.inner).value with
      | pending j =>
        simp only [Rendered.poll, hv]
        exact ⟨trivial, rfl⟩
      | done answer =>
        cases answer with
        | error f =>
          simp only [Rendered.poll, hv]
          exact ⟨trivial, rfl⟩
        | ok r =>
          simp only [Rendered.poll, hv]
          exact ⟨trivial, rfl⟩
  abandon_none c s h := by
    cases c with
    | answered r => rfl
    | passed inner => cases h
  abandon_some c s i h := by
    cases c with
    | answered r => cases h
    | passed inner =>
      cases h
      rfl
  pull_none b s h := by
    cases b with
    | own r =>
      refine ⟨rfl, ?_⟩
      show Relayed.inner? (restOf (r.pull.map Relayed.own)) = none
      cases r.pull <;> rfl
    | passed inner => cases h
  pull_some b s i h := by
    cases b with
    | own r => cases h
    | passed inner =>
      cases h
      refine ⟨rfl, ?_⟩
      show Relayed.inner? (restOf ((P.pull i s.inner).value.map Relayed.passed)) = _
      cases (P.pull i s.inner).value <;> rfl
  obey_eq _ _ _ := rfl
  core_eq _ _ := rfl

end

end Floodgate
