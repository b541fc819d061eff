/-
  Floodgate/Proofs/Circuit/Permits.lean
  =====================================
  **What calls come to at the circuit.**  A call that a circuit breaker lets through
  holds a permit, the generation that it was admitted under, until it ends or is given
  up.  Everything that traffic can do to the circuit is one of a few deeds: a call is
  admitted or refused, an admitted call ends or is given up, an operator opens or
  closes the circuit.

  `dealt_move` says what each of them does to the circuit and to the permits.  It is
  the only place where the stage of the breaker is taken apart; what is proved of
  circuits under traffic is proved from it, by cases on the deed.
-/
import Floodgate.Proofs.Circuit.Basic
import Floodgate.Proofs.Traffic.Basic

namespace Floodgate

/-- The circuit hears of calls from the calls alone.  Operators may open and close it. -/
def Move.Orderly {π η : Type} : Move π η → Prop
  | .order (.circuit .canExecute) => False
  | .order (.circuit .success) => False
  | .order (.circuit .failure) => False
  | _ => True

/-- What can be seen of a breaker from outside. -/
inductive Deed where
  /-- Nothing that concerns the circuit. -/
  | nothing
  /-- The call of this number was let through. -/
  | admitted (n : Nat)
  | refused (n : Nat)
  /-- A call that was let through came to its end. -/
  | ended (n : Nat) (failure : Bool)
  /-- A call that was let through was given up. -/
  | dropped (n : Nat)
  /-- An operator opened the circuit. -/
  | forced
  /-- An operator closed the circuit. -/
  | reset
deriving DecidableEq, Repr

/-- The permits that calls hold, by the number of the call. -/
abbrev Permits := List (Option Generation)

/-- Calls under way that were admitted under a generation. -/
def Permits.held (ps : Permits) (g : Generation) : Nat := ps.count (some g)

/-- What a deed does to the circuit and to the permits. -/
inductive Dealt (now : Instant) (c : Circuit) (ps : Permits) : Deed → Circuit → Permits → Prop where
  | idle : Dealt now c ps .nothing c ps
  /-- A call was made that never got to the circuit. -/
  | skipped : Dealt now c ps .nothing c (ps ++ [none])
  | admitted (g : Generation) (asked : (c.acquire now).1 = some g) :
      Dealt now c ps (.admitted ps.length) (c.acquire now).2.1 (ps ++ [some g])
  | refused (asked : (c.acquire now).1 = none) :
      Dealt now c ps (.refused ps.length) (c.acquire now).2.1 (ps ++ [none])
  | ended (n : Nat) (g : Generation) (failure : Bool) (held : ps[n]? = some (some g)) :
      Dealt now c ps (.ended n failure) (c.settle now g failure).1 (ps.set n none)
  | dropped (n : Nat) (g : Generation) (held : ps[n]? = some (some g)) :
      Dealt now c ps (.dropped n) (c.release g) (ps.set n none)
  | forced : Dealt now c ps .forced (c.forceOpen now).1 ps
  | reset : Dealt now c ps .reset (c.reset now).1 ps

theorem Dealt.follows {now : Instant} {c c' : Circuit} {ps ps' : Permits} {x : Deed}
    (h : Dealt now c ps x c' ps') : Circuit.Follows c c' := by
  cases h with
  | idle => exact Circuit.Follows.refl c
  | skipped => exact Circuit.Follows.refl c
  | admitted g asked => exact Circuit.follows_acquire c now
  | refused asked => exact Circuit.follows_acquire c now
  | ended n g failure held => exact Circuit.follows_settle c now g failure
  | dropped n g held => exact Circuit.follows_release c g
  | forced => exact Circuit.follows_enter c now _
  | reset => exact Circuit.follows_reset c now

/-! ### Counting permits -/

theorem Permits.held_set {ps : Permits} {n : Nat} {g : Generation} (h : ps[n]? = some (some g))
    (g' : Generation) : held (ps.set n none) g' = held ps g' - if g = g' then 1 else 0 := by
  obtain ⟨hn, hg⟩ := List.getElem?_eq_some_iff.mp h
  unfold held
  rw [List.count_set hn, hg]
  by_cases hgg : g = g' <;> simp [hgg]

theorem Permits.held_pos {ps : Permits} {n : Nat} {g : Generation} (h : ps[n]? = some (some g)) :
    0 < ps.held g :=
  List.count_pos_iff.mpr (List.mem_of_getElem? h)

theorem Permits.mem_of_mem_set {ps : Permits} {n : Nat} {g : Generation}
    (h : some g ∈ ps.set n none) : some g ∈ ps := by
  rcases List.mem_or_eq_of_mem_set h with hmem | heq
  · exact hmem
  · cases heq

theorem Permits.getElem?_set {ps : Permits} {n n' : Nat} {g : Generation}
    (h : (ps.set n' none)[n]? = some (some g)) : ps[n]? = some (some g) := by
  rcases getElem?_set_cases h with ⟨_, hp⟩ | ⟨_, hold⟩
  · cases hp
  · exact hold

theorem Permits.held_eq_zero {ps : Permits} {g : Generation} (h : some g ∉ ps) : ps.held g = 0 :=
  List.count_eq_zero_of_not_mem h

@[simp] theorem Permits.held_append_none (ps : Permits) (g : Generation) :
    held (ps ++ [none]) g = held ps g := by
  simp [held]

theorem Permits.held_append_some (ps : Permits) (g g' : Generation) :
    held (ps ++ [some g]) g' = held ps g' + if g = g' then 1 else 0 := by
  by_cases h : g = g' <;> simp [held, h]

namespace Guarded

variable {π η : Type}

/-- The permit of a call, while it goes on. -/
def permit {κ β : Type} : Slot (Call κ) β → Option Generation
  | .calling (.admitted generation _) => some generation
  | _ => none

def permits {σ κ β : Type} (t : Traffic (Layered Circuit σ) (Call κ) β) : Permits :=
  t.slots.map permit

/-- How polling a call that was let through ends, if it does. -/
def ending (o : BreakerOptions) (n : Nat) {κ β : Type} : Progress κ β → Deed
  | .pending _ => .nothing
  | .done answer => .ended n (o.classifier.isFailure (outcome answer))

variable (o : BreakerOptions) (P : Pipeline π η)

/-- A breaker and its callers. -/
abbrev Callers := Traffic (Layered Circuit P.State) (Call P.Call) P.Body

/-- What a move comes to at the circuit. -/
def deed (t : Callers P) : Move π η → Deed
  | .call _ _ =>
    match (t.state.own.acquire t.now).1 with
    | some _ => .admitted t.slots.length
    | none => .refused t.slots.length
  | .poll n =>
    match t.slots[n]? with
    | some (.calling (.admitted _ inner)) => ending o n (P.poll t.now inner t.state.inner).value
    | _ => .nothing
  | .drop n =>
    match t.slots[n]? with
    | some (.calling (.admitted _ _)) => .dropped n
    | _ => .nothing
  | .order (.circuit .forceOpen) => .forced
  | .order (.circuit .reset) => .reset
  | _ => .nothing

def move (t : Callers P) (m : Move π η) : Callers P := (P.guarded o).step t m

/-! ### Permits as slots change -/

variable {o P} {t : Callers P} {m : Move π η}

theorem length_permits (t : Callers P) : (permits t).length = t.slots.length := by
  simp [permits]

theorem permits_getElem? {n : Nat} {s : Slot (Call P.Call) P.Body} (h : t.slots[n]? = some s) :
    (permits t)[n]? = some (permit s) := by
  unfold permits
  rw [List.getElem?_map, h]
  rfl

theorem permits_set (n : Nat) (s : Slot (Call P.Call) P.Body) (state : Layered Circuit P.State) :
    permits ({ t with state := state, slots := t.slots.set n s } : Callers P) =
      (permits t).set n (permit s) :=
  List.map_set

theorem permits_set_same {n : Nat} {s : Slot (Call P.Call) P.Body} (h : t.slots[n]? = some s)
    (s' : Slot (Call P.Call) P.Body) (hs : permit s' = permit s)
    (state : Layered Circuit P.State) :
    permits ({ t with state := state, slots := t.slots.set n s' } : Callers P) = permits t := by
  rw [permits_set, hs]
  exact set_getElem?_eq_self (permits_getElem? h)

theorem permit_ofProgress_done {κ β : Type} (answer : Answer β) :
    permit (Slot.ofProgress (.done answer) : Slot (Call κ) β) = none := by
  cases answer <;> rfl

/-! ### Moves at this stage -/

theorem move_poll_cases (o : BreakerOptions) (t : Callers P) (n : Nat) :
    ((∀ call, t.slots[n]? ≠ some (.calling call)) ∧ move o P t (.poll n) = t) ∨
    (∃ call, t.slots[n]? = some (.calling call) ∧
      move o P t (.poll n) =
        { t with
            state := (poll o P.toService t.now call t.state).state
            slots := t.slots.set n (.ofProgress (poll o P.toService t.now call t.state).value) }) :=
  (P.guarded o).stepPoll_cases t n

theorem move_drop_cases (o : BreakerOptions) (t : Callers P) (n : Nat) :
    ((t.slots[n]? = none ∨ t.slots[n]? = some .gone) ∧ move o P t (.drop n) = t) ∨
    (∃ call, t.slots[n]? = some (.calling call) ∧
      move o P t (.drop n) =
        { t with state := abandon P.toService call t.state, slots := t.slots.set n .gone }) ∨
    (∃ body, t.slots[n]? = some (.reading body) ∧
      move o P t (.drop n) = { t with slots := t.slots.set n .gone }) :=
  (P.guarded o).stepDrop_cases t n

theorem move_pull_cases (o : BreakerOptions) (t : Callers P) (n : Nat) :
    ((∀ body, t.slots[n]? ≠ some (.reading body)) ∧ move o P t (.pull n) = t) ∨
    (∃ body, t.slots[n]? = some (.reading body) ∧
      move o P t (.pull n) =
        { t with
            state := ⟨t.state.own, (P.pull body t.state.inner).state⟩
            slots := t.slots.set n (.reading (restOf (P.pull body t.state.inner).value)) }) :=
  (P.guarded o).stepPull_cases t n

theorem move_call (o : BreakerOptions) (t : Callers P) (r : Http.Request) (p : π) :
    move o P t (.call r p) =
      { t with
          state := (start o P.toService t.now r p t.state).state
          slots := t.slots ++ [.calling (start o P.toService t.now r p t.state).value] } :=
  rfl

section

variable {S : Service π} {now : Instant} {g : Generation} {inner inner' : S.Call}
  {answer : Answer S.Body} {s : Layered Circuit S.State}

theorem start_admitted (on : o.enabled = true) {r : Http.Request} {p : π}
    (h : (s.own.acquire now).1 = some g) :
    (start o S now r p s).value = .admitted g (S.start now r p s.inner).value := by
  simp only [start, on, if_true, h]
  rfl

theorem start_refused (on : o.enabled = true) {r : Http.Request} {p : π}
    (h : (s.own.acquire now).1 = none) :
    start o S now r p s =
      ⟨.rejected, s, told o (s.own.acquire now).2.2 ++ noted o .turnedAway⟩ := by
  simp only [start, on, if_true, h, Circuit.acquire_none h]

/-- Whatever a call is told, the circuit was asked. -/
theorem own_start (on : o.enabled = true) (r : Http.Request) (p : π) :
    (start o S now r p s).state.own = (s.own.acquire now).2.1 := by
  cases h : (s.own.acquire now).1 with
  | some g =>
    simp only [start, on, if_true, h]
    rfl
  | none => simp only [start, on, if_true, h]

theorem start_rejected_iff (on : o.enabled = true) {r : Http.Request} {p : π} :
    (start o S now r p s).value = .rejected ↔ (s.own.acquire now).1 = none := by
  cases h : (s.own.acquire now).1 with
  | some g =>
    rw [start_admitted on h]
    simp
  | none => simp only [start, on, if_true, h]

theorem poll_rejected :
    poll o S now .rejected s = ⟨.done (.error (.circuitOpen o.badge.name)), s, []⟩ :=
  rfl

theorem poll_pending (h : (S.poll now inner s.inner).value = .pending inner') :
    poll o S now (.admitted g inner) s =
      ⟨.pending (.admitted g inner'), ⟨s.own, (S.poll now inner s.inner).state⟩,
        (S.poll now inner s.inner).happened⟩ := by
  simp only [poll, h]

theorem poll_done (h : (S.poll now inner s.inner).value = .done answer) :
    poll o S now (.admitted g inner) s =
      ⟨.done answer,
        ⟨(s.own.settle now g (o.classifier.isFailure (outcome answer))).1,
          (S.poll now inner s.inner).state⟩,
        (S.poll now inner s.inner).happened ++
          told o (s.own.settle now g (o.classifier.isFailure (outcome answer))).2⟩ := by
  simp only [poll, h]

theorem permit_poll_passed :
    permit (Slot.ofProgress (poll o S now (.passed inner) s).value) = none := by
  simp only [poll, Step.map, Step.under, Step.into]
  cases (S.poll now inner s.inner).value with
  | pending inner' => rfl
  | done answer => cases answer <;> rfl

end

/-! ### What they come to at the circuit -/

theorem dealt_call (ho : o.enabled = true) (r : Http.Request) (p : π) :
    Dealt t.now t.state.own (permits t) (deed o P t (.call r p))
      (move o P t (.call r p)).state.own (permits (move o P t (.call r p))) := by
  rw [move_call]
  cases hasked : (t.state.own.acquire t.now).1 with
  | some g =>
    simp only [deed, hasked, permits, start, ho, if_true, Step.after, Step.map, Step.under,
      Step.into, List.map_append, List.map_cons, List.map_nil, permit]
    rw [← length_permits]
    exact Dealt.admitted g hasked
  | none =>
    simp only [deed, hasked, permits, start, ho, if_true, List.map_append, List.map_cons,
      List.map_nil, permit]
    rw [← length_permits]
    exact Dealt.refused hasked

theorem dealt_poll (n : Nat) :
    Dealt t.now t.state.own (permits t) (deed o P t (.poll n))
      (move o P t (.poll n)).state.own (permits (move o P t (.poll n))) := by
  rcases move_poll_cases o t n with ⟨hn, hidle⟩ | ⟨call, hslot, hpoll⟩
  · have hdeed : deed o P t (.poll n) = .nothing := by
      simp only [deed]
      split
      · rename_i g inner hs
        exact absurd hs (hn _)
      · rfl
    rw [hdeed, hidle]
    exact Dealt.idle
  · rw [hpoll]
    cases call with
    | passed inner =>
      rw [permits_set_same hslot _ permit_poll_passed]
      simp only [deed, hslot]
      exact Dealt.idle
    | rejected =>
      have hsame := permits_set_same hslot .gone rfl t.state
      rw [poll_rejected]
      simp only [deed, hslot, Slot.ofProgress]
      rw [hsame]
      exact Dealt.idle
    | admitted g inner =>
      cases hv : (P.poll t.now inner t.state.inner).value with
      | pending inner' =>
        have hsame := permits_set_same hslot (.calling (.admitted g inner')) rfl
          ⟨t.state.own, (P.poll t.now inner t.state.inner).state⟩
        rw [poll_pending hv]
        simp only [deed, hslot, hv, ending, Slot.ofProgress]
        rw [hsame]
        exact Dealt.idle
      | done answer =>
        rw [poll_done hv, permits_set, permit_ofProgress_done]
        simp only [deed, hslot, hv, ending]
        exact Dealt.ended n g _ (permits_getElem? hslot)

theorem dealt_drop (n : Nat) :
    Dealt t.now t.state.own (permits t) (deed o P t (.drop n))
      (move o P t (.drop n)).state.own (permits (move o P t (.drop n))) := by
  rcases move_drop_cases o t n with
    ⟨hn, hidle⟩ | ⟨call, hslot, hdrop⟩ | ⟨body, hslot, hdrop⟩
  · have hdeed : deed o P t (.drop n) = .nothing := by
      rcases hn with hn | hn <;> simp only [deed, hn]
    rw [hdeed, hidle]
    exact Dealt.idle
  · rw [hdrop]
    cases call with
    | passed inner =>
      rw [permits_set_same hslot .gone rfl]
      simp only [deed, hslot]
      exact Dealt.idle
    | rejected =>
      rw [permits_set_same hslot .gone rfl]
      simp only [deed, hslot]
      exact Dealt.idle
    | admitted g inner =>
      rw [permits_set]
      simp only [deed, hslot]
      exact Dealt.dropped n g (permits_getElem? hslot)
  · rw [hdrop, permits_set_same hslot .gone rfl]
    simp only [deed, hslot]
    exact Dealt.idle

theorem dealt_pull (n : Nat) :
    Dealt t.now t.state.own (permits t) (deed o P t (.pull n))
      (move o P t (.pull n)).state.own (permits (move o P t (.pull n))) := by
  rcases move_pull_cases o t n with ⟨_, hidle⟩ | ⟨body, hslot, hpull⟩
  · rw [hidle]
    exact Dealt.idle
  · rw [hpull, permits_set_same hslot (.reading (restOf (P.pull body t.state.inner).value)) rfl]
    exact Dealt.idle

/-- **What a move comes to at the circuit.** -/
theorem dealt_move (ho : o.enabled = true) (t : Callers P) {m : Move π η} (hm : m.Orderly) :
    Dealt t.now t.state.own (permits t) (deed o P t m) (move o P t m).state.own
      (permits (move o P t m)) := by
  cases m with
  | ready => exact Dealt.idle
  | call r p => exact dealt_call ho r p
  | skip =>
    have hps : permits (move o P t .skip) = permits t ++ [none] := List.map_append
    rw [hps]
    exact Dealt.skipped
  | poll n => exact dealt_poll n
  | drop n => exact dealt_drop n
  | pull n => exact dealt_pull n
  | advance d => exact Dealt.idle
  | core change => exact Dealt.idle
  | order order =>
    cases order with
    | circuit asked =>
      cases asked with
      | canExecute => exact hm.elim
      | success => exact hm.elim
      | failure => exact hm.elim
      | forceOpen => exact Dealt.forced
      | reset => exact Dealt.reset
    | clone => exact Dealt.idle
    | load x => exact Dealt.idle
    | sweep => exact Dealt.idle
    | wake => exact Dealt.idle
    | tick time => exact Dealt.idle

/-- Which moves come to which deeds. -/
inductive ComesTo (o : BreakerOptions) (t : Callers P) : Move π η → Deed → Prop where
  | nothing (m : Move π η) : ComesTo o t m .nothing
  | admitted (r : Http.Request) (p : π) (asked : (t.state.own.acquire t.now).1 ≠ none) :
      ComesTo o t (.call r p) (.admitted t.slots.length)
  | refused (r : Http.Request) (p : π) : ComesTo o t (.call r p) (.refused t.slots.length)
  | ended (n : Nat) (g : Generation) (inner : P.Call) (answer : Answer P.Body)
      (slot : t.slots[n]? = some (.calling (.admitted g inner)))
      (done : (P.poll t.now inner t.state.inner).value = .done answer) :
      ComesTo o t (.poll n) (.ended n (o.classifier.isFailure (outcome answer)))
  | dropped (n : Nat) : ComesTo o t (.drop n) (.dropped n)
  | forced : ComesTo o t (.order (.circuit .forceOpen)) .forced
  | reset : ComesTo o t (.order (.circuit .reset)) .reset

theorem comesTo_deed (o : BreakerOptions) (t : Callers P) (m : Move π η) :
    ComesTo o t m (deed o P t m) := by
  cases m with
  | call r p =>
    cases hasked : (t.state.own.acquire t.now).1 with
    | some g =>
      simp only [deed, hasked]
      exact .admitted r p (by simp [hasked])
    | none =>
      simp only [deed, hasked]
      exact .refused r p
  | poll n =>
    simp only [deed]
    split
    · next g inner hslot =>
      cases hv : (P.poll t.now inner t.state.inner).value with
      | pending inner' => exact .nothing _
      | done answer => exact .ended n g inner answer hslot hv
    · exact .nothing _
  | drop n =>
    simp only [deed]
    split
    · exact .dropped n
    · exact .nothing _
  | order order =>
    cases order with
    | circuit asked =>
      cases asked with
      | forceOpen => exact .forced
      | reset => exact .reset
      | _ => exact .nothing _
    | _ => exact .nothing _
  | _ => exact .nothing _

theorem deed_eq_ended {n : Nat} {failure : Bool} (h : deed o P t m = .ended n failure) :
    m = .poll n ∧ ∃ g inner answer, t.slots[n]? = some (.calling (.admitted g inner)) ∧
      (P.poll t.now inner t.state.inner).value = .done answer ∧
      failure = o.classifier.isFailure (outcome answer) := by
  have hdeed := comesTo_deed o t m
  rw [h] at hdeed
  cases hdeed with
  | ended n g inner answer hslot hdone => exact ⟨rfl, g, inner, answer, hslot, hdone, rfl⟩

theorem deed_eq_admitted {n : Nat} (h : deed o P t m = .admitted n) :
    ∃ r p, m = .call r p ∧ (t.state.own.acquire t.now).1 ≠ none := by
  have hdeed := comesTo_deed o t m
  rw [h] at hdeed
  cases hdeed with
  | admitted r p hasked => exact ⟨r, p, rfl, hasked⟩

theorem deed_eq_forced (h : deed o P t m = .forced) : m = .order (.circuit .forceOpen) := by
  have hdeed := comesTo_deed o t m
  rw [h] at hdeed
  cases hdeed with
  | forced => rfl

theorem deed_eq_reset (h : deed o P t m = .reset) : m = .order (.circuit .reset) := by
  have hdeed := comesTo_deed o t m
  rw [h] at hdeed
  cases hdeed with
  | reset => rfl

end Guarded

end Floodgate
