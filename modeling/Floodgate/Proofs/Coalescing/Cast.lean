/-
  Floodgate/Proofs/Coalescing/Cast.lean
  =====================================
  **Who is who at a coalescer.**  A call is an execution of its own, perhaps as the
  leader of a flight, or it joins the flight of another.  Its part is settled when it
  is made; the cast of a run is the parts of all calls, together with those calls that
  were given up.

  `Staged` says that a coalescer and its cast agree.  Distinct calls have distinct
  executions, a flight has one leader, every call under way does what its part is, and
  what stands under the number of a flight tells the truth about its leader.
-/
import Floodgate.Proofs.Coalescing.Course
import Floodgate.Proofs.Pipeline.ReadAhead

namespace Floodgate

open Http (Bytes Head Request)

/-! ### Parts -/

/-- The part of a call at a coalescer. -/
inductive Part where
  /-- It is an execution of its own; a leader has a flight. -/
  | ran (execution : Nat) (flight : Option FlightId)
  /-- It waits for the leader of a flight. -/
  | joined (flight : FlightId)
deriving DecidableEq, Repr

/-- The parts of all calls, by number, and the calls that were given up. -/
structure Cast where
  parts : List (Option Part)
  dropped : List Nat
deriving DecidableEq, Repr

namespace Cast

def empty : Cast := ⟨[], []⟩

def Plays (c : Cast) (n : Nat) (part : Part) : Prop := c.parts[n]? = some (some part)

def enter (c : Cast) (part : Option Part) : Cast := { c with parts := c.parts ++ [part] }

def leave (c : Cast) (n : Nat) : Cast := { c with dropped := n :: c.dropped }

/-- The one cast has come from the other: parts stay, and so do those who left. -/
structure Extends (c c' : Cast) : Prop where
  plays : ∀ n part, c.Plays n part → c'.Plays n part
  dropped : ∀ n ∈ c.dropped, n ∈ c'.dropped

variable {c : Cast} {n n' : Nat} {part : Part} {p : Option Part}

theorem Extends.refl (c : Cast) : Extends c c := ⟨fun _ _ h => h, fun _ h => h⟩

theorem Extends.trans {c' c'' : Cast} (h : Extends c c') (h' : Extends c' c'') :
    Extends c c'' :=
  ⟨fun n part hn => h'.plays n part (h.plays n part hn), fun n hn => h'.dropped n (h.dropped n hn)⟩

theorem plays_enter (h : (c.enter p).Plays n part) :
    (n = c.parts.length ∧ p = some part) ∨ (n < c.parts.length ∧ c.Plays n part) :=
  getElem?_concat_cases h

theorem extends_enter (c : Cast) (p : Option Part) : Extends c (c.enter p) where
  plays n part h := by
    obtain ⟨hn, _⟩ := List.getElem?_eq_some_iff.mp h
    show (c.parts ++ [p])[n]? = some (some part)
    rw [List.getElem?_append_left hn]
    exact h
  dropped n h := h

theorem plays_enter_self (c : Cast) (part : Part) :
    (c.enter (some part)).Plays c.parts.length part :=
  List.getElem?_concat_length

theorem extends_leave (c : Cast) (n : Nat) : Extends c (c.leave n) :=
  ⟨fun _ _ h => h, fun _ h => List.mem_cons_of_mem n h⟩

/-- Executions and flights are numbered as they begin: none is given to two calls. -/
structure Numbered (c : Cast) (started : Nat) (next : FlightId) : Prop where
  execution : ∀ n e f, c.Plays n (.ran e f) → e < started
  flight : ∀ n e f, c.Plays n (.ran e (some f)) → f < next
  one_execution : ∀ n n' e f f', c.Plays n (.ran e f) → c.Plays n' (.ran e f') → n = n'
  one_leader : ∀ n n' e e' f, c.Plays n (.ran e (some f)) → c.Plays n' (.ran e' (some f)) → n = n'
  /-- Nothing is executed that nobody called for. -/
  played : ∀ e < started, ∃ n f, c.Plays n (.ran e f)

theorem numbered_empty : Numbered empty 0 0 := by
  refine ⟨?_, ?_, ?_, ?_, ?_⟩ <;> intro n <;> simp [Plays, empty]

theorem Numbered.enter_other {started next : Nat} (h : c.Numbered started next)
    (hp : ∀ e f, p ≠ some (.ran e f)) : (c.enter p).Numbered started next := by
  have hold : ∀ n e f, (c.enter p).Plays n (.ran e f) → c.Plays n (.ran e f) := by
    intro n e f hn
    rcases plays_enter hn with ⟨_, hnew⟩ | ⟨_, hold⟩
    · exact absurd hnew (hp e f)
    · exact hold
  refine ⟨?_, ?_, ?_, ?_, ?_⟩
  · intro n e f hn
    exact h.execution n e f (hold _ _ _ hn)
  · intro n e f hn
    exact h.flight n e f (hold _ _ _ hn)
  · intro n n' e f f' hn hn'
    exact h.one_execution n n' e f f' (hold _ _ _ hn) (hold _ _ _ hn')
  · intro n n' e e' f hn hn'
    exact h.one_leader n n' e e' f (hold _ _ _ hn) (hold _ _ _ hn')
  · intro e he
    obtain ⟨n, f, hn⟩ := h.played e he
    exact ⟨n, f, (c.extends_enter p).plays n _ hn⟩

/-- An execution takes the next number, and so does the flight of a leader. -/
theorem Numbered.enter_ran {started next next' : Nat} {flight : Option FlightId}
    (h : c.Numbered started next) (hflight : ∀ f, flight = some f → f = next ∧ next' = next + 1)
    (hnext : next ≤ next') :
    (c.enter (some (.ran started flight))).Numbered (started + 1) next' := by
  have hcases : ∀ n e f, (c.enter (some (.ran started flight))).Plays n (.ran e f) →
      (n = c.parts.length ∧ e = started ∧ f = flight) ∨
        (n < c.parts.length ∧ c.Plays n (.ran e f)) := by
    intro n e f hn
    rcases plays_enter hn with ⟨hnew, heq⟩ | hold
    · cases heq
      exact .inl ⟨hnew, rfl, rfl⟩
    · exact .inr hold
  refine ⟨?_, ?_, ?_, ?_, ?_⟩
  · intro n e f hn
    rcases hcases n e f hn with ⟨_, he, _⟩ | ⟨_, hold⟩
    · rw [he]
      exact Nat.lt_succ_self started
    · exact Nat.lt_succ_of_lt (h.execution n e f hold)
  · intro n e f hn
    rcases hcases n e (some f) hn with ⟨_, _, hf⟩ | ⟨_, hold⟩
    · obtain ⟨rfl, rfl⟩ := hflight f hf.symm
      exact Nat.lt_succ_self f
    · exact Nat.lt_of_lt_of_le (h.flight n e f hold) hnext
  · intro n n' e f f' hn hn'
    rcases hcases n e f hn with ⟨hnew, he, _⟩ | ⟨_, hold⟩
    · rcases hcases n' e f' hn' with ⟨hnew', _, _⟩ | ⟨_, hold'⟩
      · rw [hnew, hnew']
      · exact absurd (he ▸ h.execution n' e f' hold') (Nat.lt_irrefl started)
    · rcases hcases n' e f' hn' with ⟨_, he, _⟩ | ⟨_, hold'⟩
      · exact absurd (he ▸ h.execution n e f hold) (Nat.lt_irrefl started)
      · exact h.one_execution n n' e f f' hold hold'
  · intro n n' e e' f hn hn'
    rcases hcases n e (some f) hn with ⟨hnew, _, hf⟩ | ⟨_, hold⟩
    · rcases hcases n' e' (some f) hn' with ⟨hnew', _, _⟩ | ⟨_, hold'⟩
      · rw [hnew, hnew']
      · exact absurd ((hflight f hf.symm).1 ▸ h.flight n' e' f hold') (Nat.lt_irrefl f)
    · rcases hcases n' e' (some f) hn' with ⟨_, _, hf⟩ | ⟨_, hold'⟩
      · exact absurd ((hflight f hf.symm).1 ▸ h.flight n e f hold) (Nat.lt_irrefl f)
      · exact h.one_leader n n' e e' f hold hold'
  · intro e he
    rcases Nat.lt_succ_iff_lt_or_eq.mp he with hlt | rfl
    · obtain ⟨n, f, hn⟩ := h.played e hlt
      exact ⟨n, f, (c.extends_enter _).plays n _ hn⟩
    · exact ⟨c.parts.length, flight, c.plays_enter_self _⟩

end Cast

/-! ### Calls and their parts -/

/-- The result is no good: a failure, or a response with a server error. -/
def failing : Except Failure Captured → Bool
  | .ok c => c.status.isServerError
  | .error _ => true

@[simp] theorem failing_sharedResult (result : Except Failure Captured) :
    failing (Flights.sharedResult result) = failing result := by
  cases result <;> rfl

namespace Coalesced

variable {π η K : Type} [DecidableEq K]

variable {P : Pipeline π η} (X : Executing P)

/-- A coalescer and its callers. -/
abbrev Callers (K : Type) (P : Pipeline π η) :=
  Traffic (State K P.toService) (Call K P.Call P.Body) (Relayed P.Body)

/-- The part that a request is given. -/
def part (o : CoalescerOptions K) (r : Request) (s : State K P.toService) : Part :=
  match o.key? r with
  | none => .ran (X.log s.inner).started none
  | some key =>
    match (s.own.join key).1 with
    | .leader => .ran (X.log s.inner).started (some s.own.next)
    | .waiter flight => .joined flight

/-- The call is the leader of a flight that is under way. -/
structure Leads (f : Flights K Captured) (cast : Cast) (n : Nat) (key : K) (e : Nat)
    (flight : FlightId) : Prop where
  plays : cast.Plays n (.ran e (some flight))
  current : f.current? key = some flight

/-- What a call under way does is its part. -/
def Acts (cast : Cast) (n : Nat) (s : State K P.toService) :
    Call K P.Call P.Body → Prop
  | .passed inner => ∃ e, cast.Plays n (.ran e none) ∧ X.runs inner e
  | .leading key inner => ∃ e flight, Leads s.own cast n key e flight ∧ X.runs inner e
  | .capturing key head _ rest => ∃ e flight, Leads s.own cast n key e flight ∧
      X.reads rest e ∧ (head.status.isServerError = true → e ∈ (X.log s.inner).failed)
  | .waiting flight => cast.Plays n (.joined flight)

/-- What is left under the number of a flight is true of its leader. -/
def Told (cast : Cast) (failed : Finset Nat) (flight : FlightId) : Landing Captured → Prop
  | .completed result => failing result = true →
      ∃ leader e, cast.Plays leader (.ran e (some flight)) ∧ e ∈ failed
  | .cancelled => ∃ leader e, cast.Plays leader (.ran e (some flight)) ∧ leader ∈ cast.dropped

/-- A coalescer and the cast of its callers agree. -/
structure Staged (cast : Cast) (t : Callers K P) : Prop where
  length : cast.parts.length = t.slots.length
  numbered : cast.Numbered (X.log t.state.inner).started t.state.own.next
  acts : ∀ n call, t.slots[n]? = some (.calling call) → Acts X cast n t.state call
  told : ∀ flight landing, t.state.own.landing? flight = some landing →
    Told cast (X.log t.state.inner).failed flight landing

variable {X} {o : CoalescerOptions K} {cast cast' : Cast} {n : Nat} {s s' : State K P.toService}
  {failed failed' : Finset Nat}

theorem Told.mono {flight : FlightId} {landing : Landing Captured}
    (h : Told cast failed flight landing) (hcast : cast.Extends cast')
    (hfailed : failed ⊆ failed') : Told cast' failed' flight landing := by
  cases landing with
  | completed result =>
    intro hbad
    obtain ⟨leader, e, hleader, he⟩ := h hbad
    exact ⟨leader, e, hcast.plays leader _ hleader, hfailed he⟩
  | cancelled =>
    obtain ⟨leader, e, hleader, hdropped⟩ := h
    exact ⟨leader, e, hcast.plays leader _ hleader, hcast.dropped leader hdropped⟩

/-- A call keeps to its part as long as its flight, if it leads one, is under way. -/
theorem Acts.mono {call : Call K P.Call P.Body} (h : Acts X cast n s call)
    (hcast : cast.Extends cast') (hfailed : (X.log s.inner).failed ⊆ (X.log s'.inner).failed)
    (hleads : ∀ key e flight, Leads s.own cast n key e flight →
      s'.own.current? key = some flight) : Acts X cast' n s' call := by
  cases call with
  | passed inner =>
    obtain ⟨e, hn, hruns⟩ := h
    exact ⟨e, hcast.plays n _ hn, hruns⟩
  | leading key inner =>
    obtain ⟨e, flight, hl, hruns⟩ := h
    exact ⟨e, flight, ⟨hcast.plays n _ hl.plays, hleads key e flight hl⟩, hruns⟩
  | capturing key head data rest =>
    obtain ⟨e, flight, hl, hreads, hhead⟩ := h
    refine ⟨e, flight, ⟨hcast.plays n _ hl.plays, hleads key e flight hl⟩, hreads, ?_⟩
    intro hstatus
    exact hfailed (hhead hstatus)
  | waiting flight => exact hcast.plays n _ h

/-! ### Another call -/

section

variable {t : Callers K P}

theorem Staged.enter (h : Staged X cast t) {p : Option Part}
    {slot : Slot (Call K P.Call P.Body) (Relayed P.Body)}
    (hnumbered : (cast.enter p).Numbered (X.log s'.inner).started s'.own.next)
    (hfailed : (X.log t.state.inner).failed ⊆ (X.log s'.inner).failed)
    (hcurrent : ∀ key flight, t.state.own.current? key = some flight →
      s'.own.current? key = some flight)
    (hlanding : ∀ flight, s'.own.landing? flight = t.state.own.landing? flight)
    (hnew : ∀ call, slot = .calling call → Acts X (cast.enter p) cast.parts.length s' call) :
    Staged X (cast.enter p) { t with state := s', slots := t.slots ++ [slot] } where
  length := by simp [Cast.enter, h.length]
  numbered := hnumbered
  acts n call hslot := by
    rcases getElem?_concat_cases hslot with ⟨rfl, hcall⟩ | ⟨_, hold⟩
    · rw [← h.length]
      exact hnew call hcall
    · apply (h.acts n call hold).mono (cast.extends_enter p) hfailed
      intro key e flight hl
      exact hcurrent key flight hl.current
  told flight landing hlanded := by
    rw [hlanding] at hlanded
    exact (h.told flight landing hlanded).mono (cast.extends_enter p) hfailed

theorem part_passed {r : Request} (hkey : o.key? r = none) (s : State K P.toService) :
    part X o r s = .ran (X.log s.inner).started none := by
  simp only [part, hkey]

theorem part_leading {r : Request} {key : K} (hkey : o.key? r = some key)
    (hnone : s.own.current? key = none) :
    part X o r s = .ran (X.log s.inner).started (some s.own.next) := by
  simp only [part, hkey, Flights.join_leader hnone]

theorem part_waiting {r : Request} {key : K} {flight : FlightId} (hkey : o.key? r = some key)
    (hcurrent : s.own.current? key = some flight) : part X o r s = .joined flight := by
  simp only [part, hkey, Flights.join_waiter hcurrent]

theorem Staged.call (h : Staged X cast t) (r : Request) (p : π) :
    Staged X (cast.enter (some (part X o r t.state)))
      { t with
          state := (start o P.toService t.now r p t.state).state
          slots := t.slots ++ [.calling (start o P.toService t.now r p t.state).value] } := by
  have hlog := X.start_log t.now r p t.state.inner
  have hstarted : (X.log (P.start t.now r p t.state.inner).state).started =
      (X.log t.state.inner).started + 1 := by rw [hlog]; rfl
  have hfailed : (X.log t.state.inner).failed ⊆
      (X.log (P.start t.now r p t.state.inner).state).failed := by
    rw [hlog]
    exact Finset.Subset.refl _
  have hruns := X.start_runs t.now r p t.state.inner
  cases hkey : o.key? r with
  | none =>
    obtain ⟨hvalue, hstate⟩ := start_passed (S := P.toService) hkey t.now p t.state
    rw [hvalue, hstate, part_passed hkey t.state]
    apply h.enter
    · rw [hstarted]
      apply h.numbered.enter_ran
      · intro f hf
        cases hf
      · exact Nat.le_refl _
    · exact hfailed
    · intro key flight hflight
      exact hflight
    · intro flight
      rfl
    · intro call hcall
      cases hcall
      exact ⟨_, cast.plays_enter_self _, hruns⟩
  | some key =>
    cases hcurrent : t.state.own.current? key with
    | none =>
      obtain ⟨hvalue, hstate⟩ := start_leading (S := P.toService) hkey hcurrent t.now p
      rw [hvalue, hstate, part_leading hkey hcurrent]
      apply h.enter
      · rw [hstarted, Flights.next_join_leader hcurrent]
        apply h.numbered.enter_ran
        · intro f hf
          cases hf
          exact ⟨rfl, rfl⟩
        · exact Nat.le_succ _
      · exact hfailed
      · intro key' flight hflight
        exact Flights.current_join hflight
      · intro flight
        exact Flights.landing_join
      · intro call hcall
        cases hcall
        refine ⟨_, _, ⟨cast.plays_enter_self _, ?_⟩, hruns⟩
        rw [Flights.current_join_leader hcurrent, if_pos rfl]
    | some flight =>
      obtain ⟨hvalue, hstate⟩ := start_waiting (S := P.toService) hkey hcurrent t.now p
      rw [hvalue, hstate, part_waiting hkey hcurrent]
      apply h.enter
      · rw [Flights.next_join_waiter hcurrent]
        apply h.numbered.enter_other
        intro e f hf
        cases hf
      · exact Finset.Subset.refl _
      · intro key' flight' hflight
        exact Flights.current_join hflight
      · intro flight'
        exact Flights.landing_join
      · intro call hcall
        cases hcall
        exact cast.plays_enter_self _

theorem Staged.skip (h : Staged X cast t) :
    Staged X (cast.enter none) { t with slots := t.slots ++ [.gone] } := by
  apply h.enter
  · apply h.numbered.enter_other
    intro e f hf
    cases hf
  · exact Finset.Subset.refl _
  · intro key flight hflight
    exact hflight
  · intro flight
    rfl
  · intro call hcall
    cases hcall

end

end Coalesced

end Floodgate
