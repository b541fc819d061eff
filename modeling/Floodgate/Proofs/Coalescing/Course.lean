/-
  Floodgate/Proofs/Coalescing/Course.lean
  =======================================
  **How a call goes at a coalescer.**  A call passes by, leads a flight or waits for one.
  It is settled when the call is made which of these it is (`start_passed`,
  `start_leading`, `start_waiting`), and polls do not change it (`poll_pending`).

  A leader goes on until its execution has come to something (`outcome?`): the inner
  service failed, its body failed, or the whole response is captured.  With the poll that
  finds this out the leader ends and its flight is over (`poll_leader`).  No other call
  touches the flights (`poll_other`).
-/
import Floodgate.Pipeline.Coalesced
import Floodgate.Proofs.Coalescing.Flights
import Floodgate.Proofs.Traffic.Account

namespace Floodgate

open Http (Bytes Head Request)

namespace Coalesced

variable {π K : Type}

/-! ### Calls -/

/-- The key of the flight that a call leads. -/
def Call.key? {κ β : Type} : Call K κ β → Option K
  | .leading key _ => some key
  | .capturing key _ _ _ => some key
  | _ => none

/-- The flight that a call waits for. -/
def Call.flight? {κ β : Type} : Call K κ β → Option FlightId
  | .waiting flight => some flight
  | _ => none

theorem Call.eq_waiting {κ β : Type} {c : Call K κ β} {flight : FlightId}
    (h : c.flight? = some flight) : c = .waiting flight := by
  cases c with
  | waiting g =>
    cases h
    rfl
  | _ => cases h

/-- What capturing a response has come to, if it has. -/
def Capture.result? {β : Type} (head : Head) : Capture β → Option (Except Failure Captured)
  | .pending _ _ => none
  | .whole data => some (.ok (.ofHead head data))
  | .failed f => some (.error f)

/-- What the execution of a call comes to when it is polled now, if it comes to something:
    the handler or its body fails, or the whole response is there. -/
def outcome? (S : Service π) (now : Instant) (c : Call K S.Call S.Body) (s : S.State) :
    Option (Except Failure Captured) :=
  match c with
  | .leading _ inner =>
    let polled := S.poll now inner s
    match polled.value with
    | .pending _ => none
    | .done (.error f) => some (.error f)
    | .done (.ok r) => (capture S (S.size r.body + 1) [] r.body polled.state).value.result? r.head
  | .capturing _ head data rest => (capture S (S.size rest + 1) data rest s).value.result? head
  | _ => none

/-- What those who joined a flight get when it has ended. -/
def landedAnswer {β : Type} : Landing Captured → Answer (Relayed β)
  | .completed result => delivered result
  | .cancelled => .error .leaderCancelled

variable [DecidableEq K] {S : Service π} {o : CoalescerOptions K} {s : State K S} {r : Request}
  {key : K} {flight : FlightId} {c c' : Call K S.Call S.Body}

/-! ### Making a call -/

theorem start_passed (hkey : o.key? r = none) (now : Instant) (p : π) (s : State K S) :
    (start o S now r p s).value = .passed (S.start now r p s.inner).value ∧
      (start o S now r p s).state = ⟨s.own, (S.start now r p s.inner).state⟩ := by
  simp only [start, hkey]
  exact ⟨rfl, rfl⟩

theorem start_leading (hkey : o.key? r = some key) (hnone : s.own.current? key = none)
    (now : Instant) (p : π) :
    (start o S now r p s).value = .leading key (S.start now r p s.inner).value ∧
      (start o S now r p s).state = ⟨(s.own.join key).2, (S.start now r p s.inner).state⟩ := by
  simp only [start, hkey, Flights.join_leader hnone]
  exact ⟨rfl, rfl⟩

theorem start_waiting (hkey : o.key? r = some key) (hcurrent : s.own.current? key = some flight)
    (now : Instant) (p : π) :
    (start o S now r p s).value = .waiting flight ∧
      (start o S now r p s).state = ⟨(s.own.join key).2, s.inner⟩ := by
  simp only [start, hkey, Flights.join_waiter hcurrent]
  exact ⟨trivial, trivial⟩

/-- Who leads a flight has found none under way for its key. -/
theorem key?_start_iff (now : Instant) (p : π) :
    (start o S now r p s).value.key? = some key ↔
      o.key? r = some key ∧ s.own.current? key = none := by
  cases hkey : o.key? r with
  | none => simp [(start_passed hkey now p s).1, Call.key?]
  | some k =>
    cases hcurrent : s.own.current? k with
    | none =>
      simp only [(start_leading hkey hcurrent now p).1, Call.key?, Option.some.injEq]
      exact ⟨fun h => ⟨h, h ▸ hcurrent⟩, fun h => h.1⟩
    | some flight =>
      simp only [(start_waiting hkey hcurrent now p).1, Call.key?, reduceCtorEq, Option.some.injEq,
        false_iff, not_and]
      rintro rfl hnone
      rw [hcurrent] at hnone
      cases hnone

/-- Who waits has found a flight under way for its key. -/
theorem flight?_start_iff (now : Instant) (p : π) :
    (start o S now r p s).value.flight? = some flight ↔
      ∃ key, o.key? r = some key ∧ s.own.current? key = some flight := by
  cases hkey : o.key? r with
  | none => simp [(start_passed hkey now p s).1, Call.flight?]
  | some k =>
    cases hcurrent : s.own.current? k with
    | none => simp [(start_leading hkey hcurrent now p).1, Call.flight?, hcurrent]
    | some g => simp [(start_waiting hkey hcurrent now p).1, Call.flight?, hcurrent]

/-- A request that is coalesced leads or waits. -/
theorem start_keyed (hkey : o.key? r = some key) (now : Instant) (p : π) (s : State K S) :
    (start o S now r p s).value.key? = some key ∨
      ∃ flight, (start o S now r p s).value.flight? = some flight := by
  cases hcurrent : s.own.current? key with
  | none => exact .inl ((key?_start_iff now p).mpr ⟨hkey, hcurrent⟩)
  | some flight => exact .inr ⟨flight, (flight?_start_iff now p).mpr ⟨key, hkey, hcurrent⟩⟩

/-! ### Polling a call -/

theorem gather_cases (key : K) (head : Head) (data : Bytes) (body : S.Body) (s : State K S) :
    let result? := (capture S (S.size body + 1) data body s.inner).value.result? head
    (result? = none ∧ (gather o S key head data body s).state.own = s.own ∧
      ∃ c', (gather o S key head data body s).value = .pending c' ∧ c'.key? = some key) ∨
    (∃ result, result? = some result ∧
      (gather o S key head data body s).value = .done (delivered (s.own.complete key result).1) ∧
      (gather o S key head data body s).state.own = (s.own.complete key result).2.2 ∧
      (∀ waiters, (s.own.complete key result).2.1 = some waiters →
        told o (.completed waiters) <:+ (gather o S key head data body s).happened)) := by
  intro result?
  simp only [result?, gather]
  cases (capture S (S.size body + 1) data body s.inner).value with
  | pending data' rest => exact .inl ⟨rfl, rfl, _, rfl, rfl⟩
  | whole data' =>
    refine .inr ⟨_, rfl, rfl, rfl, ?_⟩
    intro waiters hwaiters
    simp only [conclude, Step.after, hwaiters]
    exact List.suffix_append _ _
  | failed f =>
    refine .inr ⟨_, rfl, rfl, rfl, ?_⟩
    intro waiters hwaiters
    simp only [conclude, Step.after, hwaiters]
    exact List.suffix_append _ _

/-- **A leader goes on, or it ends and its flight with it.** -/
theorem poll_leader (hkey : c.key? = some key) (now : Instant) (s : State K S) :
    (outcome? S now c s.inner = none ∧ (poll o S now c s).state.own = s.own ∧
      ∃ c', (poll o S now c s).value = .pending c' ∧ c'.key? = some key) ∨
    (∃ result, outcome? S now c s.inner = some result ∧
      (poll o S now c s).value = .done (delivered (s.own.complete key result).1) ∧
      (poll o S now c s).state.own = (s.own.complete key result).2.2 ∧
      (∀ waiters, (s.own.complete key result).2.1 = some waiters →
        told o (.completed waiters) <:+ (poll o S now c s).happened)) := by
  cases c with
  | passed inner => cases hkey
  | waiting flight => cases hkey
  | leading k inner =>
    cases hkey
    simp only [poll, outcome?]
    cases hv : (S.poll now inner s.inner).value with
    | pending inner' => exact .inl ⟨rfl, rfl, _, rfl, rfl⟩
    | done answer =>
      cases answer with
      | error f =>
        refine .inr ⟨_, rfl, rfl, rfl, ?_⟩
        intro waiters hwaiters
        simp only [conclude, Step.after, hwaiters]
        exact List.suffix_append _ _
      | ok r =>
        rcases gather_cases (o := o) key r.head [] r.body ⟨s.own, (S.poll now inner s.inner).state⟩
          with hgoes | ⟨result, hresult, hvalue, hown, htold⟩
        · exact .inl hgoes
        · refine .inr ⟨result, hresult, hvalue, hown, ?_⟩
          intro waiters hwaiters
          exact (htold waiters hwaiters).trans (List.suffix_append _ _)
  | capturing k head data body =>
    cases hkey
    exact gather_cases key head data body s

/-- Who waits learns how the flight ended as soon as it has. -/
theorem poll_waiting (o : CoalescerOptions K) (now : Instant) (flight : FlightId) (s : State K S) :
    (poll o S now (.waiting flight) s).value =
      match s.own.landing? flight with
      | none => .pending (.waiting flight)
      | some landing => .done (landedAnswer landing) := by
  simp only [poll]
  cases s.own.landing? flight with
  | none => rfl
  | some landing => cases landing <;> rfl

/-- Calls that lead no flight leave the flights alone. -/
theorem poll_other (hkey : c.key? = none) (now : Instant) (s : State K S) :
    (poll o S now c s).state.own = s.own ∧
      ∀ c', (poll o S now c s).value = .pending c' →
        c'.key? = none ∧ c'.flight? = c.flight? := by
  cases c with
  | leading key inner => cases hkey
  | capturing key head data body => cases hkey
  | passed inner =>
    refine ⟨rfl, ?_⟩
    intro c' hc'
    have hvalue : ((S.poll now inner s.inner).value.map Call.passed Relayed.passed :
        Progress (Call K S.Call S.Body) (Relayed S.Body)) = .pending c' := hc'
    cases hv : (S.poll now inner s.inner).value with
    | pending inner' =>
      rw [hv] at hvalue
      cases hvalue
      exact ⟨rfl, rfl⟩
    | done answer =>
      rw [hv] at hvalue
      cases answer <;> cases hvalue
  | waiting flight =>
    constructor
    · simp only [poll]
      split <;> rfl
    · intro c' hc'
      rw [poll_waiting] at hc'
      cases hlanding : s.own.landing? flight with
      | none =>
        rw [hlanding] at hc'
        cases hc'
        exact ⟨rfl, rfl⟩
      | some landing =>
        rw [hlanding] at hc'
        cases hc'

/-- A call stays what it is as long as it is under way. -/
theorem poll_pending {now : Instant} (h : (poll o S now c s).value = .pending c') :
    c'.key? = c.key? ∧ c'.flight? = c.flight? := by
  cases hkey : c.key? with
  | none => exact (poll_other hkey now s).2 c' h
  | some key =>
    have hleads : ∀ c : Call K S.Call S.Body, c.key? = some key → c.flight? = none := by
      intro c hc
      cases c with
      | waiting flight => cases hc
      | _ => rfl
    rcases poll_leader (o := o) hkey now s with ⟨_, _, c'', hc'', hkey''⟩ | ⟨result, _, hdone, _⟩
    · rw [h, Progress.pending.injEq] at hc''
      subst hc''
      exact ⟨hkey'', (hleads c' hkey'').trans (hleads c hkey).symm⟩
    · rw [h] at hdone
      cases hdone

theorem course_pending {moments : List (Instant × State K S)}
    (h : (service o S).course c moments = .pending c') :
    c'.key? = c.key? ∧ c'.flight? = c.flight? := by
  refine Service.course_keeps (S := service o S)
    (I := fun c' : Call K S.Call S.Body => c'.key? = c.key? ∧ c'.flight? = c.flight?) ?_
    ⟨rfl, rfl⟩ h
  rintro now c₁ s₁ c₂ ⟨hkey, hflight⟩ hpoll
  obtain ⟨hkey', hflight'⟩ := poll_pending hpoll
  exact ⟨hkey'.trans hkey, hflight'.trans hflight⟩

/-- Giving up a call gives up the flight that it leads, and no other. -/
theorem abandon_own (c : Call K S.Call S.Body) (s : State K S) :
    (abandon S c s).own =
      match c.key? with
      | some key => s.own.cancel key
      | none => s.own := by
  cases c <;> rfl

end Coalesced

end Floodgate
