/-
  Floodgate/Proofs/Pipeline/Shells.lean
  =====================================
  **The stages that read ahead, as shells.**  Compression measures a body once the call
  behind it is answered, coalescing captures one, and an encoded body reads the body inside
  it.  All of this is pulling at bodies, which no call behind notices; as long as a call is
  under way behind, the stage polls it once when it is polled itself and waits with it.
  Recording latencies is a shell as well, and ends its calls with those behind it.
-/
import Floodgate.Proofs.Pipeline.Executions
import Floodgate.Proofs.Traffic.Shell

namespace Floodgate

open Http (Bytes Head)

variable {π η : Type} {P : Pipeline π η}

theorem Relayed.pull_drifts {τ : Type} (b : Relayed P.Body) (s : Layered τ P.State) :
    P.Drifts s.inner (pull P.toService b s).state.inner := by
  cases b with
  | own r => exact .refl _
  | passed inner => exact .pull inner (.refl _)

/-! ### Compression -/

theorem Encoded.read_drifts (c : Gzip.Codec) (fuel : Nat) (stream : Gzip.Stream c.Encoder)
    (body : P.Body) (s : P.State) :
    P.Drifts s (read c P.toService fuel stream body s).state := by
  induction fuel generalizing stream body s with
  | zero => exact .refl _
  | succ fuel ih =>
    have hpull : P.Drifts s (P.pull body s).state := .pull body (.refl s)
    unfold read
    dsimp only
    split
    · exact hpull
    · split
      · exact hpull.trans (ih _ _ _)
      · exact hpull
    · exact hpull
    · exact hpull
    · exact hpull

theorem Encoded.pull_drifts (c : Gzip.Codec) (b : Encoded c.Encoder P.Body) (s : P.State) :
    P.Drifts s (pull c P.toService b s).state := by
  cases b with
  | spent trailers => cases trailers <;> exact .refl _
  | flowing ready stream sent source =>
    cases ready with
    | some bytes => exact .refl _
    | none => exact read_drifts c (P.size source + 1) stream source s

namespace Compressed

/-- The call behind, of a call that is not measuring a body yet. -/
def Call.inner? {κ β : Type} : Call κ β → Option κ
  | .passed inner => some inner
  | .negotiated inner => some inner
  | .measuring .. => none

variable (c : Gzip.Codec) (o : CompressorOptions)

theorem measure_drifts (minSize fuel : Nat) (data : Bytes) (body : P.Body) (s : P.State) :
    P.Drifts s (measure P.toService minSize fuel data body s).state := by
  induction fuel generalizing data body s with
  | zero => exact .refl _
  | succ fuel ih =>
    have hpull : P.Drifts s (P.pull body s).state := .pull body (.refl s)
    unfold measure
    split
    · exact .refl _
    · dsimp only
      split
      · exact hpull
      · exact hpull.trans (ih _ _ _)
      · exact hpull
      · exact hpull
      · exact hpull

theorem decide_drifts (head : Head) (data : Bytes) (body : P.Body) (s : State P.toService) :
    P.Drifts s.inner (decide c P.toService o head data body s).state.inner := by
  have hmeasure := measure_drifts o.minSize (P.size body + 2) data body s.inner
  unfold decide
  dsimp only
  split <;> exact hmeasure

/-- A call that measures a body does so until it is answered. -/
theorem inner?_of_decide {head : Head} {data : Bytes} {body : P.Body} {s : State P.toService}
    {call : Call P.Call P.Body}
    (h : (decide c P.toService o head data body s).value = .pending call) :
    call.inner? = none := by
  unfold decide at h
  dsimp only at h
  split at h
  · cases h
    rfl
  · cases h
  · cases h
  · cases h

theorem start_passes (now : Instant) (r : Http.Request) (p : π) (s : State P.toService) :
    (start P.toService o now r p s).value.inner? = some (P.start now r p s.inner).value := by
  show ((if o.enabled && Http.acceptsGzip r.headers then Call.negotiated else .passed)
    (P.start now r p s.inner).value).inner? = _
  split <;> rfl

/-- Once the call behind is answered its body may have to be measured. -/
theorem poll_negotiated (now : Instant) (inner : P.Call) (s : State P.toService) :
    P.Drifts (P.poll now inner s.inner).state
        (poll c P.toService o now (.negotiated inner) s).state.inner ∧
      Linked Call.inner? (poll c P.toService o now (.negotiated inner) s).value
        (P.poll now inner s.inner).value := by
  unfold poll
  dsimp only
  cases hv : (P.poll now inner s.inner).value with
  | pending next => exact ⟨.refl _, rfl⟩
  | done answer =>
    cases answer with
    | error f => exact ⟨.refl _, trivial⟩
    | ok r =>
      dsimp only
      split
      · refine ⟨decide_drifts c o r.head [] r.body ⟨s.own, (P.poll now inner s.inner).state⟩, ?_⟩
        exact linked_done (fun call hcall => inner?_of_decide c o hcall) _
      · exact ⟨.refl _, trivial⟩

theorem pull_drifts (b : Body c.Encoder P.Body) (s : State P.toService) :
    P.Drifts s.inner (pull c P.toService o b s).state.inner := by
  cases b with
  | relayed b => exact Relayed.pull_drifts b s
  | encoded encoded =>
    have hpull := Encoded.pull_drifts c encoded s.inner
    unfold pull
    dsimp only
    split <;> exact hpull

/-- Compression around a pipeline. -/
def shell (c : Gzip.Codec) (o : CompressorOptions) (P : Pipeline π η) :
    Shell (P.compressed c o) P where
  state s := s.inner
  call call := call.inner?
  start_cases now r p s := .inr ⟨start_passes o now r p s, rfl⟩
  poll_none now call s h := by
    cases call with
    | passed inner => cases h
    | negotiated inner => cases h
    | measuring head data rest =>
      exact ⟨decide_drifts c o head data rest s, fun call' h' => inner?_of_decide c o h'⟩
  poll_some now call s i h := by
    cases call with
    | passed inner =>
      cases h
      refine ⟨.refl _, ?_⟩
      show Linked Call.inner?
        ((P.poll now i s.inner).value.map .passed fun b => Body.relayed (.passed b)) _
      apply linked_map
      intro j
      rfl
    | negotiated inner =>
      cases h
      exact poll_negotiated c o now i s
    | measuring head data rest => cases h
  ready s := .ready (.refl _)
  abandon call s := by
    cases call with
    | passed inner => exact .abandon inner (.refl _)
    | negotiated inner => exact .abandon inner (.refl _)
    | measuring head data rest => exact .refl _
  pull b s := pull_drifts c o b s
  obey now order s := .obey now order (.refl _)
  core change s := .core change (.refl _)

end Compressed

/-! ### Coalescing -/

namespace Coalesced

variable {K : Type} [DecidableEq K] (o : CoalescerOptions K)

/-- The call behind, of a call that executes and is not capturing a body yet. -/
def Call.inner? {κ β : Type} : Call K κ β → Option κ
  | .passed inner => some inner
  | .leading _ inner => some inner
  | .capturing .. => none
  | .waiting _ => none

theorem capture_drifts (fuel : Nat) (data : Bytes) (body : P.Body) (s : P.State) :
    P.Drifts s (capture P.toService fuel data body s).state := by
  induction fuel generalizing data body s with
  | zero => exact .refl _
  | succ fuel ih =>
    have hpull : P.Drifts s (P.pull body s).state := .pull body (.refl s)
    unfold capture
    dsimp only
    split
    · exact hpull
    · exact hpull.trans (ih _ _ _)
    · exact hpull.trans (ih _ _ _)
    · exact hpull
    · exact hpull

theorem gather_drifts (key : K) (head : Head) (data : Bytes) (body : P.Body)
    (s : State K P.toService) :
    P.Drifts s.inner (gather o P.toService key head data body s).state.inner := by
  have hcapture := capture_drifts (P.size body + 1) data body s.inner
  unfold gather
  dsimp only
  split <;> exact hcapture

/-- A call that captures a body does so until it is answered. -/
theorem inner?_of_gather {key : K} {head : Head} {data : Bytes} {body : P.Body}
    {s : State K P.toService} {call : Call K P.Call P.Body}
    (h : (gather o P.toService key head data body s).value = .pending call) :
    call.inner? = none := by
  unfold gather at h
  dsimp only at h
  split at h
  · cases h
    rfl
  · cases h
  · cases h

/-- Whoever waits for a leader makes no call. -/
theorem start_cases (now : Instant) (r : Http.Request) (p : π) (s : State K P.toService) :
    ((start o P.toService now r p s).value.inner? = none ∧
      (start o P.toService now r p s).state.inner = s.inner) ∨
    ((start o P.toService now r p s).value.inner? = some (P.start now r p s.inner).value ∧
      (start o P.toService now r p s).state.inner = (P.start now r p s.inner).state) := by
  unfold start
  split
  · exact .inr ⟨rfl, rfl⟩
  · dsimp only
    split
    · exact .inl ⟨rfl, rfl⟩
    · exact .inr ⟨rfl, rfl⟩

/-- Once the call behind is answered its body may have to be captured. -/
theorem poll_leading (now : Instant) (key : K) (inner : P.Call) (s : State K P.toService) :
    P.Drifts (P.poll now inner s.inner).state
        (poll o P.toService now (.leading key inner) s).state.inner ∧
      Linked Call.inner? (poll o P.toService now (.leading key inner) s).value
        (P.poll now inner s.inner).value := by
  unfold poll
  dsimp only
  cases hv : (P.poll now inner s.inner).value with
  | pending next => exact ⟨.refl _, rfl⟩
  | done answer =>
    cases answer with
    | error f => exact ⟨.refl _, trivial⟩
    | ok r =>
      refine ⟨gather_drifts o key r.head [] r.body ⟨s.own, (P.poll now inner s.inner).state⟩, ?_⟩
      exact linked_done (fun call hcall => inner?_of_gather o hcall) _

theorem waiting_polled (now : Instant) (flight : FlightId) (s : State K P.toService) :
    (poll o P.toService now (.waiting flight) s).state.inner = s.inner ∧
      ∀ call : Call K P.Call P.Body,
        (poll o P.toService now (.waiting flight) s).value = .pending call → call.inner? = none := by
  unfold poll
  dsimp only
  split
  · refine ⟨rfl, ?_⟩
    intro call hcall
    cases hcall
    rfl
  · exact ⟨rfl, fun _ hcall => by cases hcall⟩
  · exact ⟨rfl, fun _ hcall => by cases hcall⟩

/-- Coalescing around a pipeline. -/
def shell (o : CoalescerOptions K) (P : Pipeline π η) : Shell (P.coalesced o) P where
  state s := s.inner
  call call := call.inner?
  start_cases now r p s := start_cases o now r p s
  poll_none now call s h := by
    cases call with
    | passed inner => cases h
    | leading key inner => cases h
    | capturing key head data rest =>
      exact ⟨gather_drifts o key head data rest s, fun call' h' => inner?_of_gather o h'⟩
    | waiting flight =>
      obtain ⟨hstate, hwaits⟩ := waiting_polled o now flight s
      exact ⟨.of_eq hstate, hwaits⟩
  poll_some now call s i h := by
    cases call with
    | passed inner =>
      cases h
      refine ⟨.refl _, ?_⟩
      show Linked Call.inner?
        ((P.poll now i s.inner).value.map .passed (Relayed.passed : P.Body → Relayed P.Body)) _
      apply linked_map
      intro j
      rfl
    | leading key inner =>
      cases h
      exact poll_leading o now key i s
    | capturing key head data rest => cases h
    | waiting flight => cases h
  ready s := .ready (.refl _)
  abandon call s := by
    cases call with
    | passed inner => exact .abandon inner (.refl _)
    | leading key inner => exact .abandon inner (.refl _)
    | capturing key head data rest => exact .refl _
    | waiting flight => exact .refl _
  pull b s := Relayed.pull_drifts b s
  obey now order s := .obey now order (.refl _)
  core change s := .core change (.refl _)

end Coalesced

/-! ### Recording latencies -/

namespace Metered

variable {o : MeterOptions} {saved : Nat}

theorem start_passes (S : Service π) (now : Instant) (r : Http.Request) (p : π)
    (s : Layered Recorder S.State) :
    (start o S now r p s).value.inner = (S.start now r p s.inner).value := by
  show ((if o.enabled then Call.timed now else .passed)
    (S.start now r p s.inner).value).inner = _
  split <;> rfl

/-- Recording latencies around a pipeline. -/
def shell (o : MeterOptions) (saved : Nat) (P : Pipeline π η) : Shell (P.metered o saved) P where
  state s := s.inner
  call call := some call.inner
  start_cases now r p s := .inr ⟨congrArg some (start_passes P.toService now r p s), rfl⟩
  poll_none now call s h := by cases h
  poll_some now call s i h := by
    cases h
    obtain ⟨hstate, hvalue⟩ := poll_cases o P.toService now call s
    refine ⟨.of_eq hstate, ?_⟩
    show Linked _ (poll o P.toService now call s).value _
    obtain ⟨inner, call', hinner, hcall, rfl⟩ | ⟨answer, hinner, hdone⟩ := hvalue
    · rw [hinner, hcall]
      rfl
    · rw [hinner, hdone]
      trivial
  ready s := .ready (.refl _)
  abandon call s := by
    cases call with
    | passed inner => exact .abandon inner (.refl _)
    | timed since inner => exact .abandon inner (.refl _)
  pull b s := Pipeline.Drifts.pull (P := P) b (.refl s.inner)
  obey now order s := .obey now order (.refl _)
  core change s := .core change (.refl _)

/-- **A call that is timed is answered when, and with what, the call behind it is.** -/
theorem course_done_iff {S : Service π} {call : Call S.Call}
    {moments : List (Instant × Layered Recorder S.State)} {answer : Answer S.Body} :
    (service o S).course call moments = .done answer ↔
      S.course call.inner (inside Layered.inner moments) = .done answer := by
  induction moments generalizing call with
  | nil =>
    constructor
    · intro h
      cases h
    · intro h
      cases h
  | cons m moments ih =>
    simp only [inside, List.map_cons, Service.course]
    obtain ⟨inner, call', hinner, hcall, rfl⟩ | ⟨answer', hinner, hdone⟩ :=
      (poll_cases o S m.1 call m.2).2
    · rw [hinner, show ((service o S).poll m.1 call m.2).value = .pending call' from hcall]
      exact ih
    · rw [hinner, show ((service o S).poll m.1 call m.2).value = .done answer' from hdone]
      constructor
      · intro h
        cases h
        rfl
      · intro h
        cases h
        rfl

end Metered

end Floodgate
