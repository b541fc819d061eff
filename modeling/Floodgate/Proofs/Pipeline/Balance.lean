/-
  Floodgate/Proofs/Pipeline/Balance.lean
  ======================================
  **The books of the edge balance.**  As every call gets to one place only, the calls that
  met no held failure are at every moment as many as those turned away by admission control
  and by the circuit, those that have joined a call under way and the invocations of the
  handler together.

  What the recorder shows are the executions of the handler that have ended, and as errors
  those that failed or were answered with a server error; executions that are under way or
  were given up do not show (`edge_balances`).
-/
import Floodgate.Gzip.Deflate
import Floodgate.Proofs.Pipeline.Reach
import Floodgate.Proofs.Traffic.Counter

namespace Floodgate

open Http (Request)

variable {π η : Type}

/-! ### Figures of the stages -/

/-- The call has ended, and with such an answer. -/
def Progress.endedWith {κ β : Type} (counts : Answer β → Bool) : Progress κ β → Bool
  | .pending _ => false
  | .done answer => counts answer

/-- The record counts the executions that were started. -/
def Recorded.counter (P : Pipeline π η) : Counter P.recorded where
  figure s := s.own.started
  counts _ := true
  Valid _ := True
  start_valid _ _ _ _ := trivial
  poll_valid _ _ _ _ _ _ := trivial
  start_figure _ _ _ _ := rfl
  poll_figure _ c s _ := congrArg (· + 1) (Log.grows_note s.own c.1 _).started
  ready_figure _ := rfl
  abandon_figure _ _ := rfl
  pull_figure b s := (Log.grows_note s.own b.1 _).started
  obey_figure _ _ _ := rfl
  core_figure _ _ := rfl

/-- Every call of what is put on record counts, however far it has come. -/
theorem Recorded.tells_counter {Q P : Pipeline π η} (A : Shell Q P.recorded)
    (a : Account Q.toService) :
    (counter P).tells A (some a) = (A.call a.opening).isSome := by
  cases hcall : A.call a.opening with
  | none => exact Counter.tells_of_none (Shell.account_of_call_none hcall)
  | some i => exact Counter.tells_of_account (Shell.account_of_call hcall)

namespace Metered

variable {o : MeterOptions} {saved : Nat}

/-- Recording a call adds to the figure if its answer counts. -/
def Adds {β : Type} (figure : Recorder → Nat) (counts : Answer β → Bool) : Prop :=
  ∀ recorder latency answer, figure (recorder.record latency (isError answer)) =
    figure recorder + (counts answer).toNat

theorem adds_requests {β : Type} : Adds Recorder.requests fun _ : Answer β => true :=
  fun _ _ _ => rfl

theorem adds_errors {β : Type} : Adds Recorder.errors (isError : Answer β → Bool) := by
  intro recorder latency answer
  show recorder.errors + (if isError answer then 1 else 0) = _
  cases isError answer <;> rfl

/-- A figure of the recorder counts the calls that have ended with answers that add to it. -/
def counter (on : o.enabled = true) (saved : Nat) (P : Pipeline π η) {figure : Recorder → Nat}
    {counts : Answer P.Body → Bool} (h : Adds figure counts) : Counter (P.metered o saved) where
  figure s := figure s.own
  counts progress := progress.endedWith counts
  Valid call := ∃ since inner, call = .timed since inner
  start_valid now r p s := by
    refine ⟨now, (P.start now r p s.inner).value, ?_⟩
    show (if o.enabled then Call.timed now else .passed) (P.start now r p s.inner).value = _
    rw [if_pos on]
  poll_valid now call s call' hvalid hpending := by
    obtain ⟨since, inner, rfl⟩ := hvalid
    have hpending : (poll o P.toService now (.timed since inner) s).value = .pending call' :=
      hpending
    simp only [poll] at hpending
    cases hv : (P.poll now inner s.inner).value with
    | pending next =>
      simp only [hv] at hpending
      cases hpending
      exact ⟨since, next, rfl⟩
    | done answer =>
      simp only [hv] at hpending
      cases hpending
  start_figure _ _ _ _ := rfl
  poll_figure now call s hvalid := by
    obtain ⟨since, inner, rfl⟩ := hvalid
    show figure (poll o P.toService now (.timed since inner) s).state.own + 0 =
      figure s.own + (Progress.endedWith counts
        (poll o P.toService now (.timed since inner) s).value).toNat
    simp only [poll]
    cases hv : (P.poll now inner s.inner).value with
    | pending next => rfl
    | done answer => exact h s.own (now - since) answer
  ready_figure _ := rfl
  abandon_figure call s := by cases call <;> rfl
  pull_figure _ _ := rfl
  obey_figure _ _ _ := rfl
  core_figure _ _ := rfl

/-- What is timed ends as what is behind does. -/
theorem endedWith_within {P : Pipeline π η} (counts : Answer P.Body → Bool)
    (a : Account (P.metered o saved).toService) :
    Progress.endedWith counts a.progress =
      Progress.endedWith counts
        (Account.progress (S := P.toService) (a.within Layered.inner)) := by
  have hopening : a.opening.inner =
      Account.opening (S := P.toService) (a.within Layered.inner) :=
    start_passes P.toService a.now a.request a.payload a.state
  have hdone : ∀ answer, a.progress = .done answer ↔
      Account.progress (S := P.toService) (a.within Layered.inner) = .done answer := by
    intro answer
    have h : (P.metered o saved).course a.opening a.moments = .done answer ↔
        P.course a.opening.inner (inside Layered.inner a.moments) = .done answer := course_done_iff
    rw [hopening] at h
    exact h
  cases hprogress : a.progress with
  | pending call =>
    cases hinner : Account.progress (S := P.toService) (a.within Layered.inner) with
    | pending inner => rfl
    | done answer =>
      rw [(hdone answer).mpr hinner] at hprogress
      cases hprogress
  | done answer =>
    rw [(hdone answer).mp hprogress]
    rfl

/-- The calls that are counted, by the calls behind them. -/
theorem tells_counter {Q P : Pipeline π η} (A : Shell Q (P.metered o saved))
    (on : o.enabled = true) {figure : Recorder → Nat} {counts : Answer P.Body → Bool}
    (h : Adds figure counts) (a : Option (Account Q.toService)) :
    (counter on saved P h).tells A a =
      (a.bind (A.trans (shell o saved P)).account).any fun b => b.progress.endedWith counts := by
  cases a with
  | none => rfl
  | some a =>
    rw [Option.bind_some, Shell.account_trans]
    cases hb : A.account a with
    | none =>
      rw [Counter.tells_of_none hb]
      rfl
    | some b =>
      rw [Counter.tells_of_account hb]
      exact endedWith_within counts b

end Metered

/-! ### The books -/

/-- There is no other place to get to, and no two at once. -/
theorem Reach.counted_once (r : Reach) :
    (!(r == .held)).toNat = (r == .limited).toNat + (r == .refused).toNat +
      (r == .joined).toNat + (r == .executed).toNat := by
  cases r <;> rfl

theorem countP_reach {α : Type} (reach : α → Reach) (l : List (Option α)) :
    let reached (r : Reach) : Nat := l.countP fun a => a.any fun a => reach a == r
    (l.countP fun a => a.any fun a => !(reach a == .held)) =
      reached .limited + reached .refused + reached .joined + reached .executed := by
  intro reached
  simp only [reached]
  induction l with
  | nil => rfl
  | cons a l ih =>
    simp only [countP_cons_toNat, ih]
    cases a with
    | none => rfl
    | some a =>
      have hone := (reach a).counted_once
      simp only [Option.any_some]
      omega

/-- A recorder has nothing on record at first. -/
theorem MeterSpec.recorder_first (spec : MeterSpec) :
    spec.recorder.requests = 0 ∧ spec.recorder.errors = 0 := by
  unfold recorder
  split <;> exact ⟨rfl, rfl⟩

/-- What there is to count at an edge after a run of its callers. -/
structure Ledger where
  /-- Calls made, but for those that were answered with a failure that was held. -/
  calls : Nat
  /-- Turned away by admission control. -/
  limited : Nat
  /-- Turned away by the circuit. -/
  refused : Nat
  joined : Nat
  /-- Calls that the handler has had. -/
  invocations : Nat
  /-- Executions of the handler that have ended. -/
  ended : Nat
  /-- Those of them that have ended in a failure or in a server error. -/
  erred : Nat
  /-- What the edge itself has recorded. -/
  recorder : Recorder

namespace Deployment

variable (c : Gzip.Codec) (e : EdgeSpec) (now : Instant) (d : Deployment π η)

/-- Watches the edge around a deployment whose executions are put on record. -/
def ledger (moves : List (Move π η)) : Ledger :=
  let edge := d.recorded.edge c e now
  let after := edge.pipeline.run (edge.opened now) moves
  let inwards := d.recorded.fromBreaker c e now after.state
  let calls := d.recorded.edgeCalls c e now moves
  let reached (r : Reach) : Nat :=
    calls.countP fun a => a.any fun a => d.recorded.edgeReach c e now a == r
  let executions := calls.map fun a => a.bind (d.recorded.edgeHandler c e now).account
  let endedWith (counts : Answer d.recorded.pipeline.Body → Bool) : Nat :=
    executions.countP fun x => x.any fun x => x.progress.endedWith counts
  { calls := calls.countP fun a => a.any fun a => a.state.own.isNone
    limited := reached .limited
    refused := reached .refused
    joined := reached .joined
    invocations := inwards.inner.inner.inner.inner.own.started
    ended := endedWith fun _ => true
    erred := endedWith Metered.isError
    recorder := inwards.inner.inner.inner.own }

/-- The handler has had one call from every call that executes. -/
theorem invocations_eq (moves : List (Move π η)) :
    (d.ledger c e now moves).invocations =
      (d.recorded.edgeCalls c e now moves).countP fun a =>
        a.any fun a => d.recorded.edgeReach c e now a == .executed := by
  let C := Recorded.counter d.pipeline
  let A := d.recorded.edgeHandler c e now
  have hcount : (d.ledger c e now moves).invocations =
      0 + C.count A (d.recorded.edgeCalls c e now moves) :=
    C.count_quiet A now (d.recorded.edge c e now).state moves
  rw [hcount, Nat.zero_add]
  apply List.countP_congr
  intro a ha
  cases a with
  | none => exact Iff.rfl
  | some a =>
    have htells : C.tells A (some a) = (A.call a.opening).isSome := Recorded.tells_counter A a
    rw [Option.any_some, ← isSome_edgeHandler]
    exact iff_of_eq (congrArg (· = true) htells)

/-- A figure of the recorder of the edge counts the executions that have ended with answers that
    add to it. -/
theorem recorded_eq (on : e.settings.meter.enabled = true) (moves : List (Move π η))
    {figure : Recorder → Nat} {counts : Answer d.recorded.pipeline.Body → Bool}
    (h : Metered.Adds figure counts) (hfirst : figure e.meter.recorder = 0) :
    figure (d.ledger c e now moves).recorder =
      ((d.recorded.edgeCalls c e now moves).map fun a =>
        a.bind (d.recorded.edgeHandler c e now).account).countP fun x =>
          x.any fun x => x.progress.endedWith counts := by
  let C := Metered.counter (o := e.meter.options) on e.meter.saved d.recorded.pipeline h
  let A := d.recorded.edgeMeter c e now
  have hcount : figure (d.ledger c e now moves).recorder =
      figure e.meter.recorder + C.count A (d.recorded.edgeCalls c e now moves) :=
    C.count_quiet A now (d.recorded.edge c e now).state moves
  rw [hcount, hfirst, Nat.zero_add, List.countP_map]
  apply List.countP_congr
  intro a ha
  exact iff_of_eq (congrArg (· = true) (Metered.tells_counter A on h a))

/-- The calls that met no held failure are those that got somewhere else. -/
theorem calls_eq (moves : List (Move π η)) :
    let books := d.ledger c e now moves
    books.calls = books.limited + books.refused + books.joined + books.invocations := by
  intro books
  have hcalls : books.calls = (d.recorded.edgeCalls c e now moves).countP fun a =>
      a.any fun a => !(d.recorded.edgeReach c e now a == .held) := by
    apply List.countP_congr
    intro a ha
    cases a with
    | none => exact Iff.rfl
    | some a => exact iff_of_eq (congrArg (· = true) (edge_starts a).isNone_own)
  rw [hcalls, countP_reach, invocations_eq]
  rfl

end Deployment

/-- **The books of the edge balance.**  At every moment the calls that met no held failure are
    those turned away by admission control or by the circuit, those that have joined a call
    under way, and the calls that the handler has had.  Who is turned away changes nothing
    behind the stage that did it, now or later.  And the recorder has the executions of the
    handler that have ended, and as errors those that ended in a failure or a server error. -/
theorem edge_balances (c : Gzip.Codec) (e : EdgeSpec) (on : e.settings.meter.enabled = true)
    (now : Instant) (d : Deployment π η) (moves : List (Move π η)) :
    let books := d.ledger c e now moves
    let edge := d.recorded.edge c e now
    let after := edge.pipeline.run (edge.opened now) moves
    books.calls = books.limited + books.refused + books.joined + books.invocations ∧
      books.recorder.requests = books.ended ∧ books.recorder.errors = books.erred ∧
      ∀ n a, (d.recorded.edgeCalls c e now moves)[n]? = some (some a) →
        (d.recorded.edgeReach c e now a = .limited →
          (∃ wait, a.moments = [] ∨ a.progress = .done (Rendered.answer
            (.rateLimited (e.limiter.key.client a.request) (some wait)))) ∧
          Spares edge.pipeline (d.recorded.fromBreaker c e now) after n a) ∧
        (d.recorded.edgeReach c e now a = .refused →
          (a.moments = [] ∨ a.progress = .done (Rendered.answer (.circuitOpen e.name))) ∧
          Spares edge.pipeline (d.recorded.insideBreaker c e now) after n a) := by
  intro books edge after
  obtain ⟨hrequests, herrors⟩ := e.meter.recorder_first
  refine ⟨d.calls_eq c e now moves, ?_, ?_, ?_⟩
  · exact d.recorded_eq c e now on moves Metered.adds_requests hrequests
  · exact d.recorded_eq c e now on moves Metered.adds_errors herrors
  · intro n a ha
    exact ⟨Deployment.limited_spares ha, Deployment.refused_spares ha⟩

/-- Of five calls the first is answered.  The second goes to the handler, which is down by then,
    and opens the circuit; the third has joined it, the fourth is turned away by the circuit and
    the last, without a token, by admission control.  The recorder has two requests and one
    error, and the last call leaves the rest of the edge alone. -/
theorem five_calls_four_ways :
    let r (path : String) : Request := ⟨"GET", ⟨path, none⟩, [], none, none⟩
    let e : EdgeSpec :=
      { settings :=
          { rate := { requestsPerSecond := 1.0, burst := 4 }
            breaker := { failureThreshold := 1 } } }
    let d : Deployment Errand Handler := ⟨Handler.pipeline, .fresh, []⟩
    let fine : ScriptedAnswer :=
      .ok ⟨⟨200, Http.defaultVersion, [], none⟩, .whole (.ofBytes (Http.utf8 "fine"))⟩
    let moves : List (Move Errand Handler) :=
      [.call (r "/up") ⟨"a", some fine⟩, .poll 0, .call (r "/") ⟨"b", some (.error (.message "down"))⟩,
        .call (r "/") ⟨"c", none⟩, .poll 1, .call (r "/") ⟨"d", none⟩, .call (r "/") ⟨"e", none⟩,
        .poll 4]
    let books := d.ledger Gzip.deflating e 0 moves
    let edge := d.recorded.edge Gzip.deflating e 0
    (books.limited = 1 ∧ books.refused = 1 ∧ books.joined = 1 ∧ books.invocations = 2 ∧
      books.recorder.requests = 2 ∧ books.recorder.errors = 1) ∧
    ∃ a, (d.recorded.edgeCalls Gzip.deflating e 0 moves)[4]? = some (some a) ∧
      Spares edge.pipeline (d.recorded.fromBreaker Gzip.deflating e 0)
        (edge.pipeline.run (edge.opened 0) moves) 4 a := by
  intro r e d fine moves books edge
  obtain ⟨hcalls, hrequests, herrors, hturned⟩ :=
    edge_balances Gzip.deflating e rfl 0 d moves
  have hmade : books.calls = 5 := by decide +kernel
  have hlimited : books.limited = 1 := by decide +kernel
  have hrefused : books.refused = 1 := by decide +kernel
  have hjoined : books.joined = 1 := by decide +kernel
  have hended : books.ended = 2 := by decide +kernel
  have herred : books.erred = 1 := by decide +kernel
  have hreach : ((d.recorded.edgeCalls Gzip.deflating e 0 moves).map fun a =>
      a.map (d.recorded.edgeReach Gzip.deflating e 0))[4]? = some (some .limited) := by
    decide +kernel
  refine ⟨⟨hlimited, hrefused, hjoined, ?_, hrequests.trans hended, herrors.trans herred⟩, ?_⟩
  · have hsum : books.calls = books.limited + books.refused + books.joined + books.invocations :=
      hcalls
    omega
  · rw [List.getElem?_map] at hreach
    obtain ⟨x, hx, hlast⟩ := Option.map_eq_some_iff.mp hreach
    obtain ⟨a, rfl, ha⟩ := Option.map_eq_some_iff.mp hlast
    exact ⟨a, hx, ((hturned 4 a hx).1 ha).2⟩

end Floodgate
