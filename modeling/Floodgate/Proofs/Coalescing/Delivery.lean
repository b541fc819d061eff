/-
  Floodgate/Proofs/Coalescing/Delivery.lean
  =========================================
  **Whose execution answers a call.**  A call at a coalescer is answered by an execution:
  its own, or that of the leader it has joined (`Serves`).  The answer is a copy of the
  response that the execution had (`Booking.copies_execution`): the same status, version and headers,
  and data that is the same all together.  Executions are shared only by requests with the
  same key (`Serves.same_key`).
-/
import Floodgate.Proofs.Coalescing.Sharing
import Floodgate.Proofs.Traffic.Inside

namespace Floodgate

open Http (Bytes Head Headers Request Response)

/-- The one response is a copy of the other: the head but for its extension is the same, and if
    the other gives data without failing, the one gives the same data. -/
structure Copies {π : Type} {Q S : Service π} (r : Response Q.Body) (r₀ : Response S.Body) :
    Prop where
  status : r.head.status = r₀.head.status
  version : r.head.version = r₀.head.version
  headers : r.head.headers = r₀.head.headers
  data : ∀ waits pieces trailers, S.Gives waits r₀.body ⟨pieces, .ok trailers⟩ →
    ∃ pieces' trailers', Q.Gives waits r.body ⟨pieces', .ok trailers'⟩ ∧
      pieces'.flatten = pieces.flatten

namespace Coalesced

variable {π K : Type} [DecidableEq K] {S : Service π} {o : CoalescerOptions K} {waits : Prop}

/-! ### Bodies -/

theorem gives_own (r : Http.Replay) : (service o S).Gives waits (.own r) r.script :=
  Service.gives_replay (fun _ _ => rfl) r

theorem gives_passed {b : S.Body} {x : Script} (h : S.Gives waits b x) :
    (service o S).Gives waits (.passed b) x :=
  Service.Gives.passed (fun _ _ => rfl) h

/-- What capturing comes to of a body that gives this data and does not fail, after data that
    has been read. -/
def Capture.Finds (S : Service π) (waits : Prop) (whole : Bytes) : Capture S.Body → Prop
  | .pending data rest => waits ∧ ∃ pieces trailers,
      S.Gives waits rest ⟨pieces, .ok trailers⟩ ∧ data ++ pieces.flatten = whole
  | .whole data => data = whole
  | .failed _ => False

theorem capture_finds {fuel : Nat} (data : Bytes) {body : S.Body} {pieces : List Bytes}
    {trailers : Option Headers} (s : S.State) (hbody : S.Gives waits body ⟨pieces, .ok trailers⟩)
    (hfuel : S.size body < fuel) :
    (capture S fuel data body s).value.Finds S waits (data ++ pieces.flatten) := by
  induction fuel generalizing data body s pieces trailers with
  | zero => exact absurd hfuel (Nat.not_lt_zero _)
  | succ fuel ih =>
    have hpull := hbody.pull s
    have hshrinks := S.pull_shrinks body s
    simp only [capture]
    cases hv : (S.pull body s).value with
    | pending rest =>
      rw [hv] at hpull
      exact ⟨hpull.1, pieces, trailers, hpull.2, rfl⟩
    | frame f rest =>
      rw [hv] at hpull hshrinks
      have hless : S.size rest < fuel := Nat.lt_of_lt_of_le hshrinks (Nat.le_of_lt_succ hfuel)
      cases f with
      | data bytes =>
        obtain ⟨pieces', hpieces, hrest⟩ := hpull
        cases hpieces
        have hfinds := ih (data ++ bytes) (S.pull body s).state hrest hless
        rw [List.append_assoc] at hfinds
        exact hfinds
      | trailers fields =>
        -- trailers end the data, and capturing reads on to the end
        obtain ⟨hx, hrest⟩ := hpull
        cases hx
        exact ih data (S.pull body s).state hrest hless
    | failed f rest =>
      rw [hv] at hpull
      cases (show _ = _ from hpull)
    | ended rest =>
      rw [hv] at hpull
      cases hpull.1
      exact (List.append_nil data).symm

/-! ### Leaders -/

/-- The answer with a response that was captured. -/
def copied (head : Head) (data : Bytes) : Answer (Relayed S.Body) :=
  delivered (.ok (.ofHead head data))

theorem copied_inj {head : Head} {data data' : Bytes}
    (h : copied (S := S) head data = copied head data') : data = data' := by
  simpa [copied, delivered, Captured.response, Captured.ofHead, Response.withBody,
    Http.Replay.ofBytes] using h

theorem complete_ok (f : Flights K Captured) (key : K) (c : Captured) :
    (f.complete key (.ok c)).1 = .ok c := by
  rcases f.complete_result key (.ok c) with h | h <;> exact h

/-- The call captures the body of a response, and this is all its data. -/
def Captures (S : Service π) (waits : Prop) (head : Head) (whole : Bytes)
    (call : Call K S.Call S.Body) : Prop :=
  ∃ key data rest pieces trailers, call = .capturing key head data rest ∧
    S.Gives waits rest ⟨pieces, .ok trailers⟩ ∧ data ++ pieces.flatten = whole

theorem gather_meets (key : K) (head : Head) (data : Bytes) {body : S.Body} {pieces : List Bytes}
    {trailers : Option Headers} (hbody : S.Gives waits body ⟨pieces, .ok trailers⟩)
    (s : State K S) :
    (gather o S key head data body s).value.Meets waits
      (Captures S waits head (data ++ pieces.flatten))
      (· = copied head (data ++ pieces.flatten)) := by
  have hfinds := capture_finds data s.inner hbody (Nat.lt_succ_self _)
  simp only [gather]
  cases hv : (capture S (S.size body + 1) data body s.inner).value with
  | pending data' rest =>
    rw [hv] at hfinds
    obtain ⟨hwaits, pieces', trailers', hrest, hwhole⟩ := hfinds
    exact ⟨hwaits, key, data', rest, pieces', trailers', rfl, hrest, hwhole⟩
  | whole data' =>
    rw [hv] at hfinds
    cases (show _ = _ from hfinds)
    exact congrArg delivered (complete_ok s.own key _)
  | failed f =>
    rw [hv] at hfinds
    exact hfinds.elim

theorem Captures.answers {head : Head} {whole : Bytes} {call : Call K S.Call S.Body}
    (h : Captures S waits head whole call) :
    (service o S).Answers waits call (· = copied head whole) := by
  refine ⟨Captures S waits head whole, h, ?_⟩
  rintro _ now s ⟨key, data, rest, pieces, trailers, rfl, hrest, rfl⟩
  exact gather_meets key head data hrest s

/-- Whatever the body is like, a response that a leader answers with has this head. -/
def Heads (head : Head) (a : Answer (Relayed S.Body)) : Prop :=
  ∀ r, a = .ok r → ∃ data, .ok r = copied (S := S) head data

theorem gather_heads (key : K) (head : Head) (data : Bytes) (body : S.Body) (s : State K S) :
    (gather o S key head data body s).value.Meets True
      (fun call => ∃ data rest, call = .capturing key head data rest) (Heads head) := by
  simp only [gather]
  cases (capture S (S.size body + 1) data body s.inner).value with
  | pending data' rest => exact ⟨trivial, data', rest, rfl⟩
  | whole data' =>
    intro r hr
    have hcopied : delivered (s.own.complete key (.ok (.ofHead head data'))).1 = .ok r := hr
    rw [complete_ok] at hcopied
    exact ⟨data', hcopied.symm⟩
  | failed f =>
    intro r hr
    have hfailed : delivered (s.own.complete key (.error f)).1 = .ok r := hr
    rcases s.own.complete_result key (.error f) with h | h <;> rw [h] at hfailed <;> cases hfailed

theorem capturing_heads (key : K) (head : Head) (data : Bytes) (rest : S.Body) :
    (service o S).Answers True (.capturing key head data rest) (Heads head) := by
  refine ⟨fun call => ∃ data rest, call = .capturing key head data rest, ⟨data, rest, rfl⟩, ?_⟩
  rintro _ now s ⟨data, rest, rfl⟩
  exact gather_heads key head data rest s

/-! ### Courses -/

theorem awaits_passed :
    Service.Awaits (service o S) S (Call.passed : S.Call → Call K S.Call S.Body) Layered.inner := by
  intro now call s next hnext
  show (poll o S now (.passed call) s).value = _
  simp only [poll, Step.map, Step.under, Step.into, hnext]
  rfl

theorem awaits_leading (key : K) :
    Service.Awaits (service o S) S (Call.leading key) Layered.inner := by
  intro now call s next hnext
  show (poll o S now (.leading key call) s).value = _
  simp only [poll, hnext]
  rfl

variable {moments : List (Instant × State K S)} {inner : S.Call} {head : Head} {b : S.Body}

theorem passed_course {a : Answer S.Body} {a' : Answer (Relayed S.Body)}
    (ha : (Progress.done a).map Call.passed Relayed.passed =
      (.done a' : Progress (Call K S.Call S.Body) (Relayed S.Body)))
    (hinner : S.course inner (inside Layered.inner moments) = .done a) :
    (service o S).course (.passed inner) moments = .done a' := by
  refine Service.course_answered awaits_passed ?_ hinner
  intro now call s hdone
  show (poll o S now (.passed call) s).value = _
  simp only [poll, Step.map, Step.under, Step.into, hdone]
  exact ha

/-- A leader whose execution fails fails. -/
theorem leading_fails (key : K) {f : Failure}
    (hinner : S.course inner (inside Layered.inner moments) = .done (.error f)) :
    ∃ f', (service o S).course (.leading key inner) moments = .done (.error f') := by
  have hfails : ∀ now call s, (S.poll now call s.inner).value = .done (.error f) →
      ∃ a', ((service o S).poll now (.leading key call) s).value = .done a' ∧
        ∃ f', a' = .error f' := by
    intro now call s hdone
    show ∃ a', (poll o S now (.leading key call) s).value = .done a' ∧ _
    simp only [poll, hdone]
    rcases s.own.complete_result key (.error f) with h | h
    · exact ⟨_, congrArg Progress.done (congrArg delivered h), f, rfl⟩
    · exact ⟨_, congrArg Progress.done (congrArg delivered h), .shared f, rfl⟩
  obtain ⟨_, hcourse, f', rfl⟩ :=
    Service.course_answers (fun a => ∃ f', a = .error f') (awaits_leading key) hfails hinner
  exact ⟨f', hcourse⟩

theorem leading_heads (key : K)
    (hinner : S.course inner (inside Layered.inner moments) = .done (.ok ⟨head, b⟩)) :
    ((service o S).course (.leading key inner) moments).Meets True (fun _ => True)
      (Heads head) := by
  have hmeets := Service.course_after True (Heads head) (awaits_leading (o := o) key) ?_ hinner
  · exact hmeets.mono (fun _ _ => trivial) fun _ hJ => hJ
  · intro now call s hdone
    show (poll o S now (.leading key call) s).value.Meets _ _ _
    simp only [poll, hdone]
    refine (gather_heads key head [] b ⟨s.own, (S.poll now call s.inner).state⟩).mono ?_
      fun _ hJ => hJ
    rintro _ ⟨data, rest, rfl⟩
    exact capturing_heads key head data rest

/-- **A leader answers with a copy of the whole response.** -/
theorem leading_copies (key : K) {pieces : List Bytes} {trailers : Option Headers}
    (hb : S.Gives waits b ⟨pieces, .ok trailers⟩)
    (hinner : S.course inner (inside Layered.inner moments) = .done (.ok ⟨head, b⟩)) :
    ((service o S).course (.leading key inner) moments).Meets waits (fun _ => True)
      (· = copied head pieces.flatten) := by
  have hmeets := Service.course_after waits (· = copied head pieces.flatten)
    (awaits_leading (o := o) key) ?_ hinner
  · exact hmeets.mono (fun _ _ => trivial) fun _ hJ => hJ
  · intro now call s hdone
    show (poll o S now (.leading key call) s).value.Meets _ _ _
    simp only [poll, hdone]
    have hgather := gather_meets (o := o) key head [] hb
      ⟨s.own, (S.poll now call s.inner).state⟩
    exact hgather.mono (fun _ hcall => hcall.answers) fun _ hJ => hJ

/-! ### Executions -/

section

variable {π η K : Type} [DecidableEq K] {o : CoalescerOptions K} {P : Pipeline π η}
  {a b x : Booking o P} {as : (P.coalesced o).Accounts} {f : Flights K Captured} {n m : Nat}

/-- The call of the inner service that a call holds, unless it waits for another. -/
def Booking.execution (a : Booking o P) : Account P.toService := Account.within Layered.inner a

theorem Booking.opening_cases (hjoined : a.joined? = none) :
    a.opening = Call.passed a.execution.opening ∨
      ∃ key, a.opening = Call.leading key a.execution.opening := by
  unfold joined? at hjoined
  cases hkey : o.key? a.request with
  | none => exact .inl (start_passed hkey a.now a.payload a.state).1
  | some key =>
    cases hcurrent : a.state.own.current? key with
    | none => exact .inr ⟨key, (start_leading hkey hcurrent a.now a.payload).1⟩
    | some flight =>
      have hopening : a.opening = Call.waiting flight :=
        (start_waiting hkey hcurrent a.now a.payload).1
      rw [hopening] at hjoined
      cases hjoined

/-- A call that executes has ended, and so has its execution. -/
theorem Booking.executed (hjoined : a.joined? = none) {answer : Answer (P.coalesced o).Body}
    (hdone : a.progress = .done answer) : ∃ a₀, a.execution.progress = .done a₀ := by
  unfold Account.progress at hdone
  rcases Booking.opening_cases hjoined with hopening | ⟨key, hopening⟩
  · rw [hopening] at hdone
    exact Service.answered_inside awaits_passed hdone
  · rw [hopening] at hdone
    exact Service.answered_inside (awaits_leading key) hdone

theorem copies_copied {head : Head} {b : P.Body} {r : Response (Relayed P.Body)} {data : Bytes}
    (hr : Except.ok r = copied (S := P.toService) head data)
    (hdata : ∀ waits pieces trailers, P.Gives waits b ⟨pieces, .ok trailers⟩ →
      data = pieces.flatten) :
    Copies (Q := (P.coalesced o).toService) (S := P.toService) r ⟨head, b⟩ := by
  cases Except.ok.inj hr
  refine ⟨rfl, rfl, rfl, ?_⟩
  intro waits pieces trailers hgives
  refine ⟨_, _, gives_own _, ?_⟩
  rw [← hdata waits pieces trailers hgives]
  exact Http.Replay.flatten_script (.ofBytes data)

/-- **A call that executes answers with a copy of the response of its execution.** -/
theorem Booking.copies_execution (hjoined : a.joined? = none)
    {r : Response (Relayed P.Body)} (hdone : a.progress = .done (.ok r)) :
    ∃ r₀, a.execution.progress = .done (.ok r₀) ∧
      Copies (Q := (P.coalesced o).toService) (S := P.toService) r r₀ := by
  obtain ⟨a₀, ha₀⟩ := Booking.executed hjoined hdone
  have hcourse : (service o P.toService).course a.opening a.moments = .done (.ok r) := hdone
  rcases Booking.opening_cases hjoined with hopening | ⟨key, hopening⟩
  · rw [hopening] at hcourse
    cases a₀ with
    | error f =>
      rw [passed_course rfl ha₀] at hcourse
      cases hcourse
    | ok r₀ =>
      rw [passed_course rfl ha₀] at hcourse
      cases hcourse
      refine ⟨r₀, ha₀, rfl, rfl, rfl, ?_⟩
      intro waits pieces trailers hgives
      exact ⟨pieces, trailers, gives_passed hgives, rfl⟩
  · rw [hopening] at hcourse
    cases a₀ with
    | error f =>
      obtain ⟨f', hfails⟩ := leading_fails (o := o) key ha₀
      rw [hfails] at hcourse
      cases hcourse
    | ok r₀ =>
      have hheads := leading_heads (o := o) key ha₀
      rw [hcourse] at hheads
      obtain ⟨data, hr⟩ := hheads r rfl
      refine ⟨r₀, ha₀, copies_copied hr ?_⟩
      intro waits pieces trailers hgives
      have hcopies := leading_copies (o := o) key hgives ha₀
      rw [hcourse] at hcopies
      exact copied_inj (hr.symm.trans hcopies)

/-- If the response of the execution does not fail, neither does the call. -/
theorem Booking.answers_execution (hjoined : a.joined? = none) {answer : Answer (Relayed P.Body)}
    (hdone : a.progress = .done answer) {r₀ : Response P.Body}
    (hr₀ : a.execution.progress = .done (.ok r₀)) {pieces : List Bytes}
    {trailers : Option Headers} (hgives : P.Gives waits r₀.body ⟨pieces, .ok trailers⟩) :
    ∃ r, answer = .ok r := by
  have hcourse : (service o P.toService).course a.opening a.moments = .done answer := hdone
  rcases Booking.opening_cases hjoined with hopening | ⟨key, hopening⟩
  · rw [hopening, passed_course rfl hr₀] at hcourse
    exact ⟨_, (Progress.done.inj hcourse).symm⟩
  · have hcopies := leading_copies (o := o) key hgives hr₀
    rw [← hopening, hcourse] at hcopies
    exact ⟨_, hcopies⟩

/-! ### Who is answered by whom -/

/-- The execution of the call `m` answers the call `n`: it is the call itself, or the leader that
    it has joined and that was not given up. -/
inductive Serves (as : (P.coalesced o).Accounts) (n : Nat) (b : Booking o P) :
    Nat → Booking o P → Prop where
  | own (joined : b.joined? = none) : Serves as n b n b
  | shared (m : Nat) (x : Booking o P) (key : K) (joined : b.joined? = some x.flight)
    (leader : Leader as m x key) (kept : x.dropped = false) : Serves as n b m x

theorem Serves.executes (h : Serves as n b m x) : x.joined? = none := by
  cases h with
  | own joined => exact joined
  | shared _ _ key _ leader _ => exact Booking.joined?_of_key? leader.key

/-- A call that is answered by an execution has the answer of the call that executes. -/
theorem Serves.same_answer (hm : Manifest as f) (hb : as[n]? = some (some b))
    (h : Serves as n b m x) {answer : Answer (P.coalesced o).Body}
    (hdone : b.progress = .done answer) : x.progress = .done answer := by
  cases h with
  | own joined => exact hdone
  | shared _ _ key joined leader kept =>
    exact Booking.done_of_fate? kept (hm.served_fate hb joined hdone leader)

/-- A call that was answered was answered by an execution, unless its leader was given up. -/
theorem Manifest.served_by (hm : Manifest as f) (hb : as[n]? = some (some b))
    {answer : Answer (P.coalesced o).Body} (hdone : b.progress = .done answer) :
    (∃ m x, Serves as n b m x) ∨ answer = .error .leaderCancelled := by
  cases hjoined : b.joined? with
  | none => exact .inl ⟨n, b, .own hjoined⟩
  | some g =>
    obtain ⟨m, x, key, hleader, rfl, _⟩ := hm.followed n b g hb hjoined
    cases hdropped : x.dropped with
    | false => exact .inl ⟨m, x, .shared m x key hjoined hleader hdropped⟩
    | true =>
      have hfate := hm.served_fate hb hjoined hdone hleader
      rw [Booking.fate?_of_dropped hdropped] at hfate
      exact .inr (Option.some.inj hfate).symm

/-- **Executions are shared only by requests with the same key.** -/
theorem Serves.same_key (hm : Manifest as f) (hb : as[n]? = some (some b))
    (h : Serves as n b m x) :
    (m = n ∧ x = b) ∨ ∃ key, o.key? b.request = some key ∧ o.key? x.request = some key := by
  cases h with
  | own joined => exact .inl ⟨rfl, rfl⟩
  | shared _ _ key joined leader kept =>
    obtain ⟨m', x', key', hleader', hflight, hrequest⟩ := hm.followed n b _ hb joined
    have hkeys := (hm.leader_eq hleader' leader hflight).2
    subst hkeys
    exact .inr ⟨_, hrequest, ((key?_start_iff x.now x.payload).mp leader.key).1⟩

end

end Coalesced

end Floodgate
