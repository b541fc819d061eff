/-
  Floodgate/Proofs/Pipeline/SharedFailure.lean
  ============================================
  **What clients see of a failure that is shared.**  A failing execution is shared like
  any other: the leader and all who have joined it fail alike, and where failures are
  rendered around the coalescer they are answered with one and the same response.

  To be shared a failure is marked, and the mark decides how it is rendered.  Of a failure
  of the handler's nothing is lost, the marked one has the same status and the same text.
  A rejection of the pipeline's own is not recognised any more: what would have been
  answered as such, had nobody joined, becomes an error of the handler's
  (`Rendered.answer_shared_iff`).
-/
import Floodgate.Proofs.Coalescing.Sharing
import Floodgate.Session.Handler
import Floodgate.Proofs.Traffic.Survey

namespace Floodgate

/-! ### Failures as they are rendered -/

/-- A rejection that is answered as such, with a status and a text of its own. -/
def Failure.isRefusal : Failure → Bool
  | .rateLimited .. => true
  | .circuitOpen _ => true
  | .leaderCancelled => true
  | _ => false

namespace Rendered

/-- What callers are answered with in place of a failure. -/
def answer {β : Type} (f : Failure) : Answer (Relayed β) :=
  .ok ((response f).withBody (.own (response f).body))

/-- A failure that was shared is answered like one of the handler's. -/
theorem status_shared (f : Failure) : (response (.shared f)).head.status = 500 := rfl

theorem status_refusal {f : Failure} (h : f.isRefusal = true) :
    (response f).head.status = 429 ∨ (response f).head.status = 503 := by
  cases f with
  | rateLimited client retryAfter => cases retryAfter <;> exact .inl rfl
  | circuitOpen name => exact .inr rfl
  | leaderCancelled => exact .inr rfl
  | _ => cases h

/-- **Sharing a failure does not change how it is answered, unless it is a refusal.** -/
theorem answer_shared_iff {β : Type} (f : Failure) :
    (answer (.shared f) : Answer (Relayed β)) = answer f ↔ f.isRefusal = false := by
  constructor
  · intro hsame
    have hstatus : (response (.shared f)).head.status = (response f).head.status :=
      congrArg (fun r : Http.Response (Relayed β) => r.head.status) (Except.ok.inj hsame)
    rw [status_shared] at hstatus
    by_contra hrefusal
    rw [Bool.not_eq_false] at hrefusal
    rcases status_refusal hrefusal with h | h
    · rw [h] at hstatus
      cases hstatus
    · rw [h] at hstatus
      cases hstatus
  · intro hkept
    cases f with
    | rateLimited => cases hkept
    | circuitOpen => cases hkept
    | leaderCancelled => cases hkept
    | _ => rfl

variable {π : Type} {S : Service π} {moments : List (Instant × (service S).State)} {i : S.Call}

theorem awaits_passed : Service.Awaits (service S) S Call.passed Layered.inner := by
  intro now call s next hnext
  show (poll S now (.passed call) s).value = _
  simp only [poll, hnext]
  rfl

theorem poll_failed {now : Instant} {s : (service S).State} {f : Failure}
    (hinner : (S.poll now i s.inner).value = .done (.error f)) :
    ((service S).poll now (.passed i) s).value = .done (answer f) := by
  show (poll S now (.passed i) s).value = _
  simp only [poll, hinner]
  rfl

/-- A call that fails behind the stage is answered. -/
theorem course_failed {f : Failure}
    (hinner : S.course i (inside Layered.inner moments) = .done (.error f)) :
    (service S).course (.passed i) moments = .done (answer f) := by
  refine Service.course_answered awaits_passed ?_ hinner
  intro now call s hdone
  exact poll_failed hdone

end Rendered

namespace Coalesced

variable {π η K : Type} [DecidableEq K] {o : CoalescerOptions K} {P : Pipeline π η}
  {as : (P.coalesced o).Accounts} {f : Flights K Captured} {n : Nat} {b b' : Booking o P} {key : K}

/-! ### What a failing execution comes to -/

theorem Booking.brings_unique {result result' : Except Failure Captured} (h : b.Brings result)
    (h' : b.Brings result') : result = result' := by
  obtain ⟨earlier, last, call, hmoments, hpending, houtcome⟩ := h
  obtain ⟨earlier', last', call', hmoments', hpending', houtcome'⟩ := h'
  obtain ⟨hearlier, hlast⟩ := List.append_inj' (hmoments.symm.trans hmoments') rfl
  subst hearlier
  cases hlast
  cases hpending.symm.trans hpending'
  exact Option.some.inj (houtcome.symm.trans houtcome')

theorem Booking.ended_of_brings (hkey : b.key? = some key)
    {result : Except Failure Captured} (h : b.Brings result) : b.call? = none := by
  obtain ⟨earlier, last, call, hmoments, hpending, houtcome⟩ := h
  have hleads : call.key? = some key := (course_pending hpending).1.trans hkey
  have hprogress : b.progress = (poll o P.toService last.1 call last.2).value := by
    unfold Account.progress
    rw [hmoments]
    exact Service.course_concat_pending last hpending
  rcases poll_leader (o := o) hleads last.1 last.2 with ⟨hnone, _⟩ | ⟨_, _, hdone, _⟩
  · rw [houtcome] at hnone
    cases hnone
  · exact Account.call?_of_done (hprogress.trans hdone)

/-- A leader whose execution has failed fails with that, marked if anybody has joined it. -/
theorem Manifest.leader_fails (h : Manifest as f) (hleader : Leader as n b key)
    (hkept : b.dropped = false) {failure : Failure} (hbrings : b.Brings (.error failure)) :
    b.progress = .done (.error (if boarded as b.flight = 0 then failure else .shared failure)) := by
  cases h.landed n b key hleader (Booking.ended_of_brings hleader.key hbrings) with
  | cancelled dropped left =>
    rw [hkept] at dropped
    cases dropped
  | completed result kept brings answer left =>
    cases Booking.brings_unique brings hbrings
    rw [answer]
    split <;> rfl

/-- Whoever has joined a leader whose execution has failed fails with that, marked. -/
theorem Manifest.waiter_fails (h : Manifest as f) (hleader : Leader as n b key)
    (hkept : b.dropped = false) {failure : Failure} (hbrings : b.Brings (.error failure))
    {m : Nat} (hb' : as[m]? = some (some b')) (hjoined : b'.joined? = some b.flight) :
    b.progress = .done (.error (.shared failure)) ∧ b.fate? = some (.error (.shared failure)) := by
  have hprogress := h.leader_fails hleader hkept hbrings
  rw [if_neg (boarded_pos hb' hjoined)] at hprogress
  exact ⟨hprogress, Booking.fate?_of_done hkept hprogress⟩

end Coalesced

/-! ### The coalescer with failures rendered around it -/

namespace Rendered

variable {π η : Type} {P : Pipeline π η}

/-- A call that was passed on and failed is answered. -/
theorem progress_failed {a : Account P.rendered.toService} {b : Account P.toService}
    (hb : (front P).account a = some b) {f : Failure} (hfailed : b.progress = .done (.error f)) :
    a.progress = .done (answer f) := by
  obtain ⟨rfl, hopening⟩ := Front.of_account hb
  cases hcall : a.opening with
  | answered r =>
    rw [hcall] at hopening
    cases hopening
  | passed i =>
    rw [hcall] at hopening
    unfold Account.progress
    rw [hcall]
    refine course_failed ?_
    rw [Option.some.inj hopening]
    exact hfailed

/-- A call under way holds the call that was passed on, which is under way as well. -/
theorem call?_behind {t : P.rendered.Callers} {as : P.rendered.Accounts} {n : Nat}
    {a : Account P.rendered.toService} {b : Account P.toService} {call : P.rendered.Call}
    (hcalls : Pipeline.Accounted as t)
    (hbehind : Pipeline.Accounted (as.map fun a => a.bind (front P).account) ((front P).behind t))
    (ha : as[n]? = some (some a)) (hb : (front P).account a = some b)
    (hcall : a.call? = some call) : ∃ i, call = .passed i ∧ b.call? = some i := by
  have hlive := Front.isSome_call? (clear P) hb
  rw [hcall, Option.isSome_some] at hlive
  obtain ⟨i, hi⟩ := Option.isSome_iff_exists.mp hlive
  have hslot := hcalls.calling_iff.mpr ⟨a, ha, hcall⟩
  have hb' : (as.map fun a => a.bind (front P).account)[n]? = some (some b) := by
    rw [List.getElem?_map, ha]
    exact congrArg some hb
  obtain ⟨call', hslot', hpassed⟩ :=
    Front.calling_of_behind (hbehind.calling_iff.mpr ⟨b, hb', hi⟩)
  rw [hslot] at hslot'
  cases hslot'
  cases call with
  | answered r => cases hpassed
  | passed j =>
    obtain rfl := Option.some.inj hpassed
    exact ⟨j, rfl, hi⟩

variable {K : Type} [DecidableEq K]

open Coalesced

/-- The coalescer behind the stage and the accounts of the calls that were passed on to it. -/
theorem manifest_behind (o : CoalescerOptions K) (P : Pipeline π η) (now : Instant)
    (s : P.State) (moves : List (Move π η)) :
    let Q := (P.coalesced o).rendered
    let t := (front (P.coalesced o)).behind (Q.run (Q.quiet now ⟨none, ⟨.none, s⟩⟩) moves)
    let bs : (P.coalesced o).Accounts :=
      (Q.accounts (Q.quiet now ⟨none, ⟨.none, s⟩⟩) moves []).map fun a =>
        a.bind (front (P.coalesced o)).account
    Manifest bs t.state.own ∧ Pipeline.Accounted bs t := by
  intro Q t bs
  obtain ⟨inner, hrun, haccounts⟩ :=
    ((front (P.coalesced o)).survey (clear (P.coalesced o))).accounts_behind
      (Q.quiet now ⟨none, ⟨.none, s⟩⟩) moves []
  have ht : t = (P.coalesced o).run ((P.coalesced o).quiet now ⟨.none, s⟩) inner := hrun
  have hbs : bs = (P.coalesced o).accounts ((P.coalesced o).quiet now ⟨.none, s⟩) inner [] :=
    haccounts
  rw [ht, hbs]
  exact manifest_of_run o P now s inner

/-- **A failure that is shared is answered alike.**  The leader of a failing execution and all
    who have joined it get one response.  It is the response that the leader would have got if
    nobody had joined, unless the failure is a refusal.

    Whoever has joined is answered when the call is polled next, if not before. -/
theorem failure_answered_alike (o : CoalescerOptions K) (P : Pipeline π η) (now : Instant)
    (s : P.State) (moves : List (Move π η)) :
    let Q := (P.coalesced o).rendered
    let F := front (P.coalesced o)
    let t := Q.run (Q.quiet now ⟨none, ⟨.none, s⟩⟩) moves
    let as := Q.accounts (Q.quiet now ⟨none, ⟨.none, s⟩⟩) moves []
    let bs : (P.coalesced o).Accounts := as.map fun a => a.bind F.account
    ∀ (n : Nat) (a : Account Q.toService) (b : Booking o P) (key : K) (failure : Failure),
      as[n]? = some (some a) →
      F.account a = some b → b.key? = some key → b.dropped = false →
      b.Brings (.error failure) →
        a.progress =
            .done (answer (if boarded bs b.flight = 0 then failure else .shared failure)) ∧
          (∀ (m : Nat) (a' : Account Q.toService) (b' : Booking o P), as[m]? = some (some a') →
            F.account a' = some b' → b'.joined? = some b.flight →
              a.progress = .done (answer (.shared failure)) ∧
              (∀ got, a'.progress = .done got → got = answer (.shared failure)) ∧
              (∀ call, a'.call? = some call →
                (Q.poll t.now call t.state).value = .done (answer (.shared failure)))) ∧
          ((answer (.shared failure) : Answer Q.Body) = answer failure ↔
            failure.isRefusal = false) := by
  intro Q F t as bs n a b key failure ha hb hkey hkept hbrings
  obtain ⟨hm, hbehind⟩ := manifest_behind o P now s moves
  have hcalls : Pipeline.Accounted as t :=
    Pipeline.accounted_run (Pipeline.accounted_quiet now _) moves
  have htold : ∀ (m : Nat) (a : Account Q.toService) (b : Booking o P), as[m]? = some (some a) →
      F.account a = some b → bs[m]? = some (some b) := by
    intro m a b ha hb
    rw [List.getElem?_map, ha]
    exact congrArg some hb
  have hleader : Leader bs n b key := ⟨htold n a b ha hb, hkey⟩
  refine ⟨?_, ?_, answer_shared_iff failure⟩
  · exact progress_failed hb (hm.leader_fails hleader hkept hbrings)
  · intro m a' b' ha' hb' hjoined
    obtain ⟨hfails, hfate⟩ :=
      hm.waiter_fails hleader hkept hbrings (htold m a' b' ha' hb') hjoined
    refine ⟨progress_failed hb hfails, ?_, ?_⟩
    · intro got hgot
      have hshows := Front.account_shows (clear (P.coalesced o)) hb'
      rw [hgot] at hshows
      obtain ⟨got', hgot'⟩ := hshows.ended
      have hsame := hm.served_fate (htold m a' b' ha' hb') hjoined hgot' hleader
      rw [hfate] at hsame
      cases hsame
      have hrendered := progress_failed hb' hgot'
      rw [hgot] at hrendered
      exact Progress.done.inj hrendered
    · intro call hcall
      obtain ⟨waiting, rfl, hwaiting⟩ := call?_behind hcalls hbehind ha' hb' hcall
      have hpoll := hm.poll_waiter (htold m a' b' ha' hb') hjoined hwaiting hleader
      rw [hfate] at hpoll
      exact poll_failed hpoll

/-- A call that has joined a leader whose handler is down is answered by its next poll, like
    the leader. -/
theorem both_answered_when_down :
    let r : Http.Request := ⟨"GET", ⟨"/", none⟩, [], none, none⟩
    let down : Failure := .message "down"
    let Q := (Handler.pipeline.coalesced (CoalescerSpec.options {})).rendered
    let t := Q.run (Q.quiet 0 ⟨none, ⟨.none, .fresh⟩⟩)
      [.call r ⟨"a", some (.error down)⟩, .call r ⟨"b", none⟩, .poll 0]
    (Q.poll t.now (.passed (.waiting 0)) t.state).value = .done (answer down) := by
  intro r down Q t
  let o := CoalescerSpec.options {}
  let first := Q.quiet 0 ⟨none, ⟨.none, .fresh⟩⟩
  let later := Q.run first [.call r ⟨"a", some (.error down)⟩]
  let a : Account Q.toService := ⟨0, r, ⟨"a", some (.error down)⟩, first.state,
    [(0, (Q.step later (.call r ⟨"b", none⟩)).state)], false⟩
  let b : Account Q.toService := ⟨0, r, ⟨"b", none⟩, later.state, [], false⟩
  have hbrings : Booking.Brings (o := o) (P := Handler.pipeline) (a.within Layered.inner)
      (.error down) := ⟨[], _, _, rfl, rfl, rfl⟩
  obtain ⟨_, hwaiters, hsame⟩ := failure_answered_alike o Handler.pipeline 0 .fresh
    [.call r ⟨"a", some (.error down)⟩, .call r ⟨"b", none⟩, .poll 0] 0 a _ _ down rfl rfl rfl rfl
    hbrings
  rw [← hsame.mpr rfl]
  exact (hwaiters 1 b _ rfl rfl rfl).2.2 _ rfl

/-- A handler that refuses for its own part is not understood when its refusal is shared. -/
theorem refusal_lost_when_shared :
    let r : Http.Request := ⟨"GET", ⟨"/", none⟩, [], none, none⟩
    let refusal : Failure := .rateLimited "c" (some (Duration.ofSeconds 2))
    let Q := (Handler.pipeline.coalesced (CoalescerSpec.options {})).rendered
    let answers (moves : List (Move Errand Handler)) :=
      (Q.accounts (Q.quiet 0 ⟨none, ⟨.none, .fresh⟩⟩) moves []).map fun a =>
        match a.map Account.progress with
        | some (.done (.ok r)) => (r.head.status, r.head.headers.values "retry-after")
        | _ => (0, [])
    answers [.call r ⟨"a", some (.error refusal)⟩, .poll 0] = [(429, [Http.utf8 "2"])] ∧
      answers [.call r ⟨"a", some (.error refusal)⟩, .call r ⟨"b", none⟩, .poll 0, .poll 1] =
        [(500, []), (500, [])] := by
  decide +kernel

end Rendered

end Floodgate
