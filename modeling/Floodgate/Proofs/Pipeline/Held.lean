/-
  Floodgate/Proofs/Pipeline/Held.lean
  ===================================
  **Failures that are held.**  The stage that renders failures is asked whether it is
  ready, is called and is copied in any order, and what is behind it may fail whenever it
  is asked.  Its callers keep a diary for every copy (`Instance`): what they did, and
  what the stage asked of the service behind it meanwhile.

  `Owes` says by the diary alone that a failure is still to be answered, `Entry.InOrder`
  what may then be written next, and `Renders` which response a failure is answered with:
  the one of its kind, whatever the stage does.  `held_failure_answers_next` says that
  every diary reads like that.  A failure answers the next call, which goes no further;
  until then the service is not asked again.  All else goes through, once.  A copy starts
  a diary of its own and owes nothing.

  The service behind the stage is watched (`Attended`), which changes nothing
  (`Attended.ready_eq`, `Attended.unlisted_run`).  What copies share with each other changes
  by what the others do, so everything behind a copy may change between two of its moves
  (`Use.stir`).
-/
import Floodgate.Proofs.Pipeline.Executions
import Floodgate.Proofs.Pipeline.SharedFailure

namespace Floodgate

open Http (Replay Request Response)

/-! ### What the stage does -/

/-- The failure that a service was found in. -/
def Readiness.failure? : Readiness → Option Failure
  | .failed f => some f
  | _ => none

namespace Rendered

/-- What callers are told of how the service was found. -/
def said : Readiness → Readiness
  | .failed _ => .ready
  | found => found

/-- The response that a failure gets, by what kind of rejection it is. -/
structure Renders (f : Failure) (r : Response Replay) : Prop where
  head : r.head = (Rejection.ofFailure f).answer.head
  body : r.body = .ofBytes (Rejection.ofFailure f).answer.body

theorem renders_response (f : Failure) : Renders f (response f) := ⟨rfl, rfl⟩

/-- Clients are told that they ask too often, that the service is unavailable, or that it
    failed. -/
theorem status_of_renders (f : Failure) (r : Response Replay) :
    Renders f r → r.head.status =
      match f with
      | .rateLimited .. => 429
      | .circuitOpen _ => 503
      | .leaderCancelled => 503
      | _ => 500 := by
  intro h
  rw [h.head]
  rcases f with ⟨client, _ | wait⟩ | _ | _ | _ | _ | _ | _ <;> rfl

/-- What a call shows that was passed on, by what it has come to behind the stage. -/
inductive Shows {κ β : Type} : Progress κ β → Progress (Call κ) (Relayed β) → Prop where
  | pending (call : κ) : Shows (.pending call) (.pending (.passed call))
  | succeeded (r : Response β) :
    Shows (.done (.ok r)) (.done (.ok (r.withBody (.passed r.body))))
  | failed {f : Failure} {r : Response Replay} (h : Renders f r) :
    Shows (.done (.error f)) (.done (.ok (r.withBody (.own r.body))))

theorem said_ne_failed (found : Readiness) (f : Failure) : said found ≠ .failed f := by
  rcases found with _ | _ | f' <;> nofun

theorem Shows.ne_error {κ β : Type} {behind : Progress κ β}
    {shown : Progress (Call κ) (Relayed β)} (h : Shows behind shown) (f : Failure) :
    shown ≠ .done (.error f) := by
  rcases h with _ | _ | _ <;> nofun

variable {π : Type} (S : Service π)

/-- A stage that holds nothing asks the service, and holds what that fails with. -/
theorem ready_free (inner : S.State) :
    ready S ⟨none, inner⟩ =
      (said (S.ready inner).1, ⟨(S.ready inner).1.failure?, (S.ready inner).2⟩) := by
  simp only [ready]
  rcases S.ready inner with ⟨_ | _ | f, after⟩ <;> rfl

theorem poll_passed (now : Instant) (call : S.Call) (s : (service S).State) :
    Shows (S.poll now call s.inner).value ((service S).poll now (.passed call) s).value := by
  show Shows _ (poll S now (.passed call) s).value
  simp only [poll]
  rcases (S.poll now call s.inner).value with next | (f | r)
  · exact .pending next
  · exact .failed (renders_response f)
  · exact .succeeded r

/-- **No call fails.** -/
theorem poll_ne_error (now : Instant) (c : (service S).Call) (s : (service S).State)
    (f : Failure) : ((service S).poll now c s).value ≠ .done (.error f) := by
  rcases c with r | call
  · nofun
  · exact (poll_passed S now call s).ne_error f

theorem course_passed (call : S.Call) (moments : List (Instant × (service S).State)) :
    Shows (S.course call (inside Layered.inner moments))
      ((service S).course (.passed call) moments) := by
  cases h : S.course call (inside Layered.inner moments) with
  | pending next =>
    rw [Service.course_awaiting awaits_passed h]
    exact .pending next
  | done a =>
    rcases a with f | r
    · rw [course_failed h]
      exact .failed (renders_response f)
    · have hdone : ∀ now call (s : (service S).State), (S.poll now call s.inner).value =
          .done (.ok r) → ((service S).poll now (.passed call) s).value =
            .done (.ok (r.withBody (.passed r.body))) := by
        intro now call s hdone
        show (poll S now (.passed call) s).value = _
        simp only [poll, hdone]
        rfl
      rw [Service.course_answered awaits_passed hdone h]
      exact .succeeded r

/-- A call that the stage answers itself is answered with the same whenever it is polled. -/
theorem course_answered (r : Response Replay) (m : Instant × (service S).State)
    (moments : List (Instant × (service S).State)) :
    (service S).course (.answered r) (m :: moments) = .done (.ok (r.withBody (.own r.body))) :=
  rfl

end Rendered

/-! ### What is asked of a service -/

inductive Contact (π κ : Type) where
  /-- It was asked whether it is ready. -/
  | asked (found : Readiness)
  /-- It was called, and this is the call. -/
  | called (r : Request) (p : π) (call : κ)

def Contact.failure? {π κ : Type} : Contact π κ → Option Failure
  | .asked found => found.failure?
  | .called .. => none

namespace Attended

variable {π : Type} (S : Service π)

def ready (s : Layered (List (Contact π S.Call)) S.State) :
    Readiness × Layered (List (Contact π S.Call)) S.State :=
  let r := S.ready s.inner
  (r.1, ⟨s.own ++ [.asked r.1], r.2⟩)

def start (now : Instant) (r : Request) (p : π)
    (s : Layered (List (Contact π S.Call)) S.State) :
    Step (Layered (List (Contact π S.Call)) S.State) S.Call :=
  let started := S.start now r p s.inner
  started.under (s.own ++ [.called r p started.value])

/-- A service that keeps a list of what is asked of it. -/
def service : Service π where
  State := Layered (List (Contact π S.Call)) S.State
  Call := S.Call
  Body := S.Body
  ready := ready S
  start := start S
  poll now c s := (S.poll now c s.inner).under s.own
  abandon c s := ⟨s.own, S.abandon c s.inner⟩
  pull b s := (S.pull b s.inner).under s.own
  hint := S.hint
  ended := S.ended
  size := S.size
  pull_shrinks b s := S.pull_shrinks b s.inner

end Attended

/-- A pipeline that keeps a list of what is asked of it. -/
def Pipeline.attended {π η : Type} (P : Pipeline π η) : Pipeline π η where
  toService := Attended.service P.toService
  core s := P.core s.inner
  withCore h s := ⟨s.own, P.withCore h s.inner⟩
  obey now order s := P.obeyThrough now order ⟨.none, s.own, []⟩ s.inner
  due now s := P.due now s.inner
  views s := P.views s.inner

namespace Attended

theorem awaits {π : Type} (S : Service π) : Service.Awaits (service S) S id Layered.inner := by
  intro now call s next hnext
  exact hnext

theorem course_eq {π : Type} (S : Service π) (call : S.Call)
    (moments : List (Instant × (service S).State)) :
    (service S).course call moments = S.course call (inside Layered.inner moments) := by
  cases h : S.course call (inside Layered.inner moments) with
  | pending next => exact Service.course_awaiting (awaits S) h
  | done a =>
    refine Service.course_answered (awaits S) ?_ h
    intro now call s hdone
    exact hdone

variable {π η : Type} (P : Pipeline π η)

/-- The stage around a service that is watched is as ready as it is around the service. -/
theorem ready_eq (s : P.attended.rendered.State) :
    let asked := P.attended.rendered.ready s
    (asked.1, Layered.mk asked.2.own asked.2.inner.inner) =
      P.rendered.ready ⟨s.own, s.inner.inner⟩ := by
  intro asked
  rcases s with ⟨_ | f, contacts, inner⟩
  · have hasked : asked = _ := Rendered.ready_free (service P.toService) ⟨contacts, inner⟩
    rw [hasked]
    exact (Rendered.ready_free P.toService inner).symm
  · rfl

/-- The stage around a service that is watched does what it does around the service. -/
def front : Front P.attended.rendered P.rendered where
  state s := ⟨s.own, s.inner.inner⟩
  call c := some c
  body b := some b
  asks _ := true
  ready_eq s := congrArg Prod.snd (ready_eq P s)
  start_cases now r p s := by
    rcases s with ⟨_ | f, contacts, inner⟩ <;> exact .inr ⟨rfl, rfl⟩
  poll_none _ _ _ h := by cases h
  poll_some now c s i h := by
    cases h
    rcases c with r | call
    · exact ⟨rfl, rfl⟩
    · show Layered.mk (Rendered.poll (service P.toService) now (.passed call) s).state.own
          (Rendered.poll (service P.toService) now (.passed call) s).state.inner.inner =
          (Rendered.poll P.toService now (.passed call) ⟨s.own, s.inner.inner⟩).state ∧
        Slot.behind _ _
          (Slot.ofProgress (Rendered.poll (service P.toService) now (.passed call) s).value) =
        .ofProgress (Rendered.poll P.toService now (.passed call) ⟨s.own, s.inner.inner⟩).value
      simp only [Rendered.poll, service, Step.under, Step.into]
      rcases (P.poll now call s.inner.inner).value with next | (f | r)
      · exact ⟨rfl, rfl⟩
      · exact ⟨rfl, rfl⟩
      · exact ⟨rfl, rfl⟩
  abandon_none _ _ h := by cases h
  abandon_some c s _ h := by
    cases h
    rcases c with r | call <;> rfl
  pull_none _ _ h := by cases h
  pull_some b s i h := by
    cases h
    rcases b with r | body <;> exact ⟨rfl, rfl⟩
  obey_eq now o s := by cases o <;> rfl
  core_eq _ _ := rfl

/-- The callers without the list. -/
def unlisted {P : Pipeline π η} (t : P.attended.rendered.Callers) : P.rendered.Callers :=
  ⟨t.now, ⟨t.state.own, t.state.inner.inner⟩, t.slots⟩

theorem behind_eq_unlisted (t : P.attended.rendered.Callers) :
    (front P).behind t = unlisted t := by
  have hslot : (front P).slot = id := by
    funext slot
    rcases slot with call | body | _ <;> rfl
  show Traffic.mk t.now _ (t.slots.map (front P).slot) = unlisted t
  rw [hslot]
  exact congrArg (Traffic.mk t.now _) (List.map_id t.slots)

/-- **The list changes nothing**: without it every run is the same run. -/
theorem unlisted_run (t : P.attended.rendered.Callers) (moves : List (Move π η)) :
    unlisted (P.attended.rendered.run t moves) = P.rendered.run (unlisted t) moves := by
  rw [← behind_eq_unlisted, ← behind_eq_unlisted]
  apply Front.behind_run
  intro t m
  cases m <;> rfl

end Attended

/-! ### Diaries -/

namespace Rendered

inductive Deed (π κ : Type) where
  /-- The stage was asked whether it is ready, and said this. -/
  | asked (answer : Readiness)
  | called (r : Request) (p : π) (call : Call κ)
  /-- Calls were polled or given up, time passed, and the like. -/
  | other

/-- The response to a call that the stage answers itself. -/
def Deed.answer? {π κ : Type} : Deed π κ → Option (Response Replay)
  | .called _ _ (.answered r) => some r
  | _ => none

/-- What was done, and what the stage asked meanwhile of the service behind it. -/
structure Entry (π κ : Type) where
  deed : Deed π κ
  contacts : List (Contact π κ)

namespace Entry

variable {π κ : Type}

def IsCall (e : Entry π κ) : Prop := ∃ r p call, e.deed = .called r p call

/-- The failures that the service was found in. -/
def failures (e : Entry π κ) : List Failure := e.contacts.filterMap Contact.failure?

@[simp] theorem failures_nil (deed : Deed π κ) : failures ⟨deed, []⟩ = [] := rfl

@[simp] theorem failures_asked (deed : Deed π κ) (found : Readiness) :
    failures ⟨deed, [.asked found]⟩ = found.failure?.toList := by
  rcases found with _ | _ | f <;> rfl

@[simp] theorem failures_called (deed : Deed π κ) (r : Request) (p : π) (call : κ) :
    failures ⟨deed, [.called r p call]⟩ = [] := rfl

end Entry

section

variable {π κ : Type} {diary : List (Entry π κ)} {e : Entry π κ} {f : Failure}

/-- The service was found in this failure, and there has been no call since. -/
def Owes (diary : List (Entry π κ)) (f : Failure) : Prop :=
  ∃ earlier e later, diary = earlier ++ e :: later ∧ f ∈ e.failures ∧ ∀ e' ∈ later, ¬ e'.IsCall

theorem not_owes_nil (f : Failure) : ¬ Owes ([] : List (Entry π κ)) f := by
  rintro ⟨earlier, e, later, hdiary, -⟩
  simp at hdiary

theorem owes_concat : Owes (diary ++ [e]) f ↔ f ∈ e.failures ∨ (Owes diary f ∧ ¬ e.IsCall) := by
  constructor
  · rintro ⟨earlier, e', later, hdiary, hfound, hlater⟩
    -- the entry with the failure is the last one, or stands before that
    rcases List.eq_nil_or_concat' later with rfl | ⟨later, last, rfl⟩
    · obtain ⟨rfl, hlast⟩ := List.append_inj' hdiary rfl
      obtain rfl := List.singleton_inj.mp hlast
      exact .inl hfound
    · rw [← List.cons_append, ← List.append_assoc] at hdiary
      obtain ⟨rfl, hlast⟩ := List.append_inj' hdiary rfl
      obtain rfl := List.singleton_inj.mp hlast
      refine .inr ⟨⟨earlier, e', later, rfl, hfound, ?_⟩, hlater e (by simp)⟩
      intro e'' he''
      exact hlater e'' (by simp [he''])
  · rintro (hfound | ⟨⟨earlier, e', later, rfl, hfound, hlater⟩, hcall⟩)
    · exact ⟨diary, e, [], rfl, hfound, nofun⟩
    · refine ⟨earlier, e', later ++ [e], by simp, hfound, ?_⟩
      intro e'' he''
      rcases List.mem_append.mp he'' with h | h
      · exact hlater e'' h
      · rwa [List.mem_singleton.mp h]

/-- What may follow in a diary.  As long as a failure is owed the service is left alone, and
    the next call is answered with it; otherwise everything is passed on, once. -/
inductive Entry.InOrder (earlier : List (Entry π κ)) : Entry π κ → Prop where
  | askedOwing {f : Failure} (h : Owes earlier f) : InOrder earlier ⟨.asked .ready, []⟩
  | asked (h : ∀ f, ¬ Owes earlier f) (found : Readiness) :
    InOrder earlier ⟨.asked (said found), [.asked found]⟩
  | calledOwing {f : Failure} (h : Owes earlier f) (r : Request) (p : π)
    {answer : Response Replay} (hanswer : Renders f answer) :
    InOrder earlier ⟨.called r p (.answered answer), []⟩
  | called (h : ∀ f, ¬ Owes earlier f) (r : Request) (p : π) (call : κ) :
    InOrder earlier ⟨.called r p (.passed call), [.called r p call]⟩
  | other : InOrder earlier ⟨.other, []⟩

theorem Entry.InOrder.no_failure {earlier : List (Entry π κ)}
    (h : e.InOrder earlier) (f : Failure) : e.deed ≠ .asked (.failed f) := by
  rcases h with _ | ⟨_, found⟩ | _ | _ | _
  · nofun
  · intro hdeed
    exact said_ne_failed found f (Deed.asked.inj hdeed)
  · nofun
  · nofun
  · nofun

/-- All failures that the service was found in, in order. -/
def failures (diary : List (Entry π κ)) : List Failure := diary.flatMap Entry.failures

/-- All responses with which the stage answered calls itself, in order. -/
def answers (diary : List (Entry π κ)) : List (Response Replay) :=
  diary.filterMap fun e => e.deed.answer?

/-! ### One entry after the other -/

/-- What the stage does, by the failure that it holds, and what it holds afterwards. -/
inductive Follows : Option Failure → Entry π κ → Option Failure → Prop where
  | askedHolding (f : Failure) : Follows (some f) ⟨.asked .ready, []⟩ (some f)
  | asked (found : Readiness) :
    Follows none ⟨.asked (said found), [.asked found]⟩ found.failure?
  | calledHolding (f : Failure) (r : Request) (p : π) :
    Follows (some f) ⟨.called r p (.answered (response f)), []⟩ none
  | called (r : Request) (p : π) (call : κ) :
    Follows none ⟨.called r p (.passed call), [.called r p call]⟩ none
  | other (held : Option Failure) : Follows held ⟨.other, []⟩ held

/-- A diary of a stage that holds this. -/
structure Kept (diary : List (Entry π κ)) (held : Option Failure) : Prop where
  owes : ∀ f, Owes diary f ↔ held = some f
  inOrder : ∀ (n : Nat) e, diary[n]? = some e → e.InOrder (diary.take n)
  balance : ∃ answered, failures diary = answered ++ held.toList ∧
    List.Forall₂ Renders answered (answers diary)

variable {held held' : Option Failure}

theorem kept_nil : Kept ([] : List (Entry π κ)) none where
  owes f := by simp [not_owes_nil]
  inOrder n e he := by simp at he
  balance := ⟨[], rfl, .nil⟩

theorem Kept.owes_follow (h : Kept diary held) (he : Follows held e held') (f : Failure) :
    Owes (diary ++ [e]) f ↔ held' = some f := by
  rw [owes_concat, h.owes]
  rcases he with _ | found | _ | _ | _
  · simp [Entry.IsCall]
  · simp
  · simp [Entry.IsCall]
  · simp
  · simp [Entry.IsCall]

theorem Kept.inOrder_follow (h : Kept diary held) (he : Follows held e held') :
    e.InOrder diary := by
  have hfree : held = none → ∀ f, ¬ Owes diary f := by
    intro hnone f
    rw [h.owes, hnone]
    nofun
  rcases he with f | found | ⟨f, r, p⟩ | ⟨r, p, call⟩ | _
  · exact .askedOwing ((h.owes f).mpr rfl)
  · exact .asked (hfree rfl) found
  · exact .calledOwing ((h.owes f).mpr rfl) r p (renders_response f)
  · exact .called (hfree rfl) r p call
  · exact .other

/-- What is answered is what was owed, so it leaves the one list and joins the other. -/
theorem Kept.balance_follow (h : Kept diary held) (he : Follows held e held') :
    ∃ answered, failures (diary ++ [e]) = answered ++ held'.toList ∧
      List.Forall₂ Renders answered (answers (diary ++ [e])) := by
  obtain ⟨answered, hfailures, hanswers⟩ := h.balance
  have hfound : failures (diary ++ [e]) = answered ++ held.toList ++ e.failures := by
    simp only [failures, List.flatMap_append, List.flatMap_cons, List.flatMap_nil,
      List.append_nil]
    exact congrArg (· ++ e.failures) hfailures
  have hmore : answers (diary ++ [e]) = answers diary ++ e.deed.answer?.toList := by
    rcases hanswer : e.deed.answer? with _ | r <;> simp [answers, hanswer]
  rw [hfound, hmore]
  rcases he with f | found | ⟨f, r, p⟩ | ⟨r, p, call⟩ | _
  · exact ⟨answered, by simp, by simpa [Deed.answer?] using hanswers⟩
  · exact ⟨answered, by simp, by simpa [Deed.answer?] using hanswers⟩
  · refine ⟨answered ++ [f], by simp, ?_⟩
    exact List.rel_append hanswers (.cons (renders_response f) .nil)
  · exact ⟨answered, by simp, by simpa [Deed.answer?] using hanswers⟩
  · exact ⟨answered, by simp, by simpa [Deed.answer?] using hanswers⟩

/-- **One entry more.** -/
theorem Kept.follow (h : Kept diary held) (he : Follows held e held') :
    Kept (diary ++ [e]) held' where
  owes := h.owes_follow he
  inOrder n e' he' := by
    rcases getElem?_concat_cases he' with ⟨rfl, rfl⟩ | ⟨hn, hold⟩
    · rw [List.take_left]
      exact h.inOrder_follow he
    · rw [List.take_append_of_le_length (Nat.le_of_lt hn)]
      exact h.inOrder n e' hold
  balance := h.balance_follow he

end

/-! ### Instances and their copies -/

variable {π η : Type}

/-- One of the copies of the stage, with its callers and their diary. -/
structure Instance (P : Pipeline π η) where
  callers : P.attended.rendered.Callers
  diary : List (Entry π P.Call)

namespace Instance

variable {P : Pipeline π η}

/-- The stage as it is put around a service. -/
def first (now : Instant) (s : P.State) : Instance P :=
  ⟨P.attended.rendered.quiet now ⟨none, ⟨[], s⟩⟩, []⟩

def held (i : Instance P) : Option Failure := i.callers.state.own

/-- All that the stage has asked of the service behind it. -/
def contacts (i : Instance P) : List (Contact π P.Call) := i.callers.state.inner.own

def deed (i : Instance P) : Move π η → Deed π P.Call
  | .ready => .asked (P.attended.rendered.ready i.callers.state).1
  | .call r p =>
    .called r p (P.attended.rendered.start i.callers.now r p i.callers.state).value
  | _ => .other

/-- The callers do something and write it down.  Those who go on with a copy start anew. -/
def act (i : Instance P) (m : Move π η) : Instance P :=
  let after := P.attended.rendered.step i.callers m
  let entry := ⟨i.deed m, after.state.inner.own.drop i.contacts.length⟩
  match m with
  | .order .clone => ⟨after, []⟩
  | _ => ⟨after, i.diary ++ [entry]⟩

/-- A copy; it has no callers yet. -/
def copy (i : Instance P) : Instance P :=
  let copied := P.attended.rendered.obey i.callers.now .clone i.callers.state
  ⟨P.attended.rendered.quiet i.callers.now copied.state, []⟩

/-- What is behind the stage changes. -/
def stir (change : P.State → P.State) (i : Instance P) : Instance P :=
  let s := i.callers.state
  ⟨{ i.callers with state := ⟨s.own, ⟨s.inner.own, change s.inner.inner⟩⟩ }, i.diary⟩

end Instance

/-- What can be done with the copies of the stage, which are numbered. -/
inductive Use (P : Pipeline π η) where
  | move (n : Nat) (m : Move π η)
  | clone (n : Nat)
  | stir (n : Nat) (change : P.State → P.State)

/-- All copies after something was done. -/
def use {P : Pipeline π η} (copies : List (Instance P)) : Use P → List (Instance P)
  | .move n m => copies.modify n fun i => i.act m
  | .clone n => copies ++ (copies[n]?.map Instance.copy).toList
  | .stir n change => copies.modify n (Instance.stir change)

/-! ### One move -/

section

variable {P : Pipeline π η}

/-- Nothing was asked of the service, and the stage holds what it held. -/
def Unmoved (s s' : P.attended.rendered.State) : Prop :=
  s'.own = s.own ∧ s'.inner.own = s.inner.own

theorem unmoved_poll (now : Instant) (c : P.attended.rendered.Call)
    (s : P.attended.rendered.State) : Unmoved s (P.attended.rendered.poll now c s).state := by
  rcases c with r | call
  · exact ⟨rfl, rfl⟩
  · show Unmoved s (Rendered.poll P.attended.toService now (.passed call) s).state
    simp only [Rendered.poll]
    rcases (P.attended.poll now call s.inner).value with next | (f | r)
    · exact ⟨rfl, rfl⟩
    · exact ⟨rfl, rfl⟩
    · exact ⟨rfl, rfl⟩

theorem unmoved_abandon (c : P.attended.rendered.Call) (s : P.attended.rendered.State) :
    Unmoved s (P.attended.rendered.abandon c s) := by
  rcases c with r | call <;> exact ⟨rfl, rfl⟩

theorem unmoved_pull (b : P.attended.rendered.Body) (s : P.attended.rendered.State) :
    Unmoved s (P.attended.rendered.pull b s).state := by
  rcases b with r | body <;> exact ⟨rfl, rfl⟩

variable (t : P.attended.rendered.Callers) (n : Nat)

theorem unmoved_stepPoll : Unmoved t.state (P.attended.rendered.stepPoll t n).state := by
  rcases Pipeline.stepPoll_cases t n with ⟨-, hidle⟩ | ⟨call, -, hpoll⟩
  · rw [hidle]
    exact ⟨rfl, rfl⟩
  · rw [hpoll]
    exact unmoved_poll t.now call t.state

theorem unmoved_stepDrop : Unmoved t.state (P.attended.rendered.stepDrop t n).state := by
  rcases Pipeline.stepDrop_cases t n with ⟨-, hidle⟩ | ⟨call, -, hdrop⟩ | ⟨body, -, hdrop⟩
  · rw [hidle]
    exact ⟨rfl, rfl⟩
  · rw [hdrop]
    exact unmoved_abandon call t.state
  · rw [hdrop]
    exact ⟨rfl, rfl⟩

theorem unmoved_stepPull : Unmoved t.state (P.attended.rendered.stepPull t n).state := by
  rcases Pipeline.stepPull_cases t n with ⟨-, hidle⟩ | ⟨body, -, hpull⟩
  · rw [hidle]
    exact ⟨rfl, rfl⟩
  · rw [hpull]
    exact unmoved_pull body t.state

end

namespace Instance

variable {P : Pipeline π η} {i : Instance P}

/-- What is written down after a move that asks nothing of the service. -/
theorem act_unmoved {m : Move π η} {after : P.attended.rendered.Callers}
    (hact : i.act m =
      ⟨after, i.diary ++ [⟨.other, after.state.inner.own.drop i.contacts.length⟩]⟩)
    (hsame : Unmoved i.callers.state after.state) :
    ∃ e, (i.act m).diary = i.diary ++ [e] ∧ Follows i.held e (i.act m).held := by
  obtain ⟨hheld, hcontacts⟩ := hsame
  have hheld : (i.act m).held = i.held := by
    rw [hact]
    exact hheld
  refine ⟨⟨.other, []⟩, ?_, ?_⟩
  · rw [hact, hcontacts]
    show _ ++ [(⟨_, i.contacts.drop i.contacts.length⟩ : Entry π P.Call)] = _
    rw [List.drop_length]
  · rw [hheld]
    exact .other i.held

theorem act_ready (i : Instance P) :
    ∃ e, (i.act .ready).diary = i.diary ++ [e] ∧ Follows i.held e (i.act .ready).held := by
  rcases i with ⟨⟨now, ⟨_ | f, contacts, inner⟩, slots⟩, diary⟩
  · let found := (P.ready inner).1
    let asked := P.attended.rendered.ready ⟨none, ⟨contacts, inner⟩⟩
    have hasked : asked = (said found,
        ⟨found.failure?, ⟨contacts ++ [.asked found], (P.ready inner).2⟩⟩) :=
      ready_free P.attended.toService ⟨contacts, inner⟩
    refine ⟨⟨.asked (said found), [.asked found]⟩, ?_, ?_⟩
    · show diary ++
        [(⟨.asked asked.1, asked.2.inner.own.drop contacts.length⟩ : Entry π P.Call)] = _
      rw [hasked]
      dsimp only
      rw [List.drop_left]
    · show Follows none _ asked.2.own
      rw [hasked]
      exact .asked found
  · refine ⟨⟨.asked .ready, []⟩, ?_, .askedHolding f⟩
    show diary ++ [(⟨.asked .ready, contacts.drop contacts.length⟩ : Entry π P.Call)] = _
    rw [List.drop_length]

theorem act_call (i : Instance P) (r : Request) (p : π) :
    ∃ e, (i.act (.call r p)).diary = i.diary ++ [e] ∧
      Follows i.held e (i.act (.call r p)).held := by
  rcases i with ⟨⟨now, ⟨_ | f, contacts, inner⟩, slots⟩, diary⟩
  · let call := (P.start now r p inner).value
    refine ⟨⟨.called r p (.passed call), [.called r p call]⟩, ?_, .called r p call⟩
    show diary ++ [(⟨.called r p (.passed call),
      (contacts ++ [Contact.called r p call]).drop contacts.length⟩ : Entry π P.Call)] = _
    rw [List.drop_left]
  · refine ⟨⟨.called r p (.answered (response f)), []⟩, ?_, .calledHolding f r p⟩
    show diary ++ [(⟨.called r p (.answered (response f)), contacts.drop contacts.length⟩ :
      Entry π P.Call)] = _
    rw [List.drop_length]

/-- **What a move comes to.**  It is written down, unless the callers go on with a copy. -/
theorem act_cases (i : Instance P) (m : Move π η) :
    ((i.act m).diary = [] ∧ (i.act m).held = none) ∨
      ∃ e, (i.act m).diary = i.diary ++ [e] ∧ Follows i.held e (i.act m).held := by
  rcases m with _ | ⟨r, p⟩ | _ | n | n | n | d | o | change
  · exact .inr i.act_ready
  · exact .inr (i.act_call r p)
  · exact .inr (act_unmoved rfl ⟨rfl, rfl⟩)
  · exact .inr (act_unmoved rfl (unmoved_stepPoll i.callers n))
  · exact .inr (act_unmoved rfl (unmoved_stepDrop i.callers n))
  · exact .inr (act_unmoved rfl (unmoved_stepPull i.callers n))
  · exact .inr (act_unmoved rfl ⟨rfl, rfl⟩)
  -- copying is the only order that reaches what the stage holds
  · rcases o with _ | x | _ | _ | time | order
    · exact .inl ⟨rfl, rfl⟩
    · exact .inr (act_unmoved rfl ⟨rfl, rfl⟩)
    · exact .inr (act_unmoved rfl ⟨rfl, rfl⟩)
    · exact .inr (act_unmoved rfl ⟨rfl, rfl⟩)
    · exact .inr (act_unmoved rfl ⟨rfl, rfl⟩)
    · exact .inr (act_unmoved rfl ⟨rfl, rfl⟩)
  · exact .inr (act_unmoved rfl ⟨rfl, rfl⟩)

/-- The diary is one of a stage that holds what this one holds. -/
def Regular (i : Instance P) : Prop := Kept i.diary i.held

theorem regular_first (now : Instant) (s : P.State) : Regular (first now s : Instance P) :=
  kept_nil

theorem regular_copy (i : Instance P) : i.copy.Regular := kept_nil

theorem Regular.act (h : i.Regular) (m : Move π η) : (i.act m).Regular := by
  rcases i.act_cases m with ⟨hdiary, hheld⟩ | ⟨e, hdiary, he⟩
  · rw [Regular, hdiary, hheld]
    exact kept_nil
  · rw [Regular, hdiary]
    exact h.follow he

theorem Regular.stir (h : i.Regular) (change : P.State → P.State) : (i.stir change).Regular := h

end Instance

/-! ### Runs -/

section

variable {P : Pipeline π η} {copies : List (Instance P)}

theorem forall_mem_modify {α : Type} {p : α → Prop} {f : α → α} {l : List α}
    (hf : ∀ a, p a → p (f a)) (h : ∀ a ∈ l, p a) (n : Nat) : ∀ a ∈ l.modify n f, p a := by
  intro a ha
  obtain ⟨k, hk⟩ := List.getElem?_of_mem ha
  rw [List.getElem?_modify] at hk
  obtain ⟨b, hb, rfl⟩ := Option.map_eq_some_iff.mp hk
  have hp := h b (List.mem_of_getElem? hb)
  split
  · exact hf b hp
  · exact hp

theorem regular_use (h : ∀ i ∈ copies, i.Regular) (u : Use P) :
    ∀ i ∈ use copies u, i.Regular := by
  rcases u with ⟨n, m⟩ | n | ⟨n, change⟩
  · exact forall_mem_modify (fun _ hi => hi.act m) h n
  · intro i hi
    rcases List.mem_append.mp hi with hold | hnew
    · exact h i hold
    · obtain ⟨original, -, rfl⟩ := Option.map_eq_some_iff.mp (Option.mem_toList.mp hnew)
      exact original.regular_copy
  · exact forall_mem_modify (fun _ hi => hi.stir change) h n

/-- **What everything that can be done keeps is kept by all copies.** -/
theorem regular_uses (h : ∀ i ∈ copies, i.Regular) (uses : List (Use P)) :
    ∀ i ∈ uses.foldl use copies, i.Regular := by
  induction uses generalizing copies with
  | nil => exact h
  | cons u uses ih => exact ih (regular_use h u)

end

/-! ### All runs -/

/-- **A failure that is held answers the next call of those who hold it, and no other.**

    Of every copy there is a diary, and everything in it follows on what stands before it.
    At most one failure is owed at any time.  All others that were found have answered a call
    each, in the order in which they were found, with the response and the status of their kind.
    A copy that is made owes nothing, and making it changes nothing for the others.

    A call that is answered with a failure is so whenever it is polled, and one that was passed
    on comes to what the service makes of it.  Neither fails.  All of this is so for those who
    keep no list of what is asked of the service. -/
theorem held_failure_answers_next (P : Pipeline π η) (now : Instant) (s : P.State)
    (uses : List (Use P)) :
    let Q := P.attended.rendered
    let copies := uses.foldl use [Instance.first now s]
    (∀ i ∈ copies,
      (∀ (n : Nat) e, i.diary[n]? = some e → e.InOrder (i.diary.take n)) ∧
      (∀ e ∈ i.diary, ∀ f, e.deed ≠ .asked (.failed f)) ∧
      ∃ answered owed, (∀ f, Owes i.diary f ↔ owed = some f) ∧
        failures i.diary = answered ++ owed.toList ∧
        List.Forall₂ Renders answered (answers i.diary)) ∧
    (∀ f r, Renders f r → r.head.status = match f with
      | .rateLimited .. => 429
      | .circuitOpen _ => 503
      | .leaderCancelled => 503
      | _ => 500) ∧
    (∀ (n : Nat) i, copies[n]? = some i →
      use copies (.clone n) = copies ++ [i.copy] ∧ i.copy.diary = [] ∧ i.copy.held = none) ∧
    (∀ now c s f, (Q.poll now c s).value ≠ .done (.error f)) ∧
    (∀ r m moments,
      Q.course (.answered r) (m :: moments) = .done (.ok (r.withBody (.own r.body)))) ∧
    (∀ call moments, Shows (P.course call (inside (fun s => s.inner.inner) moments))
      (Q.course (.passed call) moments)) ∧
    (∀ s, let asked := Q.ready s
      (asked.1, Layered.mk asked.2.own asked.2.inner.inner) =
        P.rendered.ready ⟨s.own, s.inner.inner⟩) ∧
    ∀ t moves, Attended.unlisted (Q.run t moves) = P.rendered.run (Attended.unlisted t) moves := by
  intro Q copies
  have hregular : ∀ i ∈ copies, i.Regular := by
    apply regular_uses
    intro i hi
    rw [List.mem_singleton.mp hi]
    exact Instance.regular_first now s
  refine ⟨?_, status_of_renders, ?_, poll_ne_error P.attended.toService,
    course_answered P.attended.toService, ?_, Attended.ready_eq P, Attended.unlisted_run P⟩
  · intro i hi
    have h := hregular i hi
    obtain ⟨answered, hfailures, hanswers⟩ := h.balance
    refine ⟨h.inOrder, ?_, answered, i.held, h.owes, hfailures, hanswers⟩
    intro e he
    obtain ⟨n, hn⟩ := List.getElem?_of_mem he
    exact (h.inOrder n e hn).no_failure
  · intro n i hi
    refine ⟨?_, rfl, rfl⟩
    show copies ++ (copies[n]?.map Instance.copy).toList = _
    rw [hi]
    rfl
  · intro call moments
    have hinside := inside_inside Layered.inner Layered.inner moments
    have hwatched : P.attended.course call (inside Layered.inner moments) =
        P.course call (inside (fun s => s.inner.inner) moments) :=
      (Attended.course_eq P.toService call _).trans (congrArg (P.course call) hinside)
    rw [← hwatched]
    exact course_passed P.attended.toService call moments

/-- The original has found the handler down.  It answers one call with that; its copy goes to
    the handler, and so does the original afterwards. -/
example :
    let r : Request := ⟨"GET", ⟨"/", none⟩, [], none, none⟩
    let errand : Errand := ⟨"a", none⟩
    let down (h : Handler) : Handler := { h with readiness := .failed (.message "down") }
    let up (h : Handler) : Handler := { h with readiness := .ready }
    let uses : List (Use Handler.pipeline) :=
      [.stir 0 down, .move 0 .ready, .clone 0, .stir 0 up, .stir 1 up, .move 0 .ready,
        .move 1 .ready, .move 1 (.call r errand), .move 0 (.call r errand),
        .move 0 (.call r errand)]
    (uses.foldl use [Instance.first 0 Handler.fresh]).map (fun i =>
        (i.diary.map fun e => e.contacts.length, (answers i.diary).map fun r => r.head.status)) =
      [([1, 0, 0, 1], [500]), ([1, 1], [])] := by
  decide +kernel

end Rendered

end Floodgate
