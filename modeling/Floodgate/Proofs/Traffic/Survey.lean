/-
  Floodgate/Proofs/Traffic/Survey.lean
  ====================================
  **Accounts behind stages.**  A call that a stage has passed on is the same call behind
  it, made and polled at the same moments, and what it comes to there the caller is shown:
  a response with its head as it is, or something that the stage has made of a failure.
  The other calls the stage answers itself.

  `Front.Clear` says this of a single stage, of one poll.  A `Survey` is what follows for
  whole runs: the accounts behind the stages are those in front, one by one.
-/
import Floodgate.Proofs.Traffic.Shell

namespace Floodgate

open Http (Response)

/-- What a caller sees of what a call has come to behind some stages. -/
inductive Shows {κ κ' β β' : Type} (wrap : β' → β) (made : Answer β → Prop) :
    Progress κ β → Progress κ' β' → Prop where
  | pending (c : κ) (i : κ') : Shows wrap made (.pending c) (.pending i)
  | answered (r : Response β') :
    Shows wrap made (.done (.ok (r.withBody (wrap r.body)))) (.done (.ok r))
  | failed (answer : Answer β) (f : Failure) (h : made answer) :
    Shows wrap made (.done answer) (.done (.error f))

/-- A call that was answered has ended behind the stages as well. -/
theorem Shows.ended {κ κ' β β' : Type} {wrap : β' → β} {made : Answer β → Prop}
    {answer : Answer β} {y : Progress κ' β'}
    (h : Shows wrap made (.done answer : Progress κ β) y) : ∃ answer', y = .done answer' := by
  cases h with
  | answered r => exact ⟨.ok r, rfl⟩
  | failed _ f _ => exact ⟨.error f, rfl⟩

variable {π η : Type}

theorem map_modify {α β : Type} {f : α → α} {f' : β → β} {g : α → β}
    (h : ∀ a, g (f a) = f' (g a)) (l : List α) (n : Nat) :
    (l.modify n f).map g = (l.map g).modify n f' := by
  apply List.ext_getElem?
  intro k
  rw [List.getElem?_map, List.getElem?_modify, List.getElem?_modify, List.getElem?_map]
  cases l[k]? with
  | none => rfl
  | some a =>
    by_cases hk : n = k
    · simp [hk, h]
    · simp [hk]

/-! ### A single stage -/

namespace Front

variable {Q P : Pipeline π η}

/-- The stage answers at once what it keeps to itself, and shows what others answer. -/
structure Clear (F : Front Q P) (wrap : P.Body → Q.Body) (made : Answer Q.Body → Prop) :
    Prop where
  shows : ∀ now c s i, F.call c = some i →
    Shows wrap made (Q.poll now c s).value (P.poll now i (F.state s)).value
  keeps : ∀ now c s, F.call c = none → ∃ answer, (Q.poll now c s).value = .done answer ∧ made answer
  pull_eq : ∀ b s, (Q.pull (wrap b) s).value = (P.pull b (F.state s)).value.map wrap

variable {F : Front Q P} {wrap : P.Body → Q.Body} {made : Answer Q.Body → Prop}
  {moments : List (Instant × Q.State)} {c : Q.Call} {i : P.Call}

theorem course_shows (h : F.Clear wrap made) (hc : F.call c = some i) :
    Shows wrap made (Q.course c moments) (P.course i (inside F.state moments)) := by
  induction moments generalizing c i with
  | nil => exact .pending c i
  | cons m moments ih =>
    have hshows := h.shows m.1 c m.2 i hc
    have hslot := (F.poll_some m.1 c m.2 i hc).2
    simp only [inside, List.map_cons, Service.course]
    cases hq : (Q.poll m.1 c m.2).value with
    | pending c' =>
      cases hp : (P.poll m.1 i (F.state m.2)).value with
      | pending j =>
        rw [hq, hp] at hslot
        obtain ⟨c'', hc'', hcall⟩ := Slot.eq_calling_of_behind hslot
        cases hc''
        exact ih hcall
      | done answer =>
        rw [hq, hp] at hshows
        cases hshows
    | done answer =>
      cases hp : (P.poll m.1 i (F.state m.2)).value with
      | pending j =>
        rw [hq, hp] at hshows
        cases hshows
      | done answer' =>
        rw [hq, hp] at hshows
        exact hshows

theorem course_keeps (h : F.Clear wrap made) (hc : F.call c = none) {answer : Answer Q.Body}
    (hdone : Q.course c moments = .done answer) : made answer := by
  cases moments with
  | nil => cases hdone
  | cons m moments =>
    obtain ⟨answer', hpoll, hmade⟩ := h.keeps m.1 c m.2 hc
    simp only [Service.course, hpoll] at hdone
    cases hdone
    exact hmade

/-- The account behind the stage, of a call that was passed on. -/
def account (F : Front Q P) (a : Account Q.toService) : Option (Account P.toService) :=
  if (F.call a.opening).isSome then some (a.within F.state) else none

theorem of_account {a : Account Q.toService} {b : Account P.toService}
    (hb : F.account a = some b) : b = a.within F.state ∧ F.call a.opening = some b.opening :=
  Shell.of_account (A := F.shell) hb

theorem account_of_call {a : Account Q.toService} (F : Front Q P) (h : F.call a.opening = some i) :
    ∃ b, F.account a = some b ∧ b.opening = i := by
  have hb : F.account a = some (a.within F.state) := Shell.account_of_call (A := F.shell) h
  have hopening := (of_account hb).2
  rw [h, Option.some.injEq] at hopening
  exact ⟨_, hb, hopening.symm⟩

theorem account_of_call_none {a : Account Q.toService} (h : F.call a.opening = none) :
    F.account a = none :=
  Shell.account_of_call_none (A := F.shell) h

theorem account_shows (h : F.Clear wrap made) {a : Account Q.toService} {b : Account P.toService}
    (hb : F.account a = some b) : Shows wrap made a.progress b.progress := by
  obtain ⟨rfl, hcall⟩ := of_account hb
  exact course_shows h hcall

theorem account_keeps (h : F.Clear wrap made) {a : Account Q.toService}
    (hnone : F.account a = none) {answer : Answer Q.Body} (hdone : a.progress = .done answer) :
    made answer :=
  course_keeps h (Shell.call_of_account_none (A := F.shell) hnone) hdone

theorem account_of_opening {a a' : Account Q.toService} (h : a'.opening = a.opening) :
    F.account a' = (F.account a).map fun _ => a'.within F.state :=
  Shell.account_of_opening (A := F.shell) h

/-- Behind a stage a call is under way as long as it is in front. -/
theorem isSome_call? (h : F.Clear wrap made) {a : Account Q.toService} {b : Account P.toService}
    (hb : F.account a = some b) : b.call?.isSome = a.call?.isSome := by
  have hshows := account_shows h hb
  have hdropped : b.dropped = a.dropped := by
    rw [(of_account hb).1]
    rfl
  unfold Account.call?
  rw [hdropped]
  generalize a.progress = x at hshows ⊢
  generalize b.progress = y at hshows ⊢
  cases hshows <;> cases a.dropped <;> rfl

theorem account_polled (h : F.Clear wrap made) (a : Account Q.toService) (now : Instant)
    (s : Q.State) :
    F.account (a.polled now s) = (F.account a).map fun b => b.polled now (F.state s) := by
  rw [account_of_opening (a.extends_polled now s).opening]
  cases hb : F.account a with
  | none => rfl
  | some b =>
    have hsome := isSome_call? h hb
    obtain ⟨rfl, _⟩ := of_account hb
    simp only [Option.map_some, Account.polled, hsome]
    split
    · simp only [Account.within, inside, List.map_append, List.map_cons, List.map_nil]
    · rfl

theorem account_left (h : F.Clear wrap made) (a : Account Q.toService) :
    F.account a.left = (F.account a).map Account.left := by
  rw [account_of_opening a.extends_left.opening]
  cases hb : F.account a with
  | none => rfl
  | some b =>
    have hsome := isSome_call? h hb
    obtain ⟨rfl, _⟩ := of_account hb
    simp only [Option.map_some, Account.left, hsome]
    split <;> rfl

/-- **The accounts behind a stage are those in front of it**, of the calls it has passed on. -/
theorem accountsNext_behind (h : F.Clear wrap made) (t : Q.Callers) (m : Move π η)
    (as : Q.Accounts) :
    (Q.accountsNext t m as).map (fun a => a.bind F.account) =
      P.accountsNext (F.behind t) (F.inward t m) (as.map fun a => a.bind F.account) := by
  cases m with
  | call r p =>
    have hnew : F.account ⟨t.now, r, p, t.state, [], false⟩ =
        if (F.call (Q.start t.now r p t.state).value).isSome then
          some ⟨t.now, r, p, F.state t.state, [], false⟩
        else none := rfl
    simp only [Pipeline.accountsNext, List.map_append, List.map_cons, List.map_nil, inward,
      Option.bind_some, hnew]
    by_cases hcall : (F.call (Q.start t.now r p t.state).value).isSome = true
    · rw [if_pos hcall, if_pos hcall]
      rfl
    · rw [if_neg hcall, if_neg hcall]
  | skip =>
    simp only [Pipeline.accountsNext, inward, List.map_append, List.map_cons, List.map_nil,
      Option.bind_none]
  | poll n =>
    refine map_modify ?_ as n
    intro a
    cases a with
    | none => rfl
    | some a => exact account_polled h a t.now t.state
  | drop n =>
    refine map_modify ?_ as n
    intro a
    cases a with
    | none => rfl
    | some a => exact account_left h a
  | ready =>
    simp only [inward]
    split <;> rfl
  | pull n => rfl
  | advance d => rfl
  | order o => rfl
  | core change => rfl

end Front

/-! ### Several stages -/

/-- A passage and what there is to tell behind it. -/
structure Survey (Q P : Pipeline π η) extends Passage Q P where
  account : Account Q.toService → Option (Account P.toService)
  /-- A body that is passed on. -/
  wrap : P.Body → Q.Body
  /-- The answer was made by one of the stages. -/
  made : Answer Q.Body → Prop
  within : ∃ f : Q.State → P.State, ∀ a b, account a = some b → b = a.within f
  accountsNext : ∀ t m as, (Q.accountsNext t m as).map (fun a => a.bind account) =
    P.accountsNext (behind t) (inward t m) (as.map fun a => a.bind account)
  shows : ∀ a b, account a = some b → Shows wrap made a.progress b.progress
  keeps : ∀ a answer, account a = none → a.progress = .done answer → made answer
  gives : ∀ waits b x, P.Gives waits b x → Q.Gives waits (wrap b) x

/-- A single stage. -/
def Front.survey {Q P : Pipeline π η} (F : Front Q P) {wrap : P.Body → Q.Body}
    {made : Answer Q.Body → Prop} (h : F.Clear wrap made) : Survey Q P where
  toPassage := F.passage
  account := F.account
  wrap := wrap
  made := made
  within := ⟨F.state, fun _ _ hb => (Front.of_account hb).1⟩
  accountsNext := Front.accountsNext_behind h
  shows _ _ hb := Front.account_shows h hb
  keeps _ _ hnone hdone := Front.account_keeps h hnone hdone
  gives _ _ _ hb := hb.passed h.pull_eq

namespace Survey

variable {R Q P : Pipeline π η}

/-- The one stage after the other.  What the inner one makes itself must be failures, for the
    outer one to turn them into something of its own. -/
def trans (A : Survey R Q) (B : Survey Q P)
    (hB : ∀ answer, B.made answer → ∃ f, answer = .error f) : Survey R P where
  toPassage := A.toPassage.trans B.toPassage
  account a := (A.account a).bind B.account
  wrap b := A.wrap (B.wrap b)
  made := A.made
  within := by
    obtain ⟨f, hf⟩ := A.within
    obtain ⟨g, hg⟩ := B.within
    refine ⟨fun s => g (f s), ?_⟩
    intro a b hb
    obtain ⟨a', ha', hb'⟩ := Option.bind_eq_some_iff.mp hb
    rw [hg a' b hb', hf a a' ha']
    simp only [Account.within, inside, List.map_map, Function.comp_def]
  accountsNext t m as := by
    have hA := A.accountsNext t m as
    have hB := B.accountsNext (A.behind t) (A.inward t m) (as.map fun a => a.bind A.account)
    rw [← hA, List.map_map, List.map_map] at hB
    simp only [Function.comp_def, Option.bind_assoc] at hB
    exact hB
  shows a b hb := by
    obtain ⟨a', ha', hb'⟩ := Option.bind_eq_some_iff.mp hb
    have hfirst := A.shows a a' ha'
    have hsecond := B.shows a' b hb'
    generalize a.progress = x at hfirst ⊢
    generalize b.progress = z at hsecond ⊢
    generalize a'.progress = y at hfirst hsecond
    cases hsecond with
    | pending c i =>
      cases hfirst with
      | pending c' i' => exact .pending c' i
    | answered r =>
      cases hfirst with
      | answered r' => exact .answered r
    | failed answer f hmade =>
      obtain ⟨f', rfl⟩ := hB answer hmade
      cases hfirst with
      | failed answer' f'' hmade' => exact .failed answer' f hmade'
  keeps a answer hnone hdone := by
    cases ha : A.account a with
    | none => exact A.keeps a answer ha hdone
    | some a' =>
      have hb : B.account a' = none := by
        rw [ha] at hnone
        exact hnone
      have hshows := A.shows a a' ha
      rw [hdone] at hshows
      generalize hprogress : a'.progress = y at hshows
      cases hshows with
      | answered r =>
        obtain ⟨f, hf⟩ := hB _ (B.keeps a' _ hb hprogress)
        cases hf
      | failed _ f hmade => exact hmade
  gives waits b x hb := A.gives waits _ x (B.gives waits b x hb)

/-- **The accounts of a run, behind the stages, are those of a run there.** -/
theorem accounts_behind (A : Survey Q P) (t : Q.Callers) (moves : List (Move π η))
    (as : Q.Accounts) :
    ∃ inner : List (Move π η), A.behind (Q.run t moves) = P.run (A.behind t) inner ∧
      (Q.accounts t moves as).map (fun a => a.bind A.account) =
        P.accounts (A.behind t) inner (as.map fun a => a.bind A.account) := by
  induction moves generalizing t as with
  | nil => exact ⟨[], rfl, rfl⟩
  | cons m moves ih =>
    obtain ⟨inner, hrun, haccounts⟩ := ih (Q.step t m) (Q.accountsNext t m as)
    refine ⟨A.inward t m :: inner, ?_, ?_⟩
    · rw [Pipeline.run_cons, Pipeline.run_cons, ← A.behind_step]
      exact hrun
    · simp only [Pipeline.accounts]
      rw [haccounts, A.accountsNext, A.behind_step]

/-- **What the stages answer themselves leaves everything behind them as it is**, whatever is done
    with the call, and however much later. -/
theorem state_behind (A : Survey Q P) (now : Instant) (s : Q.State) (moves : List (Move π η))
    {n : Nat} {a : Account Q.toService} {m : Move π η}
    (ha : (Q.accounts (Q.quiet now s) moves [])[n]? = some (some a)) (hnone : A.account a = none)
    (hm : m.On n) :
    (A.behind (Q.step (Q.run (Q.quiet now s) moves) m)).state =
      (A.behind (Q.run (Q.quiet now s) moves)).state := by
  obtain ⟨inner, hrun, haccounts⟩ := A.accounts_behind (Q.quiet now s) moves []
  have hslots : (A.behind (Q.quiet now s)).slots = [] :=
    List.length_eq_zero_iff.mp (A.length_behind _)
  have hcalls : Pipeline.Accounted [] (A.behind (Q.quiet now s)) := by
    unfold Pipeline.Accounted
    rw [hslots]
    rfl
  have hlast : (P.accounts (A.behind (Q.quiet now s)) inner [])[n]? = some none := by
    rw [show P.accounts _ inner [] = _ from haccounts.symm, List.getElem?_map, ha]
    exact congrArg some hnone
  have habsent := Pipeline.absent_run (Pipeline.absent_nil _) hcalls inner n hlast
  rw [A.behind_step, hrun]
  rcases A.inward_cases (Q.run (Q.quiet now s) moves) m with hin | hin | hin
  · rw [hin, Pipeline.step_gone habsent hm]
  · rw [hin]
    rfl
  · rw [hin]
    rfl

end Survey

/-! ### The stages of the edge -/

/-- Answers of a stage that are failures. -/
def Refused {β : Type} (a : Answer β) : Prop := ∃ f, a = .error f

/-- Answers with a body that the stage has made itself. -/
def Rendered.Made {β : Type} (a : Answer (Relayed β)) : Prop :=
  ∃ r : Response Http.Replay, a = .ok (r.withBody (.own r.body))

theorem shows_same {κ κ' β : Type} {p : Progress κ β} {p' : Progress κ' β} (wrap : κ' → κ)
    (h : p = p'.map wrap id) : Shows id Refused p p' := by
  subst h
  cases p' with
  | pending i => exact .pending _ i
  | done answer =>
    cases answer with
    | ok r => exact .answered r
    | error f => exact .failed _ f ⟨f, rfl⟩

theorem pull_map_id {β : Type} (p : Http.Pull β) : p = p.map id := by
  cases p <;> rfl

theorem Limited.clear (o : LimiterOptions) (P : Pipeline π η) :
    (Limited.front o P).Clear id Refused where
  shows now c s i hc := by
    cases c with
    | rejected f => cases hc
    | admitted inner =>
      cases hc
      exact shows_same _ rfl
  keeps now c s hc := by
    cases c with
    | rejected f => exact ⟨_, rfl, f, rfl⟩
    | admitted inner => cases hc
  pull_eq _ _ := pull_map_id _

theorem Guarded.clear (o : BreakerOptions) (P : Pipeline π η) :
    (Guarded.front o P).Clear id Refused where
  shows now c s i hc := by
    cases c with
    | passed inner =>
      cases hc
      exact shows_same _ rfl
    | rejected => cases hc
    | admitted g inner =>
      cases hc
      refine shows_same (Guarded.Call.admitted g) ?_
      show (Guarded.poll o P.toService now (.admitted g i) s).value =
        (P.poll now i s.inner).value.map (Guarded.Call.admitted g) id
      simp only [Guarded.poll]
      cases (P.poll now i s.inner).value with
      | pending j => rfl
      | done answer => cases answer <;> rfl
  keeps now c s hc := by
    cases c with
    | passed inner => cases hc
    | rejected => exact ⟨_, rfl, _, rfl⟩
    | admitted g inner => cases hc
  pull_eq _ _ := pull_map_id _

theorem Rendered.clear (P : Pipeline π η) : (Rendered.front P).Clear .passed Rendered.Made where
  shows now c s i hc := by
    cases c with
    | answered r => cases hc
    | passed inner =>
      cases hc
      show Shows _ _ (Rendered.poll P.toService now (.passed i) s).value _
      simp only [Rendered.poll]
      show Shows _ _ _ (P.poll now i s.inner).value
      cases (P.poll now i s.inner).value with
      | pending j => exact .pending _ j
      | done answer =>
        cases answer with
        | ok r => exact .answered r
        | error f => exact .failed _ f ⟨Rendered.response f, rfl⟩
  keeps now c s hc := by
    cases c with
    | answered r => exact ⟨_, rfl, r, rfl⟩
    | passed inner => cases hc
  pull_eq _ _ := rfl

/-- What is to be seen of a pipeline does not matter to its callers. -/
def Survey.unseen {P R : Pipeline π η} (A : Survey P R) (views : P.State → List StageView) :
    Survey { P with views := views } R where
  toPassage := (Passage.unseen P views).trans A.toPassage
  account := A.account
  wrap := A.wrap
  made := A.made
  within := A.within
  accountsNext t m as := by
    refine Eq.trans ?_ (A.accountsNext t m as)
    cases m <;> rfl
  shows := A.shows
  keeps := A.keeps
  gives := A.gives

end Floodgate
