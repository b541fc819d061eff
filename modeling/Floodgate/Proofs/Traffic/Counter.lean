/-
  Floodgate/Proofs/Traffic/Counter.lean
  =====================================
  **Figures and what they count.**  A figure of the state, like the number of requests on
  record, is kept up by single steps; what it means is a number of calls.  A `Counter` is
  such a figure together with the calls that it counts, by how far they have come: starting
  a call and polling it add to the figure what they add to the count, and nothing else
  changes the one or the other.

  The calls may be made behind stages that read ahead.  Of each there is an account by the
  account of the call in front (`Shell.account`), and so after every run the figure is the
  number of accounts in which the call is counted (`Counter.count_run`).
-/
import Floodgate.Proofs.Traffic.Shell

namespace Floodgate

variable {π η : Type}

theorem countP_cons_toNat {α : Type} (p : α → Bool) (a : α) (l : List α) :
    (a :: l).countP p = l.countP p + (p a).toNat := by
  rw [List.countP_cons]
  cases p a <;> rfl

theorem countP_concat {α : Type} (p : α → Bool) (l : List α) (a : α) :
    (l ++ [a]).countP p = l.countP p + (p a).toNat := by
  rw [List.countP_append, countP_cons_toNat, List.countP_nil, Nat.zero_add]

theorem countP_set_add {α : Type} {p : α → Bool} {l : List α} {n : Nat} {a b : α}
    (h : l[n]? = some a) :
    (l.set n b).countP p + (p a).toNat = l.countP p + (p b).toNat := by
  induction l generalizing n with
  | nil => cases h
  | cons x l ih =>
    cases n with
    | zero =>
      cases h
      simp only [List.set_cons_zero, countP_cons_toNat]
      omega
    | succ n =>
      have hrest := ih h
      simp only [List.set_cons_succ, countP_cons_toNat]
      omega

/-- A call that is polled is polled inside as well. -/
theorem Account.progress_within_polled {π : Type} {Q S : Service π} (f : Q.State → S.State)
    {a : Account Q} {c : Q.Call} {now : Instant} {s : Q.State} (h : a.call? = some c) :
    Account.progress (S := S) ((a.polled now s).within f) =
      S.course (Account.opening (a.within f))
        (Account.moments (S := S) (a.within f) ++ [(now, f s)]) := by
  rw [Account.polled_of_call h]
  simp only [Account.progress, Account.within, inside, List.map_append, List.map_cons,
    List.map_nil]
  rfl

/-- A figure of the state and the calls that it counts. -/
structure Counter (P : Pipeline π η) where
  figure : P.State → Nat
  /-- Whether a call is counted that has come this far. -/
  counts : Progress P.Call P.Body → Bool
  /-- What calls there are. -/
  Valid : P.Call → Prop
  start_valid : ∀ now r p s, Valid (P.start now r p s).value
  poll_valid : ∀ now c s c', Valid c → (P.poll now c s).value = .pending c' → Valid c'
  start_figure : ∀ now r p s, figure (P.start now r p s).state =
    figure s + (counts (.pending (P.start now r p s).value)).toNat
  poll_figure : ∀ now c s, Valid c → figure (P.poll now c s).state + (counts (.pending c)).toNat =
    figure s + (counts (P.poll now c s).value).toNat
  ready_figure : ∀ s, figure (P.ready s).2 = figure s
  abandon_figure : ∀ c s, figure (P.abandon c s) = figure s
  pull_figure : ∀ b s, figure (P.pull b s).state = figure s
  obey_figure : ∀ now o s, figure (P.obey now o s).state = figure s
  core_figure : ∀ h s, figure (P.withCore h s) = figure s

namespace Counter

variable {Q P : Pipeline π η} (C : Counter P) (A : Shell Q P)

theorem drifts_figure {s s' : P.State} (h : P.Drifts s s') : C.figure s' = C.figure s := by
  induction h with
  | refl => rfl
  | ready _ ih => exact (C.ready_figure _).trans ih
  | abandon c _ ih => exact (C.abandon_figure c _).trans ih
  | pull b _ ih => exact (C.pull_figure b _).trans ih
  | obey now o _ ih => exact (C.obey_figure now o _).trans ih
  | core change _ ih => exact (C.core_figure _ _).trans ih

/-- What a call has made behind the stages is counted. -/
def tells (a : Option (Account Q.toService)) : Bool :=
  (a.bind A.account).any fun b => C.counts b.progress

/-- The number of calls that are counted. -/
def count (as : Q.Accounts) : Nat := as.countP (C.tells A)

variable {C A} {t : Q.Callers} {as : Q.Accounts} {a : Account Q.toService} {c : Q.Call}

theorem tells_of_account {b : Account P.toService} (h : A.account a = some b) :
    C.tells A (some a) = C.counts b.progress := by
  simp only [tells, Option.bind_some, h, Option.any_some]

theorem tells_of_none (h : A.account a = none) : C.tells A (some a) = false := by
  simp only [tells, Option.bind_some, h, Option.any_none]

/-! ### One move -/

theorem count_start (C : Counter P) (A : Shell Q P) (now : Instant) (r : Http.Request) (p : π)
    (s : Q.State) :
    C.figure (A.state (Q.start now r p s).state) =
      C.figure (A.state s) + (C.tells A (some ⟨now, r, p, s, [], false⟩)).toNat := by
  let a : Account Q.toService := ⟨now, r, p, s, [], false⟩
  rcases A.start_cases now r p s with ⟨hnone, hstate⟩ | ⟨hsome, hstate⟩
  · have haccount : A.account a = none := Shell.account_of_call_none hnone
    rw [hstate, tells_of_none haccount]
    rfl
  · have haccount : A.account a = some (a.within A.state) := Shell.account_of_call hsome
    rw [hstate, tells_of_account haccount]
    exact C.start_figure now r p (A.state s)

theorem count_polled (C : Counter P) (A : Shell Q P) (now : Instant) (s : Q.State)
    (hcall : a.call? = some c) :
    C.figure (A.state (Q.poll now c s).state) + (C.tells A (some a)).toNat =
      C.figure (A.state s) + (C.tells A (some (a.polled now s))).toNat := by
  have hpending := (Account.call?_eq_some_iff.mp hcall).2
  have hlater := Shell.account_of_opening (A := A) (a.extends_polled now s).opening
  cases hb : A.account a with
  | none =>
    have hnone := A.course_none (Shell.call_of_account_none hb) hpending
    rw [hb] at hlater
    rw [tells_of_none hb, tells_of_none hlater, C.drifts_figure (A.poll_none now c s hnone).1]
  | some b =>
    have hlinked := Shell.account_linked hb
    rw [hb] at hlater
    obtain ⟨rfl, _⟩ := Shell.of_account hb
    rw [tells_of_account hb, tells_of_account hlater, Account.progress_within_polled A.state hcall]
    rw [hpending] at hlinked
    cases hprogress : (a.within A.state).progress with
    | pending i =>
      rw [hprogress] at hlinked
      have hdrifts := (A.poll_some now c s i hlinked).1
      have hvalid : C.Valid i :=
        Service.course_keeps C.poll_valid (C.start_valid _ _ _ _) hprogress
      have hnext := Service.course_concat_pending (now, A.state s) hprogress
      rw [hnext, C.drifts_figure hdrifts]
      exact C.poll_figure now i (A.state s) hvalid
    | done answer =>
      rw [hprogress] at hlinked
      have hdrifts := (A.poll_none now c s hlinked).1
      have hnext := Service.course_append_done [(now, A.state s)] hprogress
      rw [hnext, C.drifts_figure hdrifts]

theorem tells_left (a : Account Q.toService) : C.tells A (some a.left) = C.tells A (some a) := by
  have hlater := Shell.account_of_opening (A := A) a.extends_left.opening
  cases hcall : a.call? with
  | none => rw [Account.left_of_none hcall]
  | some c =>
    rw [Account.left_of_call hcall] at hlater ⊢
    cases hb : A.account a with
    | none =>
      rw [hb] at hlater
      rw [tells_of_none hb, tells_of_none hlater]
    | some b =>
      rw [hb] at hlater
      obtain ⟨rfl, _⟩ := Shell.of_account hb
      rw [tells_of_account hb, tells_of_account hlater]
      rfl

/-- **What a move adds to the figure it adds to the count.** -/
theorem count_step (C : Counter P) (A : Shell Q P) (h : Pipeline.Accounted as t) (m : Move π η) :
    C.figure (A.state (Q.step t m).state) + C.count A as =
      C.figure (A.state t.state) + C.count A (Q.accountsNext t m as) := by
  have hdrift : ∀ {s : Q.State}, P.Drifts (A.state t.state) (A.state s) →
      C.figure (A.state s) + C.count A as = C.figure (A.state t.state) + C.count A as := by
    intro s hs
    rw [C.drifts_figure hs]
  cases m with
  | call r p =>
    simp only [Pipeline.step, Pipeline.accountsNext, count, countP_concat,
      count_start C A t.now r p t.state]
    omega
  | skip =>
    simp only [Pipeline.step, Pipeline.accountsNext, count, countP_concat]
    rfl
  | poll n =>
    rcases Q.stepPoll_cases t n with ⟨hidle, hpoll⟩ | ⟨c, hslot, hpoll⟩
    · rw [h.poll_idle hidle]
      show C.figure (A.state (Q.stepPoll t n).state) + _ = _
      rw [hpoll]
    · obtain ⟨a, ha, hcall⟩ := h.calling_iff.mp hslot
      have hset := countP_set_add (p := C.tells A) (b := some (a.polled t.now t.state)) ha
      have hpolled := C.count_polled A t.now t.state hcall
      rw [Pipeline.accountsNext_poll ha]
      show C.figure (A.state (Q.stepPoll t n).state) + _ = _
      rw [hpoll]
      unfold count
      dsimp only
      omega
  | drop n =>
    rcases Q.stepDrop_cases t n with ⟨hn, hdrop⟩ | ⟨c, hslot, hdrop⟩ | ⟨body, hslot, hdrop⟩
    · rw [h.drop_idle (by rcases hn with hn | hn <;> simp [hn])]
      show C.figure (A.state (Q.stepDrop t n).state) + _ = _
      rw [hdrop]
    · obtain ⟨a, ha, _⟩ := h.calling_iff.mp hslot
      have hset := countP_set_add (p := C.tells A) (b := some a.left) ha
      rw [Pipeline.accountsNext_drop ha]
      show C.figure (A.state (Q.stepDrop t n).state) + _ = _
      rw [hdrop]
      rw [tells_left] at hset
      show C.figure (A.state (Q.abandon c t.state)) + _ = _
      rw [C.drifts_figure (A.abandon c t.state)]
      unfold count
      omega
    · rw [h.drop_idle (by simp [hslot])]
      show C.figure (A.state (Q.stepDrop t n).state) + _ = _
      rw [hdrop]
  | pull n =>
    show C.figure (A.state (Q.stepPull t n).state) + _ = _
    rcases Q.stepPull_cases t n with ⟨_, hpull⟩ | ⟨body, _, hpull⟩
    · rw [hpull]
      rfl
    · rw [hpull]
      exact hdrift (A.pull body t.state)
  | ready => exact hdrift (A.ready t.state)
  | advance d => rfl
  | order o => exact hdrift (A.obey t.now o t.state)
  | core change => exact hdrift (A.core change t.state)

/-! ### Runs -/

/-- **After every run the figure has grown by the number of calls that are counted.** -/
theorem count_run (C : Counter P) (A : Shell Q P) (h : Pipeline.Accounted as t)
    (moves : List (Move π η)) :
    C.figure (A.state (Q.run t moves).state) + C.count A as =
      C.figure (A.state t.state) + C.count A (Q.accounts t moves as) := by
  induction moves generalizing t as with
  | nil => rfl
  | cons m moves ih =>
    have hstep := C.count_step A h m
    have hrest := ih (h.step m)
    rw [Pipeline.run_cons]
    simp only [Pipeline.accounts]
    omega

theorem count_quiet (C : Counter P) (A : Shell Q P) (now : Instant) (s : Q.State)
    (moves : List (Move π η)) :
    C.figure (A.state (Q.run (Q.quiet now s) moves).state) =
      C.figure (A.state s) + C.count A (Q.accounts (Q.quiet now s) moves []) :=
  C.count_run A (Pipeline.accounted_quiet now s) moves

end Counter

end Floodgate
