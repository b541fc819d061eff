/-
  Floodgate/Proofs/Traffic/Inside.lean
  ====================================
  **Calls inside calls.**  A call of a stage that has passed a request on holds a call of
  the inner service.  Whenever it is polled it polls that one, in the inner state of the
  moment, and it waits as long as that one does (`Service.Awaits`).  So a course of the
  stage holds a course of the inner service at the same moments: as long as the inner call
  waits, the outer one does (`course_awaiting`), and with its answer the outer call comes to
  what the stage makes of that (`course_after`).
-/
import Floodgate.Proofs.Traffic.Script

namespace Floodgate

open Http (Bytes Head Headers)

/-- The same moments with the states that are found inside. -/
def inside {σ τ : Type} (f : σ → τ) (moments : List (Instant × σ)) : List (Instant × τ) :=
  moments.map fun m => (m.1, f m.2)

theorem inside_inside {σ τ υ : Type} (f : σ → τ) (g : τ → υ) (moments : List (Instant × σ)) :
    inside g (inside f moments) = inside (fun s => g (f s)) moments :=
  List.map_map

/-- The account of the call inside: made and polled at the same moments. -/
def Account.within {π : Type} {Q S : Service π} (f : Q.State → S.State) (a : Account Q) :
    Account S :=
  ⟨a.now, a.request, a.payload, f a.state, inside f a.moments, a.dropped⟩

namespace Service

variable {π : Type} {Q S : Service π} {wrap : S.Call → Q.Call} {inner : Q.State → S.State}
  {moments : List (Instant × Q.State)} {call : S.Call}

/-- A call of the stage waits as long as the inner call does. -/
def Awaits (Q S : Service π) (wrap : S.Call → Q.Call) (inner : Q.State → S.State) : Prop :=
  ∀ now call s next, (S.poll now call (inner s)).value = .pending next →
    (Q.poll now (wrap call) s).value = .pending (wrap next)

theorem course_awaiting (h : Awaits Q S wrap inner) {next : S.Call}
    (hinner : S.course call (inside inner moments) = .pending next) :
    Q.course (wrap call) moments = .pending (wrap next) := by
  induction moments generalizing call with
  | nil =>
    cases hinner
    rfl
  | cons m moments ih =>
    simp only [inside, List.map_cons, Service.course] at hinner ⊢
    cases hv : (S.poll m.1 call (inner m.2)).value with
    | pending later =>
      simp only [hv] at hinner
      simp only [h m.1 call m.2 later hv]
      exact ih hinner
    | done answer =>
      simp only [hv] at hinner
      cases hinner

/-- A call of the stage that has ended has had the answer of its inner call. -/
theorem answered_inside (h : Awaits Q S wrap inner) {answer : Answer Q.Body}
    (houter : Q.course (wrap call) moments = .done answer) :
    ∃ a, S.course call (inside inner moments) = .done a := by
  cases hinner : S.course call (inside inner moments) with
  | pending next =>
    rw [course_awaiting h hinner] at houter
    cases houter
  | done a => exact ⟨a, rfl⟩

/-- **With the answer of its inner call a call comes to what the stage makes of it.** -/
theorem course_after (waits : Prop) (J : Answer Q.Body → Prop) {a : Answer S.Body}
    (h : Awaits Q S wrap inner)
    (hdone : ∀ now call s, (S.poll now call (inner s)).value = .done a →
      (Q.poll now (wrap call) s).value.Meets waits (fun next => Q.Answers waits next J) J)
    (hinner : S.course call (inside inner moments) = .done a) :
    (Q.course (wrap call) moments).Meets waits (fun next => Q.Answers waits next J) J := by
  induction moments generalizing call with
  | nil => cases hinner
  | cons m moments ih =>
    simp only [inside, List.map_cons, Service.course] at hinner ⊢
    cases hv : (S.poll m.1 call (inner m.2)).value with
    | pending next =>
      simp only [hv] at hinner
      simp only [h m.1 call m.2 next hv]
      exact ih hinner
    | done answer =>
      simp only [hv, Progress.done.injEq] at hinner
      subst hinner
      have hmeets := hdone m.1 call m.2 hv
      cases hq : (Q.poll m.1 (wrap call) m.2).value with
      | pending next =>
        rw [hq] at hmeets
        -- the stage goes on by itself, and may have to wait for a body
        have hlast := hmeets.2.course moments
        show (Q.course next moments).Meets waits _ J
        cases hc : Q.course next moments with
        | pending last =>
          rw [hc] at hlast
          exact ⟨hmeets.1, hlast.2⟩
        | done answer' =>
          rw [hc] at hlast
          exact hlast
      | done answer' =>
        rw [hq] at hmeets
        exact hmeets

/-- A stage that answers as soon as it has the answer of the inner call. -/
theorem course_answers (J : Answer Q.Body → Prop) {a : Answer S.Body} (h : Awaits Q S wrap inner)
    (hdone : ∀ now call s, (S.poll now call (inner s)).value = .done a →
      ∃ a', (Q.poll now (wrap call) s).value = .done a' ∧ J a')
    (hinner : S.course call (inside inner moments) = .done a) :
    ∃ a', Q.course (wrap call) moments = .done a' ∧ J a' := by
  have hmeets := course_after False J h ?_ hinner
  · cases hc : Q.course (wrap call) moments with
    | pending next =>
      rw [hc] at hmeets
      exact hmeets.1.elim
    | done answer =>
      rw [hc] at hmeets
      exact ⟨answer, rfl, hmeets⟩
  · intro now call s hv
    obtain ⟨a', hpoll, ha'⟩ := hdone now call s hv
    rw [hpoll]
    exact ha'

theorem course_answered {a : Answer S.Body} {a' : Answer Q.Body} (h : Awaits Q S wrap inner)
    (hdone : ∀ now call s, (S.poll now call (inner s)).value = .done a →
      (Q.poll now (wrap call) s).value = .done a')
    (hinner : S.course call (inside inner moments) = .done a) :
    Q.course (wrap call) moments = .done a' := by
  obtain ⟨_, hcourse, rfl⟩ := course_answers (· = a') h
    (fun now call s hv => ⟨a', hdone now call s hv, rfl⟩) hinner
  exact hcourse

end Service

end Floodgate
