/-
  Floodgate/Session/Live.lean
  ===========================
  **Calls under way.**  Whoever made a call looks after it in two phases: first the head
  of the response is awaited, then the body is read as far as it goes, past failures,
  until it ends.  Calls are visited in the order in which they were made, one phase per
  visit, until a whole pass reports nothing.  A pass that reports something leaves less
  to be done (`weight_pass`), so the passes end by themselves and not because their
  number is bounded (`passes_eq_settle`).
-/
import Floodgate.Pipeline.Service

namespace Floodgate

open Http (Frame Head SizeHint)

inductive BodyPart where
  | frame (f : Frame)
  | failed (f : Failure)
deriving DecidableEq, Repr

inductive CallEvent where
  | failed (f : Failure)
  /-- The head of the response, and what the body says of itself. -/
  | head (h : Head) (ended : Bool) (hint : SizeHint)
  /-- The whole body after a head, and whether it says that nothing is left. -/
  | body (h : Head) (parts : List BodyPart) (ended : Bool)
deriving DecidableEq, Repr

/-- What becomes known of the call of some request. -/
structure Report where
  id : String
  event : CallEvent
deriving DecidableEq, Repr

inductive CallPhase (κ β : Type) where
  | calling (call : κ)
  /-- The body after a head has been read so far. -/
  | reading (h : Head) (body : β) (parts : List BodyPart)

structure Live (κ β : Type) where
  id : String
  reads : Bool
  phase : CallPhase κ β

namespace Live

variable {π : Type} (S : Service π)

/-! ### Reading bodies -/

structure Read (β : Type) where
  parts : List BodyPart
  rest : β
  whole : Bool

/-- Reads a body as far as it goes, after parts that have been read; `fuel` bounds the
    parts. -/
def read : Nat → List BodyPart → S.Body → S.State → Step S.State (Read S.Body)
  | 0, parts, body, s => ⟨⟨parts, body, false⟩, s, []⟩
  | fuel + 1, parts, body, s =>
    let pulled := S.pull body s
    match pulled.value with
    | .pending rest => ⟨⟨parts, rest, false⟩, pulled.state, pulled.happened⟩
    | .frame f rest =>
      (read fuel (parts ++ [.frame f]) rest pulled.state).after pulled.happened
    | .failed f rest =>
      (read fuel (parts ++ [.failed f]) rest pulled.state).after pulled.happened
    | .ended rest => ⟨⟨parts, rest, true⟩, pulled.state, pulled.happened⟩

/-! ### Visits -/

/-- What a visit leaves of a call, if anything, and what it reports. -/
structure Visit (κ β : Type) where
  left : Option (Live κ β)
  reports : List Report

def quiet {κ β : Type} (l : Live κ β) : Visit κ β := ⟨some l, []⟩

def visit (now : Instant) (l : Live S.Call S.Body) (s : S.State) :
    Step S.State (Visit S.Call S.Body) :=
  match l.phase with
  | .calling call =>
    let polled := S.poll now call s
    match polled.value with
    | .pending call => ⟨quiet { l with phase := .calling call }, polled.state, polled.happened⟩
    | .done (.error f) => ⟨⟨none, [⟨l.id, .failed f⟩]⟩, polled.state, polled.happened⟩
    | .done (.ok r) =>
      ⟨⟨some { l with phase := .reading r.head r.body [] },
          [⟨l.id, .head r.head (S.ended r.body) (S.hint r.body)⟩]⟩,
        polled.state, polled.happened⟩
  | .reading h body parts =>
    if l.reads then
      let r := read S (S.size body + 1) parts body s
      if r.value.whole then
        ⟨⟨none, [⟨l.id, .body h r.value.parts (S.ended r.value.rest)⟩]⟩, r.state, r.happened⟩
      else
        ⟨quiet { l with phase := .reading h r.value.rest r.value.parts }, r.state, r.happened⟩
    else ⟨quiet l, s, []⟩

/-- Gives up a call, or a body that has not been read to its end. -/
def abandon (l : Live S.Call S.Body) (s : S.State) : S.State :=
  match l.phase with
  | .calling call => S.abandon call s
  | .reading .. => s

/-! ### Passes -/

structure Round (κ β : Type) where
  live : List (Live κ β)
  reports : List Report

def pass (now : Instant) : List (Live S.Call S.Body) → S.State →
    Step S.State (Round S.Call S.Body)
  | [], s => ⟨⟨[], []⟩, s, []⟩
  | l :: rest, s =>
    let visited := visit S now l s
    let others := pass now rest visited.state
    ⟨⟨visited.value.left.toList ++ others.value.live,
        visited.value.reports ++ others.value.reports⟩,
      others.state, visited.happened ++ others.happened⟩

/-- Visits all calls again and again until a pass reports nothing; `fuel` bounds the
    passes. -/
def passes (now : Instant) : Nat → List (Live S.Call S.Body) → S.State →
    Step S.State (Round S.Call S.Body)
  | 0, live, s => ⟨⟨live, []⟩, s, []⟩
  | fuel + 1, live, s =>
    let first := pass S now live s
    if first.value.reports.isEmpty then first
    else
      let more := passes now fuel first.value.live first.state
      ⟨⟨more.value.live, first.value.reports ++ more.value.reports⟩, more.state,
        first.happened ++ more.happened⟩

/-! ### Passes come to an end -/

def weight {κ β : Type} (l : Live κ β) : Nat :=
  match l.phase with
  | .calling _ => 2
  | .reading .. => 1

def weights {κ β : Type} : List (Live κ β) → Nat
  | [] => 0
  | l :: rest => weight l + weights rest

theorem weights_append {κ β : Type} (live more : List (Live κ β)) :
    weights (live ++ more) = weights live + weights more := by
  induction live with
  | nil => simp [weights]
  | cons l rest ih => simp [weights, ih, Nat.add_assoc]

/-- Lets calls go on until nothing is left to report. -/
def settle (now : Instant) (live : List (Live S.Call S.Body)) (s : S.State) :
    Step S.State (Round S.Call S.Body) :=
  passes S now (weights live + 1) live s

/-- What a visit reports, the call cannot report again. -/
theorem weight_visit (now : Instant) (l : Live S.Call S.Body) (s : S.State) :
    weights (visit S now l s).value.left.toList + (visit S now l s).value.reports.length
      ≤ weight l := by
  obtain ⟨id, reads, phase⟩ := l
  cases phase with
  | calling call =>
    cases hp : (S.poll now call s).value with
    | pending call' => simp [visit, hp, quiet, weights, weight]
    | done answer =>
      cases answer with
      | error f => simp [visit, hp, weights, weight]
      | ok r => simp [visit, hp, weights, weight]
  | reading h body parts =>
    cases reads with
    | false => simp [visit, quiet, weights, weight]
    | true =>
      cases ho : (read S (S.size body + 1) parts body s).value.whole with
      | false => simp [visit, ho, quiet, weights, weight]
      | true => simp [visit, ho, weights, weight]

/-- What a pass reports, no later pass can. -/
theorem weight_pass (now : Instant) (live : List (Live S.Call S.Body)) (s : S.State) :
    weights (pass S now live s).value.live + (pass S now live s).value.reports.length
      ≤ weights live := by
  induction live generalizing s with
  | nil => simp [pass, weights]
  | cons l rest ih =>
    have hv := weight_visit S now l s
    have hr := ih (visit S now l s).state
    simp only [pass, weights, weights_append, List.length_append] at hv hr ⊢
    omega

theorem passes_succ (now : Instant) (fuel : Nat) (live : List (Live S.Call S.Body)) (s : S.State)
    (h : weights live < fuel) : passes S now (fuel + 1) live s = passes S now fuel live s := by
  induction fuel generalizing live s with
  | zero => omega
  | succ fuel ih =>
    have hw := weight_pass S now live s
    cases hr : (pass S now live s).value.reports with
    | nil => simp [passes, hr]
    | cons r rest =>
      simp only [hr, List.length_cons] at hw
      have hm := ih (pass S now live s).value.live (pass S now live s).state (by omega)
      simp only [passes.eq_2 S now live s (fuel + 1), passes.eq_2 S now live s fuel, hm]

/-- **Passes end by themselves:** to allow more of them changes nothing. -/
theorem passes_eq_settle (now : Instant) (more : Nat) (live : List (Live S.Call S.Body))
    (s : S.State) : passes S now (weights live + 1 + more) live s = settle S now live s := by
  induction more with
  | zero => rfl
  | succ more ih =>
    rw [← Nat.add_assoc, passes_succ S now _ live s (by omega), ih]

end Live

end Floodgate
