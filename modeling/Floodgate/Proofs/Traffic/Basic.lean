/-
  Floodgate/Proofs/Traffic/Basic.lean
  ===================================
  **Pipelines under arbitrary traffic.**  A pipeline has any number of callers.  They
  start calls, poll them, read the bodies of the answers and give up whatever they
  like, in any order; time passes, operators give orders, and what the pipeline
  protects changes as it pleases.  `Pipeline.step` is one such move and
  `Pipeline.run` a list of them, so what holds after every run holds in every state
  that can be reached.

  Calls are numbered in the order in which they are made.  The slot of a call stays
  when the call is over, so a number is never given twice and an invariant may speak
  of a call by its number for as long as it likes.

  Every move is one step of the pipeline: a poll that ends a call and what the stages
  note about it happen together.  Stages change what they share under a lock, one at
  a time, so callers on many threads take turns in some such order.

  `run_invariant` is the induction that the properties of runs come from.
-/
import Floodgate.Pipeline.Build

namespace Floodgate

open Http (Pull Request)

/-! ### Calls and what becomes of them -/

/-- How far a call has got. -/
inductive Slot (κ β : Type) where
  /-- The answer is awaited. -/
  | calling (call : κ)
  /-- The answer is there; its body is left to be read. -/
  | reading (body : β)
  /-- Failed, given up, or never made. -/
  | gone

namespace Slot

variable {κ β : Type}

/-- The slot of a call that was polled. -/
def ofProgress : Progress κ β → Slot κ β
  | .pending call => .calling call
  | .done (.ok r) => .reading r.body
  | .done (.error _) => .gone

/-- The call under way, if there is one. -/
def call? : Slot κ β → Option κ
  | .calling call => some call
  | _ => none

@[simp] theorem call?_calling (call : κ) : (calling call : Slot κ β).call? = some call := rfl

@[simp] theorem call?_reading (body : β) : (reading body : Slot κ β).call? = none := rfl

@[simp] theorem call?_gone : (gone : Slot κ β).call? = none := rfl

@[simp] theorem call?_ofProgress_pending (call : κ) :
    (ofProgress (.pending call) : Slot κ β).call? = some call := rfl

@[simp] theorem call?_ofProgress_done (answer : Answer β) :
    (ofProgress (.done answer) : Slot κ β).call? = none := by
  cases answer <;> rfl

end Slot

theorem set_getElem?_eq_self {α : Type} {l : List α} {n : Nat} {a : α} (h : l[n]? = some a) :
    l.set n a = l := by
  obtain ⟨hn, ha⟩ := List.getElem?_eq_some_iff.mp h
  rw [← ha]
  exact List.set_getElem_self hn

theorem getElem?_concat_cases {α : Type} {l : List α} {a b : α} {n : Nat}
    (h : (l ++ [a])[n]? = some b) : (n = l.length ∧ a = b) ∨ (n < l.length ∧ l[n]? = some b) := by
  by_cases hn : n < l.length
  · rw [List.getElem?_append_left hn] at h
    exact .inr ⟨hn, h⟩
  · rw [List.getElem?_append_right (Nat.le_of_not_lt hn)] at h
    obtain ⟨hlast, hb⟩ := List.getElem?_eq_some_iff.mp h
    simp only [List.length_singleton] at hlast
    have hzero : n - l.length = 0 := by omega
    simp only [hzero, List.getElem_cons_zero] at hb
    exact .inl ⟨by omega, hb⟩

theorem getElem?_set_cases {α : Type} {l : List α} {a b : α} {n n' : Nat}
    (h : (l.set n' a)[n]? = some b) : (n = n' ∧ a = b) ∨ (n ≠ n' ∧ l[n]? = some b) := by
  by_cases hn : n' = n
  · subst hn
    obtain ⟨_, hb⟩ := List.getElem?_eq_some_iff.mp h
    rw [List.getElem_set_self] at hb
    exact .inl ⟨rfl, hb⟩
  · rw [List.getElem?_set_ne hn] at h
    exact .inr ⟨Ne.symm hn, h⟩

/-- What is left of a body that was asked for a frame. -/
def restOf {β : Type} : Pull β → β
  | .pending rest => rest
  | .frame _ rest => rest
  | .failed _ rest => rest
  | .ended rest => rest

@[simp] theorem restOf_map {β γ : Type} (p : Pull β) (wrap : β → γ) :
    restOf (p.map wrap) = wrap (restOf p) := by
  cases p <;> rfl

/-- A service and its callers: what state it is in, and the calls by number. -/
structure Traffic (σ κ β : Type) where
  now : Instant
  state : σ
  slots : List (Slot κ β)

/-- What can be done with a pipeline; `η` is what it protects. -/
inductive Move (π η : Type) where
  | ready
  | call (r : Request) (p : π)
  /-- A number is passed over. -/
  | skip
  /-- A call goes on as far as it can. -/
  | poll (n : Nat)
  /-- A call, or the body of its answer, is given up. -/
  | drop (n : Nat)
  /-- The body of an answer is asked for a frame. -/
  | pull (n : Nat)
  | advance (d : Duration)
  | order (o : Order)
  /-- What the pipeline protects changes. -/
  | core (change : η → η)

/-- What can be done with a call once it is made. -/
def Move.On {π η : Type} (n : Nat) : Move π η → Prop
  | .poll k => k = n
  | .drop k => k = n
  | .pull k => k = n
  | _ => False

namespace Pipeline

variable {π η : Type} (P : Pipeline π η)

/-- A pipeline and its callers. -/
abbrev Callers (P : Pipeline π η) := Traffic P.State P.Call P.Body

def stepPoll (t : P.Callers) (n : Nat) : P.Callers :=
  match t.slots[n]? with
  | some (.calling call) =>
    let polled := P.poll t.now call t.state
    { t with state := polled.state, slots := t.slots.set n (.ofProgress polled.value) }
  | _ => t

def stepDrop (t : P.Callers) (n : Nat) : P.Callers :=
  match t.slots[n]? with
  | some (.calling call) =>
    { t with state := P.abandon call t.state, slots := t.slots.set n .gone }
  | some (.reading _) => { t with slots := t.slots.set n .gone }
  | _ => t

def stepPull (t : P.Callers) (n : Nat) : P.Callers :=
  match t.slots[n]? with
  | some (.reading body) =>
    let pulled := P.pull body t.state
    { t with state := pulled.state, slots := t.slots.set n (.reading (restOf pulled.value)) }
  | _ => t

def step (t : P.Callers) : Move π η → P.Callers
  | .ready => { t with state := (P.ready t.state).2 }
  | .call r p =>
    let started := P.start t.now r p t.state
    { t with state := started.state, slots := t.slots ++ [.calling started.value] }
  | .skip => { t with slots := t.slots ++ [.gone] }
  | .poll n => P.stepPoll t n
  | .drop n => P.stepDrop t n
  | .pull n => P.stepPull t n
  | .advance d => { t with now := t.now + d }
  | .order o => { t with state := (P.obey t.now o t.state).state }
  | .core change => { t with state := P.withCore (change (P.core t.state)) t.state }

def run (t : P.Callers) (moves : List (Move π η)) : P.Callers :=
  moves.foldl P.step t

/-- No calls have been made yet. -/
def quiet (now : Instant) (state : P.State) : P.Callers := ⟨now, state, []⟩

/-! ### What a move does, by what it finds -/

variable {P}

theorem stepPoll_calling {t : P.Callers} {n : Nat} {call : P.Call}
    (h : t.slots[n]? = some (.calling call)) :
    P.stepPoll t n =
      { t with
          state := (P.poll t.now call t.state).state
          slots := t.slots.set n (.ofProgress (P.poll t.now call t.state).value) } := by
  simp only [stepPoll, h]

theorem stepPoll_idle {t : P.Callers} {n : Nat} (h : ∀ call, t.slots[n]? ≠ some (.calling call)) :
    P.stepPoll t n = t := by
  unfold stepPoll
  split
  · next call hs => exact absurd hs (h call)
  · rfl

theorem stepDrop_calling {t : P.Callers} {n : Nat} {call : P.Call}
    (h : t.slots[n]? = some (.calling call)) :
    P.stepDrop t n = { t with state := P.abandon call t.state, slots := t.slots.set n .gone } := by
  simp only [stepDrop, h]

theorem stepDrop_reading {t : P.Callers} {n : Nat} {body : P.Body}
    (h : t.slots[n]? = some (.reading body)) :
    P.stepDrop t n = { t with slots := t.slots.set n .gone } := by
  simp only [stepDrop, h]

theorem stepDrop_idle {t : P.Callers} {n : Nat}
    (h : t.slots[n]? = none ∨ t.slots[n]? = some .gone) : P.stepDrop t n = t := by
  rcases h with h | h <;> simp only [stepDrop, h]

theorem stepPull_reading {t : P.Callers} {n : Nat} {body : P.Body}
    (h : t.slots[n]? = some (.reading body)) :
    P.stepPull t n =
      { t with
          state := (P.pull body t.state).state
          slots := t.slots.set n (.reading (restOf (P.pull body t.state).value)) } := by
  simp only [stepPull, h]

theorem stepPull_idle {t : P.Callers} {n : Nat} (h : ∀ body, t.slots[n]? ≠ some (.reading body)) :
    P.stepPull t n = t := by
  unfold stepPull
  split
  · next body hs => exact absurd hs (h body)
  · rfl

theorem stepPoll_cases (t : P.Callers) (n : Nat) :
    ((∀ call, t.slots[n]? ≠ some (.calling call)) ∧ P.stepPoll t n = t) ∨
    (∃ call, t.slots[n]? = some (.calling call) ∧
      P.stepPoll t n =
        { t with
            state := (P.poll t.now call t.state).state
            slots := t.slots.set n (.ofProgress (P.poll t.now call t.state).value) }) := by
  by_cases h : ∃ call, t.slots[n]? = some (.calling call)
  · obtain ⟨call, hcall⟩ := h
    exact .inr ⟨call, hcall, stepPoll_calling hcall⟩
  · have hidle := not_exists.mp h
    exact .inl ⟨hidle, stepPoll_idle hidle⟩

theorem stepDrop_cases (t : P.Callers) (n : Nat) :
    ((t.slots[n]? = none ∨ t.slots[n]? = some .gone) ∧ P.stepDrop t n = t) ∨
    (∃ call, t.slots[n]? = some (.calling call) ∧
      P.stepDrop t n =
        { t with state := P.abandon call t.state, slots := t.slots.set n .gone }) ∨
    (∃ body, t.slots[n]? = some (.reading body) ∧
      P.stepDrop t n = { t with slots := t.slots.set n .gone }) := by
  cases hs : t.slots[n]? with
  | none => exact .inl ⟨.inl rfl, stepDrop_idle (.inl hs)⟩
  | some s =>
    cases s with
    | calling call => exact .inr (.inl ⟨call, rfl, stepDrop_calling hs⟩)
    | reading body => exact .inr (.inr ⟨body, rfl, stepDrop_reading hs⟩)
    | gone => exact .inl ⟨.inr rfl, stepDrop_idle (.inr hs)⟩

theorem stepPull_cases (t : P.Callers) (n : Nat) :
    ((∀ body, t.slots[n]? ≠ some (.reading body)) ∧ P.stepPull t n = t) ∨
    (∃ body, t.slots[n]? = some (.reading body) ∧
      P.stepPull t n =
        { t with
            state := (P.pull body t.state).state
            slots := t.slots.set n (.reading (restOf (P.pull body t.state).value)) }) := by
  by_cases h : ∃ body, t.slots[n]? = some (.reading body)
  · obtain ⟨body, hbody⟩ := h
    exact .inr ⟨body, hbody, stepPull_reading hbody⟩
  · have hidle := not_exists.mp h
    exact .inl ⟨hidle, stepPull_idle hidle⟩

/-! ### Time -/

@[simp] theorem now_stepPoll (t : P.Callers) (n : Nat) : (P.stepPoll t n).now = t.now := by
  unfold stepPoll
  split <;> rfl

@[simp] theorem now_stepDrop (t : P.Callers) (n : Nat) : (P.stepDrop t n).now = t.now := by
  unfold stepDrop
  split <;> rfl

@[simp] theorem now_stepPull (t : P.Callers) (n : Nat) : (P.stepPull t n).now = t.now := by
  unfold stepPull
  split <;> rfl

/-- Time does not go back. -/
theorem now_le_step (t : P.Callers) (m : Move π η) : t.now ≤ (P.step t m).now := by
  cases m with
  | advance d => exact Nat.le_add_right t.now d
  | _ => simp [step]

/-! ### Runs -/

@[simp] theorem run_nil (t : P.Callers) : P.run t [] = t := rfl

theorem run_cons (t : P.Callers) (m : Move π η) (moves : List (Move π η)) :
    P.run t (m :: moves) = P.run (P.step t m) moves := rfl

theorem run_append (t : P.Callers) (before after : List (Move π η)) :
    P.run t (before ++ after) = P.run (P.run t before) after :=
  List.foldl_append

theorem run_concat (t : P.Callers) (moves : List (Move π η)) (m : Move π η) :
    P.run t (moves ++ [m]) = P.step (P.run t moves) m := by
  rw [run_append, run_cons, run_nil]

/-- **What every move of a kind keeps, every run of such moves keeps.** -/
theorem run_invariant {I : P.Callers → Prop} {kind : Move π η → Prop}
    (hstep : ∀ t m, kind m → I t → I (P.step t m)) (ht : I t) (moves : List (Move π η))
    (hm : ∀ m ∈ moves, kind m) : I (P.run t moves) := by
  induction moves generalizing t with
  | nil => exact ht
  | cons m moves ih =>
    rw [run_cons]
    apply ih (hstep t m (hm m (by simp)) ht)
    intro m' hm'
    exact hm m' (by simp [hm'])

end Pipeline

/-- A pipeline as it was put together, before its first call. -/
def Deployment.opened {π η : Type} (d : Deployment π η) (now : Instant) :
    d.pipeline.Callers :=
  d.pipeline.quiet now d.state

end Floodgate
