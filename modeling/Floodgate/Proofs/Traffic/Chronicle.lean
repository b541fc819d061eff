/-
  Floodgate/Proofs/Traffic/Chronicle.lean
  =======================================
  **What a run tells.**  A move tells what happened in it, and a run tells what happened in
  its moves one after the other (`Pipeline.chronicle`).  What is measured on the way adds up
  on a board: a gauge shows what it was set to last (`gauge?_board`), and the counters of a
  name show all that was counted under it (`total_board`).

  To know what a stage measures it must be known that nothing inside it measures the same.
  That is a property of all that happens in a pipeline (`Pipeline.Tells`), whatever state it
  is in.
-/
import Floodgate.Proofs.Observe.Outside
import Floodgate.Proofs.Traffic.Basic
import Floodgate.Session.Handler
import Mathlib.Algebra.BigOperators.Group.List.Basic

namespace Floodgate

open Http (Request)

/-! ### What is measured -/

namespace Happening

def measured (hs : List Happening) : List Measurement :=
  hs.flatMap fun h => h.sighting.measurements

/-- The board after all that happened. -/
def board (hs : List Happening) : Board := Board.measureAll [] (measured hs)

/-- What a gauge was set to, in order. -/
def settings (gauge : String) (labels : Labels) (hs : List Happening) : List Float :=
  (measured hs).filterMap (·.set? gauge labels)

/-- What was counted under a name. -/
def counted (name : String) (hs : List Happening) : Nat :=
  ((measured hs).map (·.counted name)).sum

variable {gauge : String} {labels : Labels} {name : String} {hs : List Happening}

theorem gauge?_board : (board hs).gauge? gauge labels = (settings gauge labels hs).getLast? := by
  rw [board, Board.gauge?_measureAll]
  exact Option.or_none

theorem total_board : (board hs).total name = counted name hs := by
  rw [board, Board.total_measureAll]
  exact Nat.zero_add _

@[simp] theorem settings_append (hs hs' : List Happening) :
    settings gauge labels (hs ++ hs') = settings gauge labels hs ++ settings gauge labels hs' := by
  simp [settings, measured]

@[simp] theorem counted_append (hs hs' : List Happening) :
    counted name (hs ++ hs') = counted name hs + counted name hs' := by
  simp [counted, measured]

/-- What happened does not set the gauge. -/
def Leaves (gauge : String) (labels : Labels) (h : Happening) : Prop :=
  ∀ m ∈ h.sighting.measurements, m.set? gauge labels = none

/-- Nothing is counted under the name. -/
def Uncounted (name : String) (h : Happening) : Prop :=
  ∀ m ∈ h.sighting.measurements, m.counted name = 0

theorem settings_of_leaves (h : ∀ x ∈ hs, Leaves gauge labels x) :
    settings gauge labels hs = [] := by
  apply List.filterMap_eq_nil_iff.mpr
  intro m hm
  obtain ⟨x, hx, hmx⟩ := List.mem_flatMap.mp hm
  exact h x hx m hmx

theorem counted_of_uncounted (h : ∀ x ∈ hs, Uncounted name x) : counted name hs = 0 := by
  apply List.sum_eq_zero
  intro n hn
  obtain ⟨m, hm, rfl⟩ := List.mem_map.mp hn
  obtain ⟨x, hx, hmx⟩ := List.mem_flatMap.mp hm
  exact h x hx m hmx

end Happening

namespace Pipeline

variable {π η : Type} (P : Pipeline π η)

/-! ### Chronicles -/

/-- What happens in a move, in order. -/
def happenings (t : P.Callers) : Move π η → List Happening
  | .call r p => (P.start t.now r p t.state).happened
  | .poll n =>
    match t.slots[n]? with
    | some (.calling call) => (P.poll t.now call t.state).happened
    | _ => []
  | .pull n =>
    match t.slots[n]? with
    | some (.reading body) => (P.pull body t.state).happened
    | _ => []
  | .order o => (P.obey t.now o t.state).happened
  | _ => []

/-- What happens in a run, in order. -/
def chronicle (t : P.Callers) : List (Move π η) → List Happening
  | [] => []
  | m :: moves => P.happenings t m ++ chronicle (P.step t m) moves

theorem chronicle_append (t : P.Callers) (before after : List (Move π η)) :
    P.chronicle t (before ++ after) =
      P.chronicle t before ++ P.chronicle (P.run t before) after := by
  induction before generalizing t with
  | nil => rfl
  | cons m before ih =>
    rw [List.cons_append, chronicle, chronicle, ih, List.append_assoc, run_cons]

theorem chronicle_concat (t : P.Callers) (moves : List (Move π η)) (m : Move π η) :
    P.chronicle t (moves ++ [m]) = P.chronicle t moves ++ P.happenings (P.run t moves) m := by
  rw [chronicle_append, chronicle, chronicle, List.append_nil]

section

variable {P} {ok : Happening → Prop} {t : P.Callers} {n : Nat}

theorem forall_happenings_poll (h : ∀ call, ∀ x ∈ (P.poll t.now call t.state).happened, ok x) :
    ∀ x ∈ P.happenings t (.poll n), ok x := by
  unfold happenings
  dsimp only
  split
  · exact h _
  · nofun

theorem forall_happenings_pull (h : ∀ body, ∀ x ∈ (P.pull body t.state).happened, ok x) :
    ∀ x ∈ P.happenings t (.pull n), ok x := by
  unfold happenings
  dsimp only
  split
  · exact h _
  · nofun

theorem happenings_pull_reading {body : P.Body} (h : t.slots[n]? = some (.reading body)) :
    P.happenings t (.pull n) = (P.pull body t.state).happened := by
  simp only [happenings, h]

theorem happenings_pull_idle (h : ∀ body, t.slots[n]? ≠ some (.reading body)) :
    P.happenings t (.pull n) = [] := by
  unfold happenings
  dsimp only
  split
  · next body hslot => exact absurd hslot (h body)
  · rfl

end

/-! ### All that can happen -/

/-- Whatever happens in the pipeline is of some kind. -/
structure Tells (ok : Happening → Prop) : Prop where
  start : ∀ now r p s, ∀ h ∈ (P.start now r p s).happened, ok h
  poll : ∀ now c s, ∀ h ∈ (P.poll now c s).happened, ok h
  pull : ∀ b s, ∀ h ∈ (P.pull b s).happened, ok h
  obey : ∀ now o s, ∀ h ∈ (P.obey now o s).happened, ok h

end Pipeline

/-- A handler tells of nothing. -/
theorem Handler.tells (ok : Happening → Prop) : Handler.pipeline.Tells ok where
  start _ _ e _ := by
    show ∀ h ∈ (Handler.start e _).happened, ok h
    unfold Handler.start
    dsimp only
    split <;> nofun
  poll _ c h := by
    show ∀ x ∈ (Handler.poll c h).happened, ok x
    unfold Handler.poll
    split
    · nofun
    · split <;> nofun
  pull b h := by
    cases b <;> nofun
  obey _ _ _ := nofun

end Floodgate
