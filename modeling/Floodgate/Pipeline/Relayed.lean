/-
  Floodgate/Pipeline/Relayed.lean
  ===============================
  **Bodies of stages that answer themselves.**  Some stages answer with bodies of their
  own, which they hold in memory, and otherwise pass on those of the inner service.
-/
import Floodgate.Pipeline.Service

namespace Floodgate

open Http (Pull Replay SizeHint)

/-- A body of the stage's own or one that it passes on. -/
inductive Relayed (β : Type) where
  | own (r : Replay)
  | passed (inner : β)

namespace Relayed

variable {π : Type} {τ : Type} (S : Service π)

def pull (b : Relayed S.Body) (s : Layered τ S.State) :
    Step (Layered τ S.State) (Pull (Relayed S.Body)) :=
  match b with
  | .own r => ⟨r.pull.map .own, s, []⟩
  | .passed inner => ((S.pull inner s.inner).under s.own).map (.map .passed)

def hint : Relayed S.Body → SizeHint
  | .own r => r.hint
  | .passed inner => S.hint inner

def ended : Relayed S.Body → Bool
  | .own r => r.ended
  | .passed inner => S.ended inner

def size : Relayed S.Body → Nat
  | .own r => r.size
  | .passed inner => S.size inner

theorem pull_shrinks (b : Relayed S.Body) (s : Layered τ S.State) :
    (pull S b s).value.Shrinks (size S) (size S b) := by
  cases b with
  | own r => exact Pull.Shrinks.map (fun _ => rfl) r.pull_shrinks
  | passed inner => exact Pull.Shrinks.map (fun _ => rfl) (S.pull_shrinks inner s.inner)

end Relayed

end Floodgate
