/-
  Floodgate/Http/Body.lean
  ========================
  **Bodies of responses.**  A body is read frame by frame: data, or trailers after
  it.  Asking for a frame (`Pull`) gives one, or a failure after which reading may go
  on, or the end, or nothing yet.  A body that is held in memory (`Replay`) gives all
  its data in one frame and its trailers in another.
-/
import Floodgate.Failure
import Floodgate.Http.Headers

namespace Floodgate.Http

inductive Frame where
  | data (bytes : Bytes)
  | trailers (fields : Headers)
deriving DecidableEq, Repr

/-- What is known about how many bytes of data are to come. -/
structure SizeHint where
  least : Nat
  most : Option Nat
deriving DecidableEq, Repr

def SizeHint.unknown : SizeHint := ⟨0, none⟩

def SizeHint.exact (n : Nat) : SizeHint := ⟨n, some n⟩

/-- What asking a body for a frame gives; `rest` is the body afterwards. -/
inductive Pull (β : Type) where
  | pending (rest : β)
  | frame (f : Frame) (rest : β)
  | failed (f : Failure) (rest : β)
  | ended (rest : β)

namespace Pull

variable {β γ : Type}

def map (wrap : β → γ) : Pull β → Pull γ
  | .pending rest => .pending (wrap rest)
  | .frame f rest => .frame f (wrap rest)
  | .failed f rest => .failed f (wrap rest)
  | .ended rest => .ended (wrap rest)

/-- Every frame and every failure makes the body shorter than `n`, by the given measure,
    and waiting does not make it longer. -/
def Shrinks (size : β → Nat) (n : Nat) : Pull β → Prop
  | .pending rest => size rest ≤ n
  | .frame _ rest => size rest < n
  | .failed _ rest => size rest < n
  | .ended _ => True

theorem Shrinks.map {size : β → Nat} {size' : γ → Nat} {wrap : β → γ}
    (hw : ∀ b, size' (wrap b) = size b) {n : Nat} {p : Pull β} (h : p.Shrinks size n) :
    (p.map wrap).Shrinks size' n := by
  cases p with
  | pending rest => simpa [Pull.map, Shrinks, hw] using h
  | frame f rest => simpa [Pull.map, Shrinks, hw] using h
  | failed f rest => simpa [Pull.map, Shrinks, hw] using h
  | ended rest => trivial

end Pull

structure Replay where
  data : Bytes
  trailers : Option Headers
deriving DecidableEq, Repr

namespace Replay

def ofBytes (data : Bytes) : Replay := ⟨data, none⟩

/-- The next frame: the data, if there is any left, then the trailers. -/
def pull (r : Replay) : Pull Replay :=
  match r.data, r.trailers with
  | [], none => .ended r
  | [], some t => .frame (.trailers t) ⟨[], none⟩
  | b :: rest, trailers => .frame (.data (b :: rest)) ⟨[], trailers⟩

def ended (r : Replay) : Bool := r.data.isEmpty && r.trailers.isNone

def hint (r : Replay) : SizeHint := .exact r.data.length

def size (r : Replay) : Nat :=
  (if r.data.isEmpty then 0 else 1) + (if r.trailers.isSome then 1 else 0)

theorem pull_shrinks (r : Replay) : r.pull.Shrinks size r.size := by
  obtain ⟨data, trailers⟩ := r
  cases data with
  | nil =>
    cases trailers with
    | none => simp [pull, Pull.Shrinks]
    | some t => simp [pull, Pull.Shrinks, size]
  | cons b rest => simp [pull, Pull.Shrinks, size]

end Replay

end Floodgate.Http
