/-
  Floodgate/Session/Handler.lean
  ==============================
  **A handler that is told what to answer.**  The handler notes every request that
  reaches it.  A request may bring its answer with it; otherwise the call waits until
  it is answered.  Answers are failures or responses whose bodies are held in memory or
  given item by item; an item may be a gate, which holds the body up until it is open.
-/
import Floodgate.Pipeline.Managed

namespace Floodgate

open Http (Frame Pull Replay Request Response SizeHint)

inductive BodyItem where
  | frame (f : Frame)
  | fail (f : Failure)
  | gate (name : String)
deriving DecidableEq, Repr

inductive ScriptedBody where
  | whole (r : Replay)
  | items (rest : List BodyItem)
deriving DecidableEq, Repr

abbrev ScriptedAnswer := Answer ScriptedBody

structure Errand where
  id : String
  /-- The answer, if it is known already. -/
  answer : Option ScriptedAnswer

abbrev Ticket := Nat

structure Handler where
  readiness : Readiness
  /-- How often it was asked whether it is ready. -/
  asked : Nat
  /-- Requests that reached it, in order. -/
  reached : List String
  waiting : Table Ticket String
  /-- Answers that have not been taken yet. -/
  answers : Table Ticket ScriptedAnswer
  next : Ticket
  opened : List String

namespace Handler

/-- A handler that is ready and has not been called. -/
def fresh : Handler := ⟨.ready, 0, [], [], [], 0, []⟩

inductive Call where
  | answered (a : ScriptedAnswer)
  | waiting (ticket : Ticket)

def start (e : Errand) (h : Handler) : Step Handler Call :=
  let h := { h with reached := h.reached ++ [e.id] }
  match e.answer with
  | some a => ⟨.answered a, h, []⟩
  | none =>
    ⟨.waiting h.next, { h with waiting := h.waiting.put h.next e.id, next := h.next + 1 }, []⟩

def poll (c : Call) (h : Handler) : Step Handler (Progress Call ScriptedBody) :=
  match c with
  | .answered a => ⟨.done a, h, []⟩
  | .waiting ticket =>
    match h.answers.get? ticket with
    | some a => ⟨.done a, { h with answers := h.answers.remove ticket }, []⟩
    | none => ⟨.pending (.waiting ticket), h, []⟩

def abandon (c : Call) (h : Handler) : Handler :=
  match c with
  | .answered _ => h
  | .waiting ticket =>
    { h with waiting := h.waiting.remove ticket, answers := h.answers.remove ticket }

/-- Answers the first waiting call of a request; whether there was one. -/
def answer (id : String) (a : ScriptedAnswer) (h : Handler) : Bool × Handler :=
  match h.waiting.find? fun w => w.2 == id with
  | some (ticket, _) =>
    (true, { h with waiting := h.waiting.remove ticket, answers := h.answers.put ticket a })
  | none => (false, h)

/-- The next frame of items; gates that are open are passed. -/
def pullItems (opened : List String) : List BodyItem → Pull (List BodyItem)
  | [] => .ended []
  | .frame f :: rest => .frame f rest
  | .fail f :: rest => .failed f rest
  | .gate name :: rest =>
    if opened.contains name then pullItems opened rest else .pending (.gate name :: rest)

theorem pullItems_shrinks (opened : List String) (items : List BodyItem) :
    (pullItems opened items).Shrinks List.length items.length := by
  induction items with
  | nil => trivial
  | cons item rest ih =>
    cases item with
    | frame f => simp [pullItems, Pull.Shrinks]
    | fail f => simp [pullItems, Pull.Shrinks]
    | gate name =>
      simp only [pullItems]
      split
      · cases hp : pullItems opened rest with
        | pending r =>
          rw [hp] at ih
          exact Nat.le_succ_of_le ih
        | frame f r =>
          rw [hp] at ih
          exact Nat.lt_succ_of_lt ih
        | failed f r =>
          rw [hp] at ih
          exact Nat.lt_succ_of_lt ih
        | ended r => trivial
      · exact Nat.le_refl _

def pull (b : ScriptedBody) (h : Handler) : Step Handler (Pull ScriptedBody) :=
  match b with
  | .whole r => ⟨r.pull.map .whole, h, []⟩
  | .items rest => ⟨(pullItems h.opened rest).map .items, h, []⟩

def hint : ScriptedBody → SizeHint
  | .whole r => r.hint
  | .items _ => .unknown

/-- Nothing is left; of items that is never known. -/
def ended : ScriptedBody → Bool
  | .whole r => r.ended
  | .items _ => false

def size : ScriptedBody → Nat
  | .whole r => r.size
  | .items rest => rest.length

theorem pull_shrinks (b : ScriptedBody) (h : Handler) :
    (pull b h).value.Shrinks size (size b) := by
  cases b with
  | whole r => exact Pull.Shrinks.map (fun _ => rfl) r.pull_shrinks
  | items rest => exact Pull.Shrinks.map (fun _ => rfl) (pullItems_shrinks h.opened rest)

def service : Service Errand where
  State := Handler
  Call := Call
  Body := ScriptedBody
  ready h := (h.readiness, { h with asked := h.asked + 1 })
  start _ _ e h := start e h
  poll _ c h := poll c h
  abandon := abandon
  pull := pull
  hint := hint
  ended := ended
  size := size
  pull_shrinks := pull_shrinks

def pipeline : Pipeline Errand Handler where
  toService := service
  core h := h
  withCore h _ := h
  obey _ _ h := ⟨.none, h, []⟩
  due _ _ := []
  views _ := []

end Handler

end Floodgate
