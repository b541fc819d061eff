/-
  Floodgate/Session/Basic.lean
  ============================
  **Sessions.**  A session works a pipeline around a handler from outside, action by
  action: requests are made, answered, read and given up, time passes, and operators give
  orders.  After every action all calls go on as far as they can, and what can be seen
  then is written down.
-/
import Floodgate.Session.Handler
import Floodgate.Session.Live

namespace Floodgate

open Http (Bytes Request Response)

inductive Action where
  /-- Makes a request; its body is read, or left alone for now. -/
  | call (request : Request) (errand : Errand) (reads : Bool)
  | finish (id : String) (a : ScriptedAnswer)
  | drop (id : String)
  | read (id : String)
  | openGate (name : String)
  /-- Asks whether the pipeline is ready. -/
  | ready
  /-- Says whether the handler is ready from now on. -/
  | setReady (r : Readiness)
  | advance (d : Duration)
  | order (o : Order)
  | exportMetrics

inductive ActionResult where
  | nothing
  /-- The pipeline was asked whether it is ready; a call was not made. -/
  | readiness (r : Readiness)
  | answered (b : Bool)
  | dropped (n : Nat)
  | replied (r : Reply)
  | exported (r : Response Bytes)

structure Session (P : Pipeline Errand Handler) where
  now : Instant
  state : P.State
  /-- Calls under way, in the order in which they were made. -/
  live : List (Live P.Call P.Body)

/-- What can be seen after an action. -/
structure Record where
  reports : List Report
  reached : List String
  pending : List String
  views : List StageView
  result : ActionResult
  happened : List Happening

/-- The first edge among stages, as its exporter shows it. -/
def exported? : List StageView → Option (Response Bytes)
  | [] => none
  | .edge _ _ _ _ totals recorder :: _ =>
    some (Response.json 200 (recorder.snapshot totals.saved).json)
  | _ :: rest => exported? rest

namespace Session

variable {P : Pipeline Errand Handler}

def start (now : Instant) (state : P.State) : Session P := ⟨now, state, []⟩

def withState (s : Session P) (state : P.State) : Session P := { s with state }

def withHandler (s : Session P) (h : Handler) : Session P :=
  s.withState (P.withCore h s.state)

/-- Makes a request, if the pipeline is ready. -/
def call (request : Request) (errand : Errand) (reads : Bool) (s : Session P) :
    Step (Session P) ActionResult :=
  let asked := P.ready s.state
  match asked.1 with
  | .ready =>
    let started := P.start s.now request errand asked.2
    ⟨.nothing,
      { s with
          state := started.state
          live := s.live ++ [⟨errand.id, reads, .calling started.value⟩] },
      started.happened⟩
  | r => ⟨.readiness r, s.withState asked.2, []⟩

def drop (id : String) (s : Session P) : Step (Session P) ActionResult :=
  let given := s.live.filter fun l => l.id == id
  ⟨.dropped given.length,
    { s with
        state := given.foldl (fun state l => l.abandon P.toService state) s.state
        live := s.live.filter fun l => l.id != id },
    []⟩

def read (id : String) (s : Session P) : Session P :=
  { s with live := s.live.map fun l => if l.id == id then { l with reads := true } else l }

/-- Lets time pass; then background work is done.  What was started earlier has had its first
    turn by then. -/
def advance (d : Duration) (s : Session P) : Step (Session P) ActionResult :=
  let woken := P.obey s.now .wake s.state
  let now := s.now + d
  let worked := P.background now woken.state
  ⟨.nothing, { s with now, state := worked.state }, woken.happened ++ worked.happened⟩

def act (s : Session P) : Action → Step (Session P) ActionResult
  | .call request errand reads => s.call request errand reads
  | .finish id a =>
    let answered := (P.core s.state).answer id a
    ⟨.answered answered.1, s.withHandler answered.2, []⟩
  | .drop id => s.drop id
  | .read id => ⟨.nothing, s.read id, []⟩
  | .openGate name =>
    let h := P.core s.state
    ⟨.nothing, s.withHandler { h with opened := name :: h.opened }, []⟩
  | .ready =>
    let asked := P.ready s.state
    ⟨.readiness asked.1, s.withState asked.2, []⟩
  | .setReady r =>
    let h := P.core s.state
    ⟨.nothing, s.withHandler { h with readiness := r }, []⟩
  | .advance d => s.advance d
  | .order o =>
    let obeyed := P.obey s.now o s.state
    ⟨.replied obeyed.value, s.withState obeyed.state, obeyed.happened⟩
  | .exportMetrics =>
    ⟨match exported? (P.views s.state) with
      | some r => .exported r
      | none => .nothing,
      s, []⟩

/-- Does something, and lets all calls go on. -/
def step (s : Session P) (a : Action) : Record × Session P :=
  let before := (P.core s.state).reached.length
  let acted := s.act a
  let settled := Live.settle P.toService acted.state.now acted.state.live acted.state.state
  ({ reports := settled.value.reports
     reached := (P.core settled.state).reached.drop before
     pending := settled.value.live.map Live.id
     views := P.views settled.state
     result := acted.value
     happened := acted.happened ++ settled.happened },
    ⟨acted.state.now, settled.state, settled.value.live⟩)

/-- Does one thing after the other. -/
def run (s : Session P) : List Action → List Record × Session P
  | [] => ([], s)
  | a :: rest =>
    let stepped := s.step a
    let others := run stepped.2 rest
    (stepped.1 :: others.1, others.2)

end Session

end Floodgate
