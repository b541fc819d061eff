/-
  Floodgate/Pipeline/Coalesced.lean
  =================================
  **The stage that coalesces requests.**  Of identical requests only the leader reaches
  the inner service.  The leader reads the whole response, body included, before it
  answers; it and all who joined it get copies of what was captured.  Trailers and
  notes attached to the response are not captured.
-/
import Floodgate.Coalescing.Flights
import Floodgate.Pipeline.Relayed

namespace Floodgate

open Http (Bytes Frame Headers Head Replay Request Response Status)

/-- A response held in memory, to be given to any number of callers. -/
structure Captured where
  status : Status
  version : String
  headers : Headers
  body : Bytes
deriving DecidableEq, Repr

namespace Captured

def ofHead (h : Head) (body : Bytes) : Captured := ⟨h.status, h.version, h.headers, body⟩

def response (c : Captured) : Response Replay :=
  ⟨⟨c.status, c.version, c.headers, none⟩, .ofBytes c.body⟩

end Captured

structure CoalescerOptions (K : Type) where
  enabled : Bool
  /-- What identical requests have in common; requests without it pass by. -/
  key : Request → Option K
  badge : Badge

/-- The key of a request, if it is coalesced. -/
def CoalescerOptions.key? {K : Type} (o : CoalescerOptions K) (r : Request) : Option K :=
  if o.enabled then o.key r else none

namespace Coalesced

variable {π : Type} {K : Type} [DecidableEq K]

inductive Call (K κ β : Type) where
  | passed (inner : κ)
  /-- Executing, until the inner service answers. -/
  | leading (key : K) (inner : κ)
  /-- Executing, while the body is captured. -/
  | capturing (key : K) (head : Head) (data : Bytes) (rest : β)
  | waiting (flight : FlightId)

abbrev State (K : Type) (S : Service π) := Layered (Flights K Captured) S.State

def told (o : CoalescerOptions K) (e : CoalescingEvent) : List Happening :=
  [⟨o.badge, .coalescing e⟩]

def start (o : CoalescerOptions K) (S : Service π) (now : Instant) (r : Request) (p : π)
    (s : State K S) : Step (State K S) (Call K S.Call S.Body) :=
  match o.key? r with
  | none => (((S.start now r p s.inner).under s.own).map .passed).after (told o .bypassed)
  | some key =>
    let joined := s.own.join key
    match joined.1 with
    | .waiter flight => ⟨.waiting flight, ⟨joined.2, s.inner⟩, told o .joined⟩
    | .leader =>
      (((S.start now r p s.inner).under joined.2).map (.leading key)).after
        (told o (.led joined.2.size))

inductive Capture (β : Type) where
  | pending (data : Bytes) (rest : β)
  | whole (data : Bytes)
  | failed (f : Failure)

/-- Reads a body as far as it goes, after data that has been read; `fuel` bounds the frames. -/
def capture (S : Service π) : Nat → Bytes → S.Body → S.State → Step S.State (Capture S.Body)
  | 0, data, body, s => ⟨.pending data body, s, []⟩
  | fuel + 1, data, body, s =>
    let pulled := S.pull body s
    match pulled.value with
    | .pending rest => ⟨.pending data rest, pulled.state, pulled.happened⟩
    | .frame (.data bytes) rest =>
      (capture S fuel (data ++ bytes) rest pulled.state).after pulled.happened
    | .frame (.trailers _) rest => (capture S fuel data rest pulled.state).after pulled.happened
    | .failed f _ => ⟨.failed f, pulled.state, pulled.happened⟩
    | .ended _ => ⟨.whole data, pulled.state, pulled.happened⟩

def delivered {β : Type} (result : Except Failure Captured) : Answer (Relayed β) :=
  match result with
  | .ok c => .ok (c.response.withBody (.own c.response.body))
  | .error f => .error f

def conclude (o : CoalescerOptions K) (S : Service π) (key : K)
    (result : Except Failure Captured) (s : State K S) :
    Step (State K S) (Progress (Call K S.Call S.Body) (Relayed S.Body)) :=
  let completed := s.own.complete key result
  ⟨.done (delivered completed.1), ⟨completed.2.2, s.inner⟩,
    match completed.2.1 with
    | some waiters => told o (.completed waiters)
    | none => []⟩

def gather (o : CoalescerOptions K) (S : Service π) (key : K) (head : Head) (data : Bytes)
    (body : S.Body) (s : State K S) :
    Step (State K S) (Progress (Call K S.Call S.Body) (Relayed S.Body)) :=
  let read := capture S (S.size body + 1) data body s.inner
  match read.value with
  | .pending data rest =>
    ⟨.pending (.capturing key head data rest), ⟨s.own, read.state⟩, read.happened⟩
  | .whole data =>
    (conclude o S key (.ok (.ofHead head data)) ⟨s.own, read.state⟩).after read.happened
  | .failed f => (conclude o S key (.error f) ⟨s.own, read.state⟩).after read.happened

def poll (o : CoalescerOptions K) (S : Service π) (now : Instant)
    (c : Call K S.Call S.Body) (s : State K S) :
    Step (State K S) (Progress (Call K S.Call S.Body) (Relayed S.Body)) :=
  match c with
  | .passed inner => ((S.poll now inner s.inner).under s.own).map (.map .passed .passed)
  | .leading key inner =>
    let polled := S.poll now inner s.inner
    match polled.value with
    | .pending inner => ⟨.pending (.leading key inner), ⟨s.own, polled.state⟩, polled.happened⟩
    | .done (.ok r) =>
      (gather o S key r.head [] r.body ⟨s.own, polled.state⟩).after polled.happened
    | .done (.error f) =>
      (conclude o S key (.error f) ⟨s.own, polled.state⟩).after polled.happened
  | .capturing key head data body => gather o S key head data body s
  | .waiting flight =>
    match s.own.landing? flight with
    | none => ⟨.pending (.waiting flight), s, []⟩
    | some (.completed result) => ⟨.done (delivered result), s, []⟩
    | some .cancelled => ⟨.done (.error .leaderCancelled), s, told o .leaderLost⟩

def abandon (S : Service π) (c : Call K S.Call S.Body) (s : State K S) : State K S :=
  match c with
  | .passed inner => ⟨s.own, S.abandon inner s.inner⟩
  | .leading key inner => ⟨s.own.cancel key, S.abandon inner s.inner⟩
  | .capturing key _ _ _ => ⟨s.own.cancel key, s.inner⟩
  | .waiting _ => s

def service (o : CoalescerOptions K) (S : Service π) : Service π where
  State := State K S
  Call := Call K S.Call S.Body
  Body := Relayed S.Body
  ready s := let r := S.ready s.inner; (r.1, ⟨s.own, r.2⟩)
  start := start o S
  poll := poll o S
  abandon := abandon S
  pull := Relayed.pull S
  hint := Relayed.hint S
  ended := Relayed.ended S
  size := Relayed.size S
  pull_shrinks := Relayed.pull_shrinks S

end Coalesced

end Floodgate
