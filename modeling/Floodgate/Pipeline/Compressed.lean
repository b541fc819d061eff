/-
  Floodgate/Pipeline/Compressed.lean
  ==================================
  **The stage that compresses responses.**  A response to a request that accepts gzip is
  compressed if it is no error, is not encoded already and has enough data.  To find
  out, the stage reads the body until there is enough or the body ends; a body that
  ends before is given as it is, from memory.  Whether a response is compressed thus
  depends on its data and not on how the data is cut into frames.  That a body with
  enough data is given as it is because no member can be begun is left out, since no
  encoder fails.
-/
import Floodgate.Pipeline.Encoded
import Floodgate.Pipeline.Relayed

namespace Floodgate

open Http (Bytes Frame Head Headers Pull Replay Request SizeHint)

structure CompressorOptions where
  enabled : Bool
  /-- Bytes of data from which on a response is compressed. -/
  minSize : Nat
  level : Nat
  badge : Badge

structure Compressor where
  pool : Gzip.Pool
  totals : Gzip.Totals
deriving DecidableEq, Repr

namespace Compressed

/-! ### Heads -/

def eligible (h : Head) : Bool :=
  !h.status.isClientError && !h.status.isServerError && !h.headers.has "content-encoding"

/-- The text of a `Vary` value covers requests that differ in what encodings they accept. -/
def coversEncoding (value : List Char) : Bool :=
  (Text.split ',' value).any fun item =>
    Text.trim item == ['*'] || Text.sameLetters (Text.trim item) "accept-encoding".toList

/-- The fields with `Vary` covering the accepted encodings. -/
def withVary (hs : Headers) : Headers :=
  if (hs.texts "vary").any coversEncoding then hs
  else hs.append "vary" (Http.utf8 "Accept-Encoding")

def encodedHeaders (hs : Headers) : Headers :=
  withVary ((hs.remove "content-length").replace "content-encoding" (Http.utf8 "gzip"))

def encodedHead (h : Head) : Head := { h with headers := encodedHeaders h.headers }

/-! ### Bodies -/

inductive Body (ε β : Type) where
  | relayed (b : Relayed β)
  | encoded (e : Encoded ε β)

variable {π : Type} (c : Gzip.Codec) (S : Service π)

abbrev State := Layered Compressor S.State

/-- Accounts for a finished member: its encoder goes back to the pool. -/
def account (o : CompressorOptions) (k : Compressor) (f : Encoded.Finished) :
    Compressor × List Happening :=
  (⟨k.pool.release, k.totals.record f.bytesIn f.bytesOut⟩,
    [⟨o.badge, .compression (.finished f.bytesIn f.bytesOut)⟩])

def pull (o : CompressorOptions) (b : Body c.Encoder S.Body) (s : State S) :
    Step (State S) (Pull (Body c.Encoder S.Body)) :=
  match b with
  | .relayed b => (Relayed.pull S b s).map (.map .relayed)
  | .encoded e =>
    let pulled := Encoded.pull c S e s.inner
    match pulled.value.2 with
    | none => ⟨pulled.value.1.map .encoded, ⟨s.own, pulled.state⟩, pulled.happened⟩
    | some finished =>
      let accounted := account o s.own finished
      ⟨pulled.value.1.map .encoded, ⟨accounted.1, pulled.state⟩, pulled.happened ++ accounted.2⟩

/-- What is known about the size of a body; of an encoded one nothing is. -/
def hint : Body c.Encoder S.Body → SizeHint
  | .relayed b => Relayed.hint S b
  | .encoded _ => .unknown

def ended : Body c.Encoder S.Body → Bool
  | .relayed b => Relayed.ended S b
  | .encoded e => e.ended

/-- Frames to come, at most. -/
def size : Body c.Encoder S.Body → Nat
  | .relayed b => Relayed.size S b
  | .encoded e => e.size S.size

theorem pull_shrinks (o : CompressorOptions) (b : Body c.Encoder S.Body) (s : State S) :
    (pull c S o b s).value.Shrinks (size c S) (size c S b) := by
  cases b with
  | relayed b => exact Pull.Shrinks.map (fun _ => rfl) (Relayed.pull_shrinks S b s)
  | encoded e =>
    have h : ((Encoded.pull c S e s.inner).value.1.map Body.encoded).Shrinks
        (size c S) (size c S (.encoded e)) :=
      Pull.Shrinks.map (fun _ => rfl) (Encoded.pull_shrinks c S e s.inner)
    cases hv : (Encoded.pull c S e s.inner).value.2 with
    | none =>
      simp only [pull, hv]
      exact h
    | some finished =>
      simp only [pull, hv]
      exact h

/-! ### Calls -/

inductive Call (κ β : Type) where
  /-- The response is not to be compressed. -/
  | passed (inner : κ)
  /-- The response is to be compressed if it may. -/
  | negotiated (inner : κ)
  /-- The body is read to see whether it has enough data. -/
  | measuring (head : Head) (data : Bytes) (rest : β)

def start (o : CompressorOptions) (now : Instant) (r : Request) (p : π) (s : State S) :
    Step (State S) (Call S.Call S.Body) :=
  let wrap : S.Call → Call S.Call S.Body :=
    if o.enabled && Http.acceptsGzip r.headers then .negotiated else .passed
  ((S.start now r p s.inner).under s.own).map wrap

inductive Measured (β : Type) where
  | pending (data : Bytes) (rest : β)
  | enough (data : Bytes) (rest : β)
  | short (data : Bytes) (trailers : Option Headers)
  | failed (f : Failure)

/-- Reads a body until there is enough data, after data that has been read; `fuel`
    bounds the frames. -/
def measure (minSize : Nat) : Nat → Bytes → S.Body → S.State → Step S.State (Measured S.Body)
  | 0, data, body, s => ⟨.pending data body, s, []⟩
  | fuel + 1, data, body, s =>
    if minSize ≤ data.length then ⟨.enough data body, s, []⟩
    else
      let pulled := S.pull body s
      match pulled.value with
      | .pending rest => ⟨.pending data rest, pulled.state, pulled.happened⟩
      | .frame (.data bytes) rest =>
        (measure minSize fuel (data ++ bytes) rest pulled.state).after pulled.happened
      | .frame (.trailers fields) _ =>
        ⟨.short data (some fields), pulled.state, pulled.happened⟩
      | .failed f _ => ⟨.failed f, pulled.state, pulled.happened⟩
      | .ended _ => ⟨.short data none, pulled.state, pulled.happened⟩

def told (o : CompressorOptions) (d : Gzip.Decision) : List Happening :=
  [⟨o.badge, .compression (.decided d)⟩]

/-- The answer with a body that is not encoded. -/
def plain (h : Head) (b : Relayed S.Body) :
    Progress (Call S.Call S.Body) (Body c.Encoder S.Body) :=
  .done (.ok ⟨h, .relayed b⟩)

/-- A body is measured, as far as it goes.  One that has enough data is encoded; there is no
    falling back on the data as it is, which is for encoders that fail on it. -/
def decide (o : CompressorOptions) (head : Head) (data : Bytes) (body : S.Body) (s : State S) :
    Step (State S) (Progress (Call S.Call S.Body) (Body c.Encoder S.Body)) :=
  let measured := measure S o.minSize (S.size body + 2) data body s.inner
  match measured.value with
  | .pending data rest =>
    ⟨.pending (.measuring head data rest), ⟨s.own, measured.state⟩, measured.happened⟩
  | .failed f => ⟨.done (.error f), ⟨s.own, measured.state⟩, measured.happened⟩
  | .short data trailers =>
    ⟨plain c S head (.own ⟨data, trailers⟩), ⟨s.own, measured.state⟩,
      measured.happened ++ told o .belowThreshold⟩
  | .enough data rest =>
    ⟨.done (.ok ⟨encodedHead head, .encoded (Encoded.start c S s.own.pool.level data rest)⟩),
      ⟨{ s.own with pool := s.own.pool.acquire }, measured.state⟩,
      measured.happened ++ told o .compressed⟩

def poll (o : CompressorOptions) (now : Instant) (call : Call S.Call S.Body) (s : State S) :
    Step (State S) (Progress (Call S.Call S.Body) (Body c.Encoder S.Body)) :=
  match call with
  | .passed inner =>
    ((S.poll now inner s.inner).under s.own).map (.map .passed fun b => .relayed (.passed b))
  | .negotiated inner =>
    let polled := S.poll now inner s.inner
    let s := ⟨s.own, polled.state⟩
    match polled.value with
    | .pending inner => ⟨.pending (.negotiated inner), s, polled.happened⟩
    | .done (.error f) => ⟨.done (.error f), s, polled.happened⟩
    | .done (.ok r) =>
      if eligible r.head then (decide c S o r.head [] r.body s).after polled.happened
      else ⟨plain c S r.head (.passed r.body), s, polled.happened ++ told o .ineligible⟩
  | .measuring head data body => decide c S o head data body s

def service (o : CompressorOptions) : Service π where
  State := State S
  Call := Call S.Call S.Body
  Body := Body c.Encoder S.Body
  ready s := let r := S.ready s.inner; (r.1, ⟨s.own, r.2⟩)
  start := start S o
  poll := poll c S o
  abandon call s :=
    match call with
    | .passed inner => ⟨s.own, S.abandon inner s.inner⟩
    | .negotiated inner => ⟨s.own, S.abandon inner s.inner⟩
    | .measuring .. => s
  pull := pull c S o
  hint := hint c S
  ended := ended c S
  size := size c S
  pull_shrinks := pull_shrinks c S o

end Compressed

end Floodgate
