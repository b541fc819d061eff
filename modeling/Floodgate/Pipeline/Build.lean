/-
  Floodgate/Pipeline/Build.lean
  =============================
  **Putting pipelines together.**  A pipeline is described by its stages, outermost
  first, and built around what it protects from the inside out.  The first stage that
  cannot be built, seen from the inside, is what is wrong with the description.  A
  stage of its own is the edge: all stages in their usual order, described by settings.
-/
import Floodgate.Coalescing.Signature
import Floodgate.Pipeline.Managed
import Floodgate.Settings.Check
import Floodgate.Settings.Reader

namespace Floodgate

universe u

/-! ### Descriptions of stages -/

/-- Admission control; it follows a load source if there is one. -/
structure LimiterSpec where
  enabled : Bool := true
  rate : Float := 100.0
  burst : Nat := 200
  idleTime : Duration := Controller.defaultIdleTime
  sweepInterval : Duration := Duration.ofSeconds 60
  key : ClientKey := .sender
  /-- What the load source says at first, and the time between two readings. -/
  load : Option (Float × Duration) := none
  name : String := Circuit.unnamed
  listeners : List Listener := []

structure BreakerSpec where
  enabled : Bool := true
  threshold : Nat := 5
  cooldown : Duration := Duration.ofSeconds 30
  probes : Nat := 3
  classifier : Classifier := .serverErrors
  name : String := Circuit.unnamed
  listeners : List Listener := []

/-- What requests have in common that are coalesced. -/
inductive CoalescingRule where
  | signature
  /-- Their path, whatever the method. -/
  | path
deriving DecidableEq, Repr

inductive CoalescingKey where
  | signature (s : Signature)
  | path (p : String)
deriving DecidableEq, Repr

def CoalescingRule.key (rule : CoalescingRule) (r : Http.Request) : Option CoalescingKey :=
  match rule with
  | .signature => (Signature.ofRequest r).map .signature
  | .path => some (.path r.target.path)

structure CoalescerSpec where
  enabled : Bool := true
  rule : CoalescingRule := .signature
  name : Option String := none

structure CompressorSpec where
  enabled : Bool := true
  minSize : Nat := 1024
  level : Nat := 6
  poolSize : Nat := 32
  name : String := Circuit.unnamed

structure MeterSpec where
  enabled : Bool := true
  buckets : List Nat := Histogram.defaultBounds
  name : String := Circuit.unnamed
  /-- Bytes saved elsewhere, to be reported with the latencies. -/
  saved : Nat := 0

/-- The edge: all stages, described by settings. -/
structure EdgeSpec where
  settings : Settings := {}
  /-- What the load source says at first, if there is one. -/
  load : Option Float := none
  name : String := "edge"
  /-- Settings that cannot be used are the caller's mistake. -/
  trusted : Bool := false

inductive StageSpec where
  | limiter (spec : LimiterSpec)
  | breaker (spec : BreakerSpec)
  | coalescer (spec : CoalescerSpec)
  | compressor (spec : CompressorSpec)
  | meter (spec : MeterSpec)
  | renderer
  | edge (spec : EdgeSpec)

/-! ### What can be wrong -/

inductive BuildFault where
  | rate
  | level
  | buckets (fault : BoundsFault)
  | settings (fault : SettingsFault)
  /-- Settings that were said to be right are not. -/
  | trustedSettings (fault : SettingsFault)

def BuildFault.message : BuildFault → String
  | .rate => "requests_per_second must be a positive finite number"
  | .level => "compression level must be between 0 and 9"
  | .buckets fault => "invalid metrics buckets: " ++ fault.message
  | .settings fault => fault.message
  | .trustedSettings fault => "invalid edge configuration: " ++ fault.message

/-- What is wrong with a limiter, if anything. -/
def LimiterSpec.fault? (spec : LimiterSpec) : Option BuildFault :=
  if usableRate spec.rate then none else some .rate

/-- What is wrong with a compressor, if anything. -/
def CompressorSpec.fault? (spec : CompressorSpec) : Option BuildFault :=
  if usableLevel spec.level then none else some .level

/-- What is wrong with a meter, if anything. -/
def MeterSpec.fault? (spec : MeterSpec) : Option BuildFault :=
  (boundsFault? spec.buckets).map .buckets

/-! ### Stages at work -/

def LimiterSpec.controller (spec : LimiterSpec) (now : Instant) : Controller Float :=
  Controller.new spec.rate spec.burst spec.idleTime (spec.load.map Prod.snd) now

/-- The state of a limiter at first. -/
def LimiterSpec.limiter (spec : LimiterSpec) (now : Instant) : Limiter Float :=
  { controller := spec.controller now
    load := (spec.load.map Prod.fst).getD 0.0
    sweepInterval := spec.sweepInterval
    sweeper := .idle }

def LimiterSpec.options (spec : LimiterSpec) : LimiterOptions :=
  ⟨spec.enabled, spec.key, ⟨spec.name, spec.listeners⟩⟩

/-- The circuit of a breaker at first. -/
def BreakerSpec.circuit (spec : BreakerSpec) (now : Instant) : Circuit :=
  Circuit.new spec.name spec.threshold spec.cooldown spec.probes now

def BreakerSpec.options (spec : BreakerSpec) : BreakerOptions :=
  ⟨spec.enabled, spec.classifier, ⟨spec.name, spec.listeners⟩⟩

def CoalescerSpec.options (spec : CoalescerSpec) : CoalescerOptions CoalescingKey :=
  ⟨spec.enabled, spec.rule.key, ⟨spec.name.getD Circuit.unnamed, []⟩⟩

def CoalescerSpec.described (spec : CoalescerSpec) : String :=
  Text.partialRecord "CoalesceConfig"
    [("enabled", Text.truth spec.enabled), ("name", Text.optional (spec.name.map Text.quoted))]

def CompressorSpec.options (spec : CompressorSpec) : CompressorOptions :=
  ⟨spec.enabled, spec.minSize, spec.level, ⟨spec.name, []⟩⟩

/-- The state of a compressor at first. -/
def CompressorSpec.compressor (spec : CompressorSpec) : Compressor :=
  ⟨.new spec.level spec.poolSize, .zero⟩

def CompressorSpec.described (spec : CompressorSpec) : String :=
  Text.record "CompressionConfig"
    [("enabled", Text.truth spec.enabled), ("min_size", toString spec.minSize),
     ("level", toString spec.level), ("pool_size", toString spec.poolSize),
     ("name", Text.quoted spec.name)]

def MeterSpec.options (spec : MeterSpec) : MeterOptions := ⟨spec.enabled, ⟨spec.name, []⟩⟩

/-- The recorder of a meter at first; bounds that cannot be used are replaced. -/
def MeterSpec.recorder (spec : MeterSpec) : Recorder :=
  match Histogram.ofBounds spec.buckets with
  | .ok h => .new h
  | .error _ => .new (.empty Histogram.defaultBounds)

def MeterSpec.described (spec : MeterSpec) : String :=
  Text.record "MetricsConfig"
    [("enabled", Text.truth spec.enabled), ("bounds_ms", Text.row (spec.buckets.map toString)),
     ("name", Text.quoted spec.name)]

/-! ### Pipelines at work -/

/-- A pipeline with its state and what happened while it was built. -/
structure Deployment (π η : Type) where
  pipeline : Pipeline π η
  state : pipeline.State
  happened : List Happening

namespace Deployment

variable {π η : Type}

def limited (spec : LimiterSpec) (now : Instant) (d : Deployment π η) : Deployment π η :=
  ⟨d.pipeline.limited spec.options, ⟨spec.limiter now, d.state⟩, d.happened⟩

def guarded (spec : BreakerSpec) (now : Instant) (d : Deployment π η) : Deployment π η :=
  ⟨d.pipeline.guarded spec.options, ⟨spec.circuit now, d.state⟩, d.happened⟩

def coalesced (spec : CoalescerSpec) (d : Deployment π η) : Deployment π η :=
  ⟨d.pipeline.coalesced spec.options, ⟨.none, d.state⟩, d.happened⟩

def compressed (c : Gzip.Codec) (spec : CompressorSpec) (d : Deployment π η) : Deployment π η :=
  ⟨d.pipeline.compressed c spec.options, ⟨spec.compressor, d.state⟩, d.happened⟩

def metered (spec : MeterSpec) (d : Deployment π η) : Deployment π η :=
  ⟨d.pipeline.metered spec.options spec.saved, ⟨spec.recorder, d.state⟩, d.happened⟩

def rendered (d : Deployment π η) : Deployment π η :=
  ⟨d.pipeline.rendered, ⟨none, d.state⟩, d.happened⟩

end Deployment

/-! ### The edge -/

namespace EdgeSpec

/-- Admission control of the edge.  Without a load source the rate is fixed. -/
def limiter (e : EdgeSpec) : LimiterSpec :=
  let r := e.settings.rate
  { enabled := r.enabled, rate := r.requestsPerSecond, burst := r.burst
    idleTime := Duration.ofSeconds r.idleSeconds
    sweepInterval := Duration.ofSeconds r.sweepSeconds
    load :=
      if r.adaptive then e.load.map fun x => (x, Duration.ofSeconds r.adaptiveSeconds) else none
    name := e.name }

def breaker (e : EdgeSpec) : BreakerSpec :=
  let b := e.settings.breaker
  { enabled := b.enabled, threshold := b.failureThreshold
    cooldown := Duration.ofSeconds b.cooldownSeconds, probes := b.halfOpenCalls, name := e.name }

def coalescer (e : EdgeSpec) : CoalescerSpec :=
  { enabled := e.settings.coalescing.enabled, name := some e.name }

def compressor (e : EdgeSpec) : CompressorSpec :=
  let c := e.settings.compression
  { enabled := c.enabled, minSize := c.minSize, level := c.level, name := e.name }

def meter (e : EdgeSpec) : MeterSpec :=
  { enabled := e.settings.meter.enabled, buckets := e.settings.meter.buckets, name := e.name }

/-- What is wrong with a stage, if anything; admission control is built last. -/
def stageFault? (e : EdgeSpec) : Option BuildFault :=
  (e.compressor.fault?.or e.meter.fault?).or e.limiter.fault?

/-- What happens when the edge is built. -/
def built (e : EdgeSpec) : List Happening :=
  let r := e.settings.rate
  let missing : List BuildEvent := if r.adaptive && e.load.isNone then [.loadSourceMissing] else []
  Badge.happenings ⟨e.name, []⟩ .build (missing ++ [.built r.requestsPerSecond r.burst])

end EdgeSpec

def joinedView : List StageView → List StageView
  | .renderer :: .limiter clients rate :: .breaker circuit :: .coalescer inFlight ::
      .compressor c :: .meter recorder _ :: rest =>
    .edge clients rate circuit inFlight c.totals recorder :: rest
  | views => views

/-- All stages of the edge around a pipeline, failures rendered outermost. -/
def Deployment.edge {π η : Type} (c : Gzip.Codec) (e : EdgeSpec) (now : Instant)
    (d : Deployment π η) : Deployment π η :=
  let whole := (((((d.metered e.meter).compressed c e.compressor).coalesced e.coalescer).guarded
    e.breaker now).limited e.limiter now).rendered
  ⟨{ whole.pipeline with views := fun s => joinedView (whole.pipeline.views s) }, whole.state,
    d.happened ++ e.built⟩

/-! ### Building -/

/-- The deployment, unless something is wrong. -/
def orFault {α : Type u} (fault : Option BuildFault) (a : α) : Except BuildFault α :=
  match fault with
  | none => .ok a
  | some f => .error f

def StageSpec.around {π η : Type} (c : Gzip.Codec) (now : Instant) (spec : StageSpec)
    (d : Deployment π η) : Except BuildFault (Deployment π η) :=
  match spec with
  | .limiter s => orFault s.fault? (d.limited s now)
  | .breaker s => .ok (d.guarded s now)
  | .coalescer s => .ok (d.coalesced s)
  | .compressor s => orFault s.fault? (d.compressed c s)
  | .meter s => orFault s.fault? (d.metered s)
  | .renderer => .ok d.rendered
  | .edge e =>
    match e.settings.fault? with
    | some fault => .error (if e.trusted then .trustedSettings fault else .settings fault)
    | none => orFault e.stageFault? (d.edge c e now)

/-- Stages, outermost first, around a pipeline; with a fault comes what had happened
    before it was found. -/
def buildAround {π η : Type} (c : Gzip.Codec) (now : Instant) (d : Deployment π η) :
    List StageSpec → Except (BuildFault × List Happening) (Deployment π η)
  | [] => .ok d
  | spec :: inner =>
    match buildAround c now d inner with
    | .error e => .error e
    | .ok built =>
      match spec.around c now built with
      | .error fault => .error (fault, built.happened)
      | .ok built => .ok built

end Floodgate
