/-
  Floodgate/Settings/Basic.lean
  =============================
  **Settings of a whole pipeline.**  The settings have a section for every stage, and
  every field has a default, so that the empty document describes the stock pipeline.
  Times are whole seconds.  The settings are written as a JSON record whose fields
  stand in the order of their declaration.
-/
import Floodgate.Clock
import Floodgate.Json.Value
import Floodgate.Latency.Histogram

namespace Floodgate

structure RateSettings where
  enabled : Bool := true
  requestsPerSecond : Float := 100.0
  burst : Nat := 200
  idleSeconds : Nat := 300
  sweepSeconds : Nat := 60
  /-- The rate follows the load, if there is a load source. -/
  adaptive : Bool := false
  adaptiveSeconds : Nat := 10
deriving BEq

structure BreakerSettings where
  enabled : Bool := true
  failureThreshold : Nat := 5
  cooldownSeconds : Nat := 30
  halfOpenCalls : Nat := 3
deriving BEq

structure CoalescingSettings where
  enabled : Bool := true
deriving BEq

structure CompressionSettings where
  enabled : Bool := true
  minSize : Nat := 1024
  level : Nat := 6
deriving BEq

structure MeterSettings where
  enabled : Bool := true
  /-- Upper bounds of the histogram's buckets in milliseconds. -/
  buckets : List Nat := Histogram.defaultBounds
deriving BEq

structure Settings where
  rate : RateSettings := {}
  breaker : BreakerSettings := {}
  coalescing : CoalescingSettings := {}
  compression : CompressionSettings := {}
  meter : MeterSettings := {}
deriving BEq

namespace Settings

def json (s : Settings) : Json.Value :=
  .object
    [("rate_limit", .object
       [("enabled", .bool s.rate.enabled),
        ("requests_per_second", .real s.rate.requestsPerSecond),
        ("burst", .nat s.rate.burst),
        ("idle_ttl_secs", .nat s.rate.idleSeconds),
        ("sweep_interval_secs", .nat s.rate.sweepSeconds),
        ("adaptive", .bool s.rate.adaptive),
        ("adaptive_interval_secs", .nat s.rate.adaptiveSeconds)]),
     ("circuit_breaker", .object
       [("enabled", .bool s.breaker.enabled),
        ("failure_threshold", .nat s.breaker.failureThreshold),
        ("cooldown_secs", .nat s.breaker.cooldownSeconds),
        ("half_open_max_calls", .nat s.breaker.halfOpenCalls)]),
     ("coalescing", .object [("enabled", .bool s.coalescing.enabled)]),
     ("compression", .object
       [("enabled", .bool s.compression.enabled),
        ("min_size", .nat s.compression.minSize),
        ("level", .nat s.compression.level)]),
     ("metrics", .object
       [("enabled", .bool s.meter.enabled),
        ("buckets_ms", .array (s.meter.buckets.map .nat))])]

end Settings

end Floodgate
