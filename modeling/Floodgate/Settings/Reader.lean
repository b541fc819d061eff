/-
  Floodgate/Settings/Reader.lean
  ==============================
  **Reading settings.**  A document of settings is a record of sections, each a record
  of fields.  What it does not mention keeps its default; members that no section
  knows are passed over.
-/
import Floodgate.Json.Record
import Floodgate.Settings.Basic

namespace Floodgate

def shortLimit : Nat := 4294967295

def readShort : List Char → Json.Reading Nat := Json.readCount shortLimit

def readLong : List Char → Json.Reading Nat := Json.readCount Json.wordLimit

def RateSettings.fields : List (Json.Field RateSettings) :=
  [.of "enabled" Json.readBool fun b s => { s with enabled := b },
   .of "requests_per_second" Json.readReal fun x s => { s with requestsPerSecond := x },
   .of "burst" readShort fun n s => { s with burst := n },
   .of "idle_ttl_secs" readLong fun n s => { s with idleSeconds := n },
   .of "sweep_interval_secs" readLong fun n s => { s with sweepSeconds := n },
   .of "adaptive" Json.readBool fun b s => { s with adaptive := b },
   .of "adaptive_interval_secs" readLong fun n s => { s with adaptiveSeconds := n }]

def BreakerSettings.fields : List (Json.Field BreakerSettings) :=
  [.of "enabled" Json.readBool fun b s => { s with enabled := b },
   .of "failure_threshold" readShort fun n s => { s with failureThreshold := n },
   .of "cooldown_secs" readLong fun n s => { s with cooldownSeconds := n },
   .of "half_open_max_calls" readShort fun n s => { s with halfOpenCalls := n }]

def CoalescingSettings.fields : List (Json.Field CoalescingSettings) :=
  [.of "enabled" Json.readBool fun b s => { s with enabled := b }]

def CompressionSettings.fields : List (Json.Field CompressionSettings) :=
  [.of "enabled" Json.readBool fun b s => { s with enabled := b },
   .of "min_size" readLong fun n s => { s with minSize := n },
   .of "level" readShort fun n s => { s with level := n }]

def MeterSettings.fields : List (Json.Field MeterSettings) :=
  [.of "enabled" Json.readBool fun b s => { s with enabled := b },
   .of "buckets_ms" (Json.readCounts Json.wordLimit) fun ns s => { s with buckets := ns }]

namespace Settings

def sections : List (Json.Field Settings) :=
  [.of "rate_limit" (Json.readRecord RateSettings.fields false {}) fun r s => { s with rate := r },
   .of "circuit_breaker" (Json.readRecord BreakerSettings.fields false {})
     fun b s => { s with breaker := b },
   .of "coalescing" (Json.readRecord CoalescingSettings.fields false {})
     fun c s => { s with coalescing := c },
   .of "compression" (Json.readRecord CompressionSettings.fields false {})
     fun c s => { s with compression := c },
   .of "metrics" (Json.readRecord MeterSettings.fields false {}) fun m s => { s with meter := m }]

def ofText (text : String) : Except Json.Fault Settings :=
  Json.document (Json.readRecord sections false {}) text

end Settings

end Floodgate
