/-
  Floodgate/Proofs/Settings/Documents.lean
  ========================================
  **Documents of settings.**  A document may write any of the fields, the sections and the
  fields in any order, with blanks and members that nothing knows among them.
  `ofText_document` says that reading it gives the default settings with those fields
  replaced, so that settings that are written out are read back as they are.

  Each section has a layout, with its values as the texts of its fields, and the layout of
  the settings has the sections for parts.  The values must fit the fields, which hold 32
  or 64 bits (`Settings.InRange`).
-/
import Floodgate.Proofs.Json.Written
import Floodgate.Settings.Reader

namespace Floodgate

open Json (Layout Part Reads Blank)

/-! ### What fits the fields -/

structure RateSettings.InRange (c : RateSettings) : Prop where
  burst : c.burst ≤ shortLimit
  idle : c.idleSeconds ≤ Json.wordLimit
  sweep : c.sweepSeconds ≤ Json.wordLimit
  adaptive : c.adaptiveSeconds ≤ Json.wordLimit

structure BreakerSettings.InRange (c : BreakerSettings) : Prop where
  failures : c.failureThreshold ≤ shortLimit
  cooldown : c.cooldownSeconds ≤ Json.wordLimit
  calls : c.halfOpenCalls ≤ shortLimit

structure CompressionSettings.InRange (c : CompressionSettings) : Prop where
  size : c.minSize ≤ Json.wordLimit
  level : c.level ≤ shortLimit

/-- Every number fits its field. -/
structure Settings.InRange (c : Settings) : Prop where
  rate : c.rate.InRange
  breaker : c.breaker.InRange
  compression : c.compression.InRange
  buckets : ∀ n ∈ c.meter.buckets, n ≤ Json.wordLimit

theorem reads_short {n : Nat} (h : n ≤ shortLimit) :
    Reads readShort (· = (Json.Value.nat n).written) n :=
  Json.reads_count h (by decide)

theorem reads_long {n : Nat} (h : n ≤ Json.wordLimit) :
    Reads readLong (· = (Json.Value.nat n).written) n :=
  Json.reads_count h (Nat.le_refl _)

/-! ### Sections -/

def RateSettings.layout (c : RateSettings) (h : c.InRange) : Layout RateSettings where
  parts :=
    [.of "enabled" (Json.reads_bool c.enabled) fun b s => { s with enabled := b },
     .of "requests_per_second" (Json.reads_real c.requestsPerSecond)
       fun x s => { s with requestsPerSecond := x },
     .of "burst" (reads_short h.burst) fun n s => { s with burst := n },
     .of "idle_ttl_secs" (reads_long h.idle) fun n s => { s with idleSeconds := n },
     .of "sweep_interval_secs" (reads_long h.sweep) fun n s => { s with sweepSeconds := n },
     .of "adaptive" (Json.reads_bool c.adaptive) fun b s => { s with adaptive := b },
     .of "adaptive_interval_secs" (reads_long h.adaptive) fun n s => { s with adaptiveSeconds := n }]
  distinct := by simp [Part.of]
  exchange := by simp [Part.of]

def BreakerSettings.layout (c : BreakerSettings) (h : c.InRange) : Layout BreakerSettings where
  parts :=
    [.of "enabled" (Json.reads_bool c.enabled) fun b s => { s with enabled := b },
     .of "failure_threshold" (reads_short h.failures) fun n s => { s with failureThreshold := n },
     .of "cooldown_secs" (reads_long h.cooldown) fun n s => { s with cooldownSeconds := n },
     .of "half_open_max_calls" (reads_short h.calls) fun n s => { s with halfOpenCalls := n }]
  distinct := by simp [Part.of]
  exchange := by simp [Part.of]

def CoalescingSettings.layout (c : CoalescingSettings) : Layout CoalescingSettings where
  parts := [.of "enabled" (Json.reads_bool c.enabled) fun b s => { s with enabled := b }]
  distinct := by simp
  exchange := by simp

def CompressionSettings.layout (c : CompressionSettings) (h : c.InRange) :
    Layout CompressionSettings where
  parts :=
    [.of "enabled" (Json.reads_bool c.enabled) fun b s => { s with enabled := b },
     .of "min_size" (reads_long h.size) fun n s => { s with minSize := n },
     .of "level" (reads_short h.level) fun n s => { s with level := n }]
  distinct := by simp [Part.of]
  exchange := by simp [Part.of]

def MeterSettings.layout (c : MeterSettings) (h : ∀ n ∈ c.buckets, n ≤ Json.wordLimit) :
    Layout MeterSettings where
  parts :=
    [.of "enabled" (Json.reads_bool c.enabled) fun b s => { s with enabled := b },
     .of "buckets_ms" (Json.reads_counts h (Nat.le_refl _)) fun ns s => { s with buckets := ns }]
  distinct := by simp [Part.of]
  exchange := by simp [Part.of]

namespace Settings

/-- The layout of settings whose sections write the fields `S`. -/
def layout (c : Settings) (h : c.InRange) (S : String → String → Bool) : Layout Settings where
  parts :=
    [.of "rate_limit" ((c.rate.layout h.rate).reads (S "rate_limit") {})
       fun r s => { s with rate := r },
     .of "circuit_breaker" ((c.breaker.layout h.breaker).reads (S "circuit_breaker") {})
       fun b s => { s with breaker := b },
     .of "coalescing" (c.coalescing.layout.reads (S "coalescing") {})
       fun k s => { s with coalescing := k },
     .of "compression" ((c.compression.layout h.compression).reads (S "compression") {})
       fun k s => { s with compression := k },
     .of "metrics" ((c.meter.layout h.buckets).reads (S "metrics") {})
       fun m s => { s with meter := m }]
  distinct := by simp [Part.of]
  exchange := by simp [Part.of]

/-- The parts are the fields that the reader of settings goes by. -/
theorem layout_sections (c : Settings) (h : c.InRange) (S : String → String → Bool) :
    (c.layout h S).parts.map Part.field = sections := rfl

end Settings

/-! ### Replaced fields -/

/-- Default settings with these fields as they are in `c`. -/
def RateSettings.replaced (c : RateSettings) (S : String → Bool) : RateSettings :=
  let stock : RateSettings := {}
  { enabled := if S "enabled" then c.enabled else stock.enabled
    requestsPerSecond :=
      if S "requests_per_second" then c.requestsPerSecond else stock.requestsPerSecond
    burst := if S "burst" then c.burst else stock.burst
    idleSeconds := if S "idle_ttl_secs" then c.idleSeconds else stock.idleSeconds
    sweepSeconds := if S "sweep_interval_secs" then c.sweepSeconds else stock.sweepSeconds
    adaptive := if S "adaptive" then c.adaptive else stock.adaptive
    adaptiveSeconds :=
      if S "adaptive_interval_secs" then c.adaptiveSeconds else stock.adaptiveSeconds }

def BreakerSettings.replaced (c : BreakerSettings) (S : String → Bool) : BreakerSettings :=
  let stock : BreakerSettings := {}
  { enabled := if S "enabled" then c.enabled else stock.enabled
    failureThreshold := if S "failure_threshold" then c.failureThreshold else stock.failureThreshold
    cooldownSeconds := if S "cooldown_secs" then c.cooldownSeconds else stock.cooldownSeconds
    halfOpenCalls := if S "half_open_max_calls" then c.halfOpenCalls else stock.halfOpenCalls }

def CoalescingSettings.replaced (c : CoalescingSettings) (S : String → Bool) : CoalescingSettings :=
  let stock : CoalescingSettings := {}
  { enabled := if S "enabled" then c.enabled else stock.enabled }

def CompressionSettings.replaced (c : CompressionSettings) (S : String → Bool) :
    CompressionSettings :=
  let stock : CompressionSettings := {}
  { enabled := if S "enabled" then c.enabled else stock.enabled
    minSize := if S "min_size" then c.minSize else stock.minSize
    level := if S "level" then c.level else stock.level }

def MeterSettings.replaced (c : MeterSettings) (S : String → Bool) : MeterSettings :=
  let stock : MeterSettings := {}
  { enabled := if S "enabled" then c.enabled else stock.enabled
    buckets := if S "buckets_ms" then c.buckets else stock.buckets }

/-- Default settings with the fields `S`, of a section and a name, as they are in `c`. -/
def Settings.replaced (c : Settings) (S : String → String → Bool) : Settings where
  rate := c.rate.replaced (S "rate_limit")
  breaker := c.breaker.replaced (S "circuit_breaker")
  coalescing := c.coalescing.replaced (S "coalescing")
  compression := c.compression.replaced (S "compression")
  meter := c.meter.replaced (S "metrics")

/-- With all fields replaced nothing is left of the default. -/
theorem Settings.replaced_all (c : Settings) : c.replaced (fun _ _ => true) = c := rfl

/-- A choice between settings is a choice field by field. -/
theorem RateSettings.ite_mk (b : Bool) (e e' : Bool) (r r' : Float) (n n' i i' w w' : Nat)
    (a a' : Bool) (t t' : Nat) :
    (if b then RateSettings.mk e r n i w a t else RateSettings.mk e' r' n' i' w' a' t') =
      ⟨if b then e else e', if b then r else r', if b then n else n', if b then i else i',
        if b then w else w', if b then a else a', if b then t else t'⟩ := by
  cases b <;> rfl

theorem RateSettings.layout_apply (c : RateSettings) (h : c.InRange) (S : String → Bool) :
    (c.layout h).apply S {} = c.replaced S := by
  simp only [Layout.apply, layout, List.foldl, Part.of, replaced, ite_mk, ite_self]

theorem BreakerSettings.layout_apply (c : BreakerSettings) (h : c.InRange) (S : String → Bool) :
    (c.layout h).apply S {} = c.replaced S := by
  simp only [Layout.apply, layout, List.foldl, Part.of, replaced]
  cases S "enabled" <;> cases S "failure_threshold" <;> cases S "cooldown_secs" <;>
    cases S "half_open_max_calls" <;> rfl

theorem CoalescingSettings.layout_apply (c : CoalescingSettings) (S : String → Bool) :
    c.layout.apply S {} = c.replaced S := by
  simp only [Layout.apply, layout, List.foldl, Part.of, replaced]
  cases S "enabled" <;> rfl

theorem CompressionSettings.layout_apply (c : CompressionSettings) (h : c.InRange)
    (S : String → Bool) : (c.layout h).apply S {} = c.replaced S := by
  simp only [Layout.apply, layout, List.foldl, Part.of, replaced]
  cases S "enabled" <;> cases S "min_size" <;> cases S "level" <;> rfl

theorem MeterSettings.layout_apply (c : MeterSettings) (h : ∀ n ∈ c.buckets, n ≤ Json.wordLimit)
    (S : String → Bool) : (c.layout h).apply S {} = c.replaced S := by
  simp only [Layout.apply, layout, List.foldl, Part.of, replaced]
  cases S "enabled" <;> cases S "buckets_ms" <;> rfl

namespace Settings

/-- A section that is not written has no field that is. -/
def Covers (T : String → Bool) (S : String → String → Bool) : Prop :=
  ∀ title name, S title name = true → T title = true

theorem Covers.none {T : String → Bool} {S : String → String → Bool} (h : Covers T S)
    {title : String} (htitle : T title = false) : S title = fun _ => false := by
  funext name
  by_contra hname
  have hwritten := h title name (by simpa using hname)
  rw [htitle] at hwritten
  cases hwritten

theorem ite_mk (b : Bool) (r r' : RateSettings) (k k' : BreakerSettings)
    (s s' : CoalescingSettings) (z z' : CompressionSettings) (m m' : MeterSettings) :
    (if b then Settings.mk r k s z m else Settings.mk r' k' s' z' m') =
      ⟨if b then r else r', if b then k else k', if b then s else s', if b then z else z',
        if b then m else m'⟩ := by
  cases b <;> rfl

theorem layout_apply (c : Settings) (h : c.InRange) {T : String → Bool}
    {S : String → String → Bool} (hT : Covers T S) : (c.layout h S).apply T {} = c.replaced S := by
  have hunwritten {α : Type} (title : String) (replaced : (String → Bool) → α) :
      (if T title then replaced (S title) else replaced fun _ => false) = replaced (S title) := by
    cases htitle : T title with
    | true => rfl
    | false =>
      rw [hT.none htitle]
      rfl
  rw [Layout.apply]
  simp only [layout, List.foldl, Part.of, ite_mk, ite_self, RateSettings.layout_apply,
    BreakerSettings.layout_apply, CoalescingSettings.layout_apply, CompressionSettings.layout_apply,
    MeterSettings.layout_apply, replaced, Settings.mk.injEq]
  exact ⟨hunwritten _ c.rate.replaced, hunwritten _ c.breaker.replaced,
    hunwritten _ c.coalescing.replaced, hunwritten _ c.compression.replaced,
    hunwritten _ c.meter.replaced⟩

/-! ### Documents -/

/-- A document that writes exactly the fields `S`, of a section and a name, with the values
    that they have in `c`: the sections of `T` in some order, in each of them its fields in
    some order, and members of other names anywhere.  A section that has no field to write
    may be there or not. -/
inductive Document (c : Settings) (h : c.InRange) (S : String → String → Bool) (text : String) :
    Prop where
  | written {T : String → Bool} {before body after : List Char} (hT : Covers T S)
      (hbefore : Blank before) (hbody : (c.layout h S).Writes T body) (hafter : Blank after)
      (htext : text.toList = before ++ (body ++ after)) : Document c h S text

theorem ofText_of_document {c : Settings} {h : c.InRange} {S : String → String → Bool}
    {text : String} (hdocument : c.Document h S text) : ofText text = .ok (c.replaced S) := by
  rcases hdocument with ⟨hT, hbefore, hbody, hafter, htext⟩
  have hread := (c.layout h S).reads _ {} hbefore hbody hafter.follows
  rw [layout_sections, layout_apply c h hT] at hread
  simp only [ofText, Json.document, htext, hread, Json.skipSpace_blank hafter, if_true]

/-- Settings that are written out are a document of all their fields. -/
theorem document_json (c : Settings) (h : c.InRange)
    (hreal : Json.readReal (Json.Value.real c.rate.requestsPerSecond).written =
      .ok (c.rate.requestsPerSecond, [])) :
    c.Document h (fun _ _ => true) c.json.text := by
  have hsections : (c.layout h fun _ _ => true).Writes (fun _ => true) c.json.written := by
    refine (c.layout h _).writes_written
      (.cons ⟨rfl, ?rate⟩ (.cons ⟨rfl, ?breaker⟩ (.cons ⟨rfl, ?coalescing⟩
        (.cons ⟨rfl, ?compression⟩ (.cons ⟨rfl, ?meter⟩ .nil)))))
    case rate =>
      exact (c.rate.layout h.rate).writes_written
        (.cons ⟨rfl, rfl⟩ (.cons ⟨rfl, hreal⟩ (.cons ⟨rfl, rfl⟩ (.cons ⟨rfl, rfl⟩
          (.cons ⟨rfl, rfl⟩ (.cons ⟨rfl, rfl⟩ (.cons ⟨rfl, rfl⟩ .nil)))))))
    case breaker =>
      exact (c.breaker.layout h.breaker).writes_written
        (.cons ⟨rfl, rfl⟩ (.cons ⟨rfl, rfl⟩ (.cons ⟨rfl, rfl⟩ (.cons ⟨rfl, rfl⟩ .nil))))
    case coalescing => exact c.coalescing.layout.writes_written (.cons ⟨rfl, rfl⟩ .nil)
    case compression =>
      exact (c.compression.layout h.compression).writes_written
        (.cons ⟨rfl, rfl⟩ (.cons ⟨rfl, rfl⟩ (.cons ⟨rfl, rfl⟩ .nil)))
    case meter =>
      exact (c.meter.layout h.buckets).writes_written
        (.cons ⟨rfl, rfl⟩ (.cons ⟨rfl, Json.countsText_written _⟩ .nil))
  exact .written (fun _ _ _ => rfl) .nil hsections .nil (by simp [Json.Value.text])

/-- Every document of settings is read as the default settings with the fields replaced
    that it writes, and settings that are written out are read back as they are.  For the
    latter, the text that is written for the rate has to denote this rate. -/
theorem documents_read_back (c : Settings) (h : c.InRange) :
    (∀ S text, c.Document h S text → ofText text = .ok (c.replaced S)) ∧
      (Json.readReal (Json.Value.real c.rate.requestsPerSecond).written =
        .ok (c.rate.requestsPerSecond, []) → ofText c.json.text = .ok c) := by
  constructor
  · intro S text hdocument
    exact ofText_of_document hdocument
  · intro hreal
    rw [ofText_of_document (document_json c h hreal), replaced_all]

/-- Sections and fields out of order, among them a member that nothing knows; what is not
    written keeps its default. -/
theorem partial_document_read_back :
    ofText ("\x7b\"metrics\": \x7b\"buckets_ms\":[5, 10]\x7d,\"notes\":[1,\x7b\"a\":null\x7d]," ++
        "\"rate_limit\":\x7b\"burst\":7,\"requests_per_second\":20\x7d\x7d") =
      .ok { rate := { requestsPerSecond := Float.ofNat 20, burst := 7 },
            meter := { buckets := [5, 10] } } := by
  let c : Settings :=
    { rate := { requestsPerSecond := Float.ofNat 20, burst := 7, idleSeconds := 1 },
      meter := { buckets := [5, 10] } }
  have h : c.InRange := by
    refine ⟨⟨?_, ?_, ?_, ?_⟩, ⟨?_, ?_, ?_⟩, ⟨?_, ?_⟩, ?_⟩ <;> decide
  let S : String → String → Bool := fun title name =>
    (title == "rate_limit" && (name == "burst" || name == "requests_per_second")) ||
      (title == "metrics" && name == "buckets_ms")
  let T : String → Bool := fun title => title == "rate_limit" || title == "metrics"
  have hT : Covers T S := by
    intro title name hwritten
    simp only [S, T, Bool.or_eq_true, Bool.and_eq_true] at hwritten ⊢
    exact hwritten.imp And.left And.left
  have hspaced (m : Char) : Json.Mark m [m, ' '] :=
    ⟨[], [' '], .nil, by simp [Blank, Json.isSpace], rfl⟩
  have hmeter : (c.meter.layout h.buckets).Writes (S "metrics")
      "\x7b\"buckets_ms\":[5, 10]\x7d".toList := by
    have hcounts : Json.CountsText [5, 10] "[5, 10]".toList :=
      ⟨_, .item Json.lead_start
        (.item (hspaced ',').lead (.closed .nil)), rfl⟩
    refine ⟨_, _, .refl _, .known Json.lead_start (.tail _ (.head _))
      (Json.spells_written _) (Json.mark_single ':') hcounts (.closed .nil), ?_⟩
    simp [Part.of, Json.writtenChar]
  have hrate : (c.rate.layout h.rate).Writes (S "rate_limit")
      "\x7b\"burst\":7,\"requests_per_second\":20\x7d".toList := by
    have hburst : (Json.Value.nat c.rate.burst).written = ['7'] := by
      change (Json.Value.nat 7).written = ['7']
      decide
    have htwenty : (Json.Value.nat 20).written = ['2', '0'] := by decide
    have hreal := Json.readReal_nat (n := 20) (by decide)
    refine ⟨_, _, .swap _ _ _, .known Json.lead_start (.tail _ (.tail _ (.head _)))
      (Json.spells_written _) (Json.mark_single ':') rfl
      (.known (Json.mark_single ',').lead (.tail _ (.head _))
        (Json.spells_written _) (Json.mark_single ':') hreal (.closed .nil)), ?_⟩
    simp [Part.of, Json.writtenChar, hburst, htwenty]
  have hnotes : Json.Valid .value "[1,\x7b\"a\":null\x7d]".toList := by
    have hone : Json.NumberText.Spelled ⟨false, ['1'], none, none⟩ ['1'] :=
      .parts (f := []) (e := []) (.digits ⟨by simp, by simp⟩ (by simp)) .absent .absent
    have hquoted : Json.Quoted ['a'] := .plain ⟨by decide, by decide, by decide⟩ .nil
    have hobject : Json.Valid .value "\x7b\"a\":null\x7d".toList :=
      .object .nil (.member hquoted (Json.mark_single ':')
        (.word (w := "null") (by simp)) .nil)
    exact .array .nil (.items (.number (.plain hone)) (Json.mark_single ',')
      (.item hobject .nil))
  have hsections : (c.layout h S).Writes T _ :=
    ⟨_, _, .swap _ _ _, .known Json.lead_start
        (.tail _ (.tail _ (.tail _ (.tail _ (.head _))))) (Json.spells_written _) (hspaced ':') hmeter
      (.unknown (Json.mark_single ',').lead (by simp [layout, Part.of])
        (Json.spells_written "notes".toList) (Json.mark_single ':') hnotes
        (.known (Json.mark_single ',').lead (.head _) (Json.spells_written _)
          (Json.mark_single ':') hrate (.closed .nil))), rfl⟩
  refine (documents_read_back c h).1 S _ (.written hT .nil hsections .nil ?_)
  simp [Part.of, Json.writtenChar]

end Settings

end Floodgate
