/-
  Floodgate/Proofs/Admission/Adjustments.lean
  ===========================================
  **The rate follows the load, and whoever watches can follow it.**  A limiter with a load
  source reads it when a request comes, but never within an interval of the reading before
  or of its own creation.  Each reading sets the rate, whether that is another one or not;
  if it is, the limiter tells of it.

  So what a limiter tells is a function of what it has read (`adjustments`), and the rate
  is one of the last reading.  That the changes told of lead from the base rate to the
  rate in force, each from where the one before it led (`Connected`), is not quite the
  same: a reading that does not differ from the rate is passed over, and floating-point
  numbers that do not differ need not be equal.  Rates are unsigned, so they are.

  Nothing is assumed of the loads, which may be anything that a floating-point number is.
-/
import Floodgate.Pipeline.Build
import Floodgate.Proofs.Number.Positive
import Floodgate.Proofs.Observe.Outside
import Mathlib.Data.List.Chain

namespace Floodgate

/-! ### Rates and readings -/

/-- The load as the limiter takes it. -/
def tameLoad (load : Float) : Float :=
  Quantity.clamp (Quantity.ofNat 0) (Quantity.ofNat 1) load

/-- The rate that a load makes of the base rate. -/
def loadedRate (base load : Float) : Float := base * rateFactor (tameLoad load)

/-- The rate after some readings; `rate` before any. -/
def rateAfter (base rate : Float) (loads : List Float) : Float :=
  (loads.getLast?.map (loadedRate base)).getD rate

/-- The changes of the rate that some readings make, in order. -/
def adjustments (base : Float) : Float → List Float → List (RateChange Float)
  | _, [] => []
  | rate, load :: loads =>
    if rate != loadedRate base load then
      ⟨tameLoad load, rate, loadedRate base load⟩ :: adjustments base (loadedRate base load) loads
    else adjustments base (loadedRate base load) loads

/-- Changes that lead from the one rate to the other, each from where the last one led.  None of
    them changes nothing. -/
inductive Connected : Float → List (RateChange Float) → Float → Prop
  | nil (rate : Float) : Connected rate [] rate
  | cons {rate rate' : Float} {change : RateChange Float} {changes : List (RateChange Float)}
      (starts : change.previous = rate) (differs : (change.previous != change.current) = true)
      (rest : Connected change.current changes rate') : Connected rate (change :: changes) rate'

/-- The last change leads to where all of them lead. -/
theorem Connected.getLast? {rate rate' : Float} {changes : List (RateChange Float)}
    (h : Connected rate changes rate') :
    changes.getLast?.map RateChange.current = if changes = [] then none else some rate' := by
  induction h with
  | nil rate => rfl
  | @cons rate rate' change changes starts differs rest ih =>
    cases changes with
    | nil =>
      cases rest
      simp
    | cons next changes =>
      rw [List.getLast?_cons_cons, ih]
      simp

section

variable {base rate : Float}

theorem rateAfter_cons (load : Float) (loads : List Float) :
    rateAfter base rate (load :: loads) = rateAfter base (loadedRate base load) loads := by
  cases loads with
  | nil => rfl
  | cons next loads => rfl

theorem rateAfter_concat (loads : List Float) (load : Float) :
    rateAfter base rate (loads ++ [load]) = loadedRate base load := by
  simp [rateAfter]

/-- One more reading makes one more change, if it makes any. -/
theorem adjustments_concat (loads : List Float) (load : Float) :
    adjustments base rate (loads ++ [load]) =
      adjustments base rate loads ++
        if rateAfter base rate loads != loadedRate base load then
          [⟨tameLoad load, rateAfter base rate loads, loadedRate base load⟩]
        else [] := by
  induction loads generalizing rate with
  | nil => rfl
  | cons first loads ih =>
    rw [List.cons_append, adjustments, adjustments, ih, rateAfter_cons]
    by_cases hfirst : (rate != loadedRate base first) = true
    · rw [if_pos hfirst, if_pos hfirst, List.cons_append]
    · rw [if_neg hfirst, if_neg hfirst]

/-- A load reduces the rate by a positive finite factor. -/
theorem usableRate_rateFactor (load : Float) : usableRate (rateFactor load) = true := by
  unfold rateFactor
  split_ifs
  · decide +kernel
  · decide +kernel
  · decide +kernel

theorem unsigned_loadedRate (hbase : usableRate base = true) (load : Float) :
    Unsigned (loadedRate base load) :=
  unsigned_mul hbase (usableRate_rateFactor _)

/-- **The changes that readings make lead to the rate after them.** -/
theorem connected_adjustments (hbase : usableRate base = true) (hrate : Unsigned rate)
    (loads : List Float) :
    Connected rate (adjustments base rate loads) (rateAfter base rate loads) := by
  induction loads generalizing rate with
  | nil => exact Connected.nil rate
  | cons load loads ih =>
    have hloaded := unsigned_loadedRate hbase load
    have hrest := ih hloaded
    rw [rateAfter_cons, adjustments]
    split_ifs with hdiffers
    · apply Connected.cons
      · rfl
      · exact hdiffers
      · exact hrest
    · -- a rate that does not differ is the same, so the chain is not broken
      have hsame : rate = loadedRate base load := by
        by_contra hne
        exact hdiffers ((hrate.bne_iff hloaded).mpr hne)
      rw [hsame]
      exact hrest

end

/-! ### What is told of them -/

namespace AdmissionEvent

/-- The change of the rate that an event tells of. -/
def change? {α : Type} : AdmissionEvent α → Option (RateChange α)
  | .rateAdjusted load previous current => some ⟨load, previous, current⟩
  | _ => none

/-- What the log calls a change of the rate. -/
def adjustedMessage : String := "adaptive admission rate changed"

/-- The line of the log about a change. -/
def adjustedLine (name : String) (change : RateChange Float) : LogLine :=
  ⟨.info, adjustedMessage,
    [("limiter", .text name), ("load", .real change.load),
      ("previous_rate", .real change.previous), ("current_rate", .real change.current)]⟩

theorem filter_lines (name : String) (e : AdmissionEvent Float) :
    (Observed.lines name e).filter (fun line => line.message = adjustedMessage) =
      e.change?.toList.map (adjustedLine name) := by
  cases e with
  | admitted client => rfl
  | rejected client wait => rfl
  | rateAdjusted load previous current => rfl
  | swept removed remaining background =>
    simp only [Observed.lines]
    split_ifs
    · rfl
    · rfl

theorem set_measurements (name : String) (e : AdmissionEvent Float) :
    (Observed.measurements name e).filterMap
        (·.set? "ratelimiter_effective_rate" [("ratelimiter", name)]) =
      e.change?.toList.map RateChange.current := by
  cases e with
  | admitted client => rfl
  | rejected client wait => rfl
  | rateAdjusted load previous current => simp [Observed.measurements, Measurement.set?, change?]
  | swept removed remaining background => rfl

theorem kind?_of_change {e : AdmissionEvent Float} {change : RateChange Float}
    (h : e.change? = some change) : Observed.kind? e = some "rate_adjusted" := by
  cases e with
  | rateAdjusted load previous current => rfl
  | _ => cases h

end AdmissionEvent

open AdmissionEvent (adjustedMessage adjustedLine)

/-- The changes of the rate that occurrences tell of, in order. -/
def rateChanges (os : List (Occurrence (AdmissionEvent Float))) : List (RateChange Float) :=
  os.filterMap fun o => o.event.change?

section

variable {name : String} {os : List (Occurrence (AdmissionEvent Float))}

/-- **The log has a line for each change.** -/
theorem lines_rateChanges (hname : ∀ o ∈ os, o.component = name) :
    (os.flatMap fun o => Observed.lines o.component o.event).filter
        (fun line => line.message = adjustedMessage) =
      (rateChanges os).map (adjustedLine name) := by
  rw [List.filter_flatMap]
  exact Occurrence.flatMap_picked
    (fun n e => (Observed.lines n e).filter fun line => line.message = adjustedMessage)
    (AdmissionEvent.filter_lines name) hname

/-- **The gauge shows where the last change led.** -/
theorem gauge_rateChanges (hname : ∀ o ∈ os, o.component = name) :
    (Occurrence.board os).gauge? "ratelimiter_effective_rate" [("ratelimiter", name)] =
      (rateChanges os).getLast?.map RateChange.current :=
  Occurrence.gauge?_picked (AdmissionEvent.set_measurements name) hname

/-- **A listener for changes of the rate hears of all of them**, in order. -/
theorem rateChanges_heardAt {listeners : List Listener} {i : Nat} {l : Listener}
    (hl : listeners[i]? = some l) (hhears : l.hears "rate_adjusted")
    (os : List (Occurrence (AdmissionEvent Float))) :
    rateChanges (Occurrence.heardAt listeners i os) = rateChanges os :=
  Occurrence.filterMap_heardAt (fun _ _ => AdmissionEvent.kind?_of_change) hl hhears os

end

/-! ### Runs -/

namespace Limiter

/-- What can happen to a limiter. -/
inductive Act where
  | request (client : String)
  | advance (d : Duration)
  /-- The load source says something else from now on. -/
  | load (x : Float)
  | sweep
  /-- The sweeper gets its turn. -/
  | wake
  /-- A tick of the sweeper is handled. -/
  | tick (time : Instant)

/-- What is left of a limiter, and what is told of it. -/
def act (l : Limiter Float) (now : Instant) : Act → Limiter Float × List (AdmissionEvent Float)
  | .request client => (l.arrive client now).2
  | .advance _ => (l, [])
  | .load x => ({ l with load := x }, [])
  | .sweep => (l.sweep now false).2
  | .wake => (l.wake now, [])
  | .tick time => l.tick time now

/-- The load is read, if it is time to. -/
def reads (l : Limiter Float) (now : Instant) : Act → List (Instant × Float)
  | .request _ => if l.controller.readsLoad now then [(now, l.load)] else []
  | _ => []

/-- A limiter, what it has read and when, and everything that was told of it. -/
structure Watched where
  now : Instant
  limiter : Limiter Float
  readings : List (Instant × Float)
  told : List (Occurrence (AdmissionEvent Float))

namespace Watched

/-- A limiter of which nothing has been told yet. -/
def fresh (spec : LimiterSpec) (start : Instant) : Watched := ⟨start, spec.limiter start, [], []⟩

def step (name : String) (w : Watched) (a : Act) : Watched :=
  let done := w.limiter.act w.now a
  { now := match a with
      | .advance d => w.now + d
      | _ => w.now
    limiter := done.1
    readings := w.readings ++ w.limiter.reads w.now a
    told := w.told ++ done.2.map fun e => ⟨name, w.now, e⟩ }

def run (name : String) (w : Watched) (acts : List Act) : Watched := acts.foldl (step name) w

/-- When the load was last read; before that, when the limiter was created. -/
def lastRead (start : Instant) (w : Watched) : Instant :=
  (w.readings.getLast?.map Prod.fst).getD start

theorem getLast?_readings (start : Instant) (w : Watched) :
    (start :: w.readings.map Prod.fst).getLast? = some (w.lastRead start) := by
  rw [List.getLast?_cons, List.getLast?_map]
  rfl

end Watched

/-! #### One step -/

variable {l : Limiter Float} {now : Instant}

/-- Whether a request is admitted tells nothing of the rate. -/
theorem filterMap_arrive (l : Limiter Float) (client : String) (now : Instant) :
    (l.arrive client now).2.2.filterMap AdmissionEvent.change? =
      (l.controller.adjust now l.load).1.toList := by
  simp only [arrive, refresh, List.filterMap_append]
  cases (l.controller.adjust now l.load).1 with
  | none => cases ((l.controller.adjust now l.load).2.charge client now).1 <;> rfl
  | some change => cases ((l.controller.adjust now l.load).2.charge client now).1 <;> rfl

/-- **What does not read the load leaves the rate alone** and tells of no change. -/
theorem act_quiet {a : Act} (h : l.reads now a = []) :
    (l.act now a).1.controller.baseRate = l.controller.baseRate ∧
      (l.act now a).1.controller.schedule = l.controller.schedule ∧
      (l.act now a).1.controller.effectiveRate = l.controller.effectiveRate ∧
      (l.act now a).2.filterMap AdmissionEvent.change? = [] := by
  cases a with
  | request client =>
    have hreads : l.controller.readsLoad now = false := by
      rw [← Bool.not_eq_true]
      intro hreads
      simp [reads, hreads] at h
    have hadjust : l.controller.adjust now l.load = (none, l.controller) := by
      simp [Controller.adjust, hreads]
    refine ⟨?_, ?_, ?_, ?_⟩
    · simp only [act, arrive, refresh, hadjust, Controller.charge]
    · simp only [act, arrive, refresh, hadjust, Controller.charge]
    · simp only [act, arrive, refresh, hadjust, Controller.charge]
    · rw [act, filterMap_arrive, hadjust]
      rfl
  | advance d => exact ⟨rfl, rfl, rfl, rfl⟩
  | load x => exact ⟨rfl, rfl, rfl, rfl⟩
  | sweep => exact ⟨rfl, rfl, rfl, rfl⟩
  | wake => exact ⟨rfl, rfl, rfl, rfl⟩
  | tick time =>
    simp only [act, tick]
    split_ifs
    · exact ⟨rfl, rfl, rfl, rfl⟩
    · exact ⟨rfl, rfl, rfl, rfl⟩

/-- **A reading sets the rate**, and starts the interval again; a change is told if the rate is
    another one. -/
theorem act_reading (client : String) (h : l.controller.readsLoad now = true) :
    let current := loadedRate l.controller.baseRate l.load
    let done := l.act now (.request client)
    done.1.controller.baseRate = l.controller.baseRate ∧
      done.1.controller.schedule = l.controller.schedule.map (fun s => { s with readAt := now }) ∧
      done.1.controller.effectiveRate = current ∧
      done.2.filterMap AdmissionEvent.change? =
        if l.controller.effectiveRate != current then
          [⟨tameLoad l.load, l.controller.effectiveRate, current⟩]
        else [] := by
  intro current done
  refine ⟨?_, ?_, ?_, ?_⟩
  · simp only [done, act, arrive, refresh, Controller.charge, Controller.adjust, h, if_true]
  · simp only [done, act, arrive, refresh, Controller.charge, Controller.adjust, h, if_true]
  · simp only [done, act, arrive, refresh, Controller.charge, Controller.adjust, h, if_true]
    rfl
  · have hdiffers : Quantity.differs l.controller.effectiveRate current =
        (l.controller.effectiveRate != current) := rfl
    rw [← hdiffers]
    show (l.arrive client now).2.2.filterMap AdmissionEvent.change? = _
    rw [filterMap_arrive, Controller.adjust, if_pos h]
    show (if Quantity.differs l.controller.effectiveRate current then _ else none).toList = _
    split_ifs
    · rfl
    · rfl

/-! #### All steps -/

namespace Watched

/-- What a limiter tells and does follows from what it has read. -/
structure Tracked (spec : LimiterSpec) (gap : Duration) (start : Instant) (w : Watched) : Prop where
  base : w.limiter.controller.baseRate = spec.rate
  schedule : w.limiter.controller.schedule = some ⟨gap, w.lastRead start⟩
  rate : w.limiter.controller.effectiveRate =
    rateAfter spec.rate spec.rate (w.readings.map Prod.snd)
  changes : rateChanges w.told = adjustments spec.rate spec.rate (w.readings.map Prod.snd)
  spaced : (start :: w.readings.map Prod.fst).IsChain fun earlier later => earlier + gap ≤ later
  component : ∀ o ∈ w.told, o.component = spec.name

variable {spec : LimiterSpec} {gap : Duration} {start : Instant} {w : Watched}

theorem tracked_fresh {load : Float} {interval : Duration}
    (hload : spec.load = some (load, interval)) (start : Instant) :
    Tracked spec (max interval shortestLoadInterval) start (fresh spec start) where
  base := rfl
  schedule := by
    simp only [fresh, LimiterSpec.limiter, LimiterSpec.controller, Controller.new, hload]
    rfl
  rate := rfl
  changes := rfl
  spaced := List.isChain_singleton start
  component := by simp [fresh]

theorem rateChanges_step (name : String) (w : Watched) (a : Act) :
    rateChanges (w.step name a).told =
      rateChanges w.told ++ (w.limiter.act w.now a).2.filterMap AdmissionEvent.change? := by
  show rateChanges (w.told ++ _) = _
  rw [rateChanges, List.filterMap_append, List.filterMap_map]
  rfl

namespace Tracked

/-- The load is read once the interval has passed since the last time. -/
theorem readsLoad_iff (h : Tracked spec gap start w) (hgap : 0 < gap) (now : Instant) :
    w.limiter.controller.readsLoad now = true ↔ w.lastRead start + gap ≤ now := by
  have hlapsed : ∀ {g r n : Nat}, 0 < g → (g ≤ n - r ↔ r + g ≤ n) := by
    intros
    omega
  simp only [Controller.readsLoad, h.schedule, decide_eq_true_eq]
  exact hlapsed hgap

theorem told_component (h : Tracked spec gap start w) (a : Act) :
    ∀ o ∈ (w.step spec.name a).told, o.component = spec.name := by
  intro o ho
  rcases List.mem_append.mp ho with hold | hnew
  · exact h.component o hold
  · obtain ⟨e, -, rfl⟩ := List.mem_map.mp hnew
    rfl

theorem quiet (h : Tracked spec gap start w) {a : Act} (hreads : w.limiter.reads w.now a = []) :
    Tracked spec gap start (w.step spec.name a) := by
  obtain ⟨hbase, hschedule, hrate, hchanges⟩ := act_quiet hreads
  have hreadings : (w.step spec.name a).readings = w.readings := by
    show w.readings ++ _ = _
    rw [hreads, List.append_nil]
  have hlast : (w.step spec.name a).lastRead start = w.lastRead start := by
    unfold lastRead
    rw [hreadings]
  constructor
  · exact hbase.trans h.base
  · rw [hlast]
    exact hschedule.trans h.schedule
  · rw [hreadings]
    exact hrate.trans h.rate
  · rw [rateChanges_step, hchanges, List.append_nil, hreadings]
    exact h.changes
  · rw [hreadings]
    exact h.spaced
  · exact h.told_component a

theorem reading (h : Tracked spec gap start w) (hgap : 0 < gap) {client : String}
    (hreads : w.limiter.controller.readsLoad w.now = true) :
    Tracked spec gap start (w.step spec.name (.request client)) := by
  obtain ⟨hbase, hschedule, hrate, hchanges⟩ := act_reading client hreads
  have hreadings : (w.step spec.name (.request client)).readings =
      w.readings ++ [(w.now, w.limiter.load)] := by
    show w.readings ++ (if _ then _ else _) = _
    rw [if_pos hreads]
  have hlast : (w.step spec.name (.request client)).lastRead start = w.now := by
    unfold lastRead
    rw [hreadings]
    simp
  have hloads : (w.step spec.name (.request client)).readings.map Prod.snd =
      w.readings.map Prod.snd ++ [w.limiter.load] := by
    rw [hreadings, List.map_append]
    rfl
  rw [h.base] at hrate hchanges
  constructor
  · exact hbase.trans h.base
  · rw [hlast]
    refine hschedule.trans ?_
    rw [h.schedule]
    rfl
  · rw [hloads, rateAfter_concat]
    exact hrate
  · rw [rateChanges_step, hchanges, hloads, adjustments_concat, ← h.rate, h.changes]
  · rw [hreadings, List.map_append, ← List.cons_append, List.isChain_append]
    refine ⟨h.spaced, List.isChain_singleton _, ?_⟩
    intro earlier hearlier later hlater
    rw [getLast?_readings, Option.mem_some_iff] at hearlier
    obtain rfl : w.now = later := Option.some.inj hlater
    rw [← hearlier]
    exact (h.readsLoad_iff hgap w.now).mp hreads
  · exact h.told_component _

/-- **Every step keeps to it.** -/
theorem step (h : Tracked spec gap start w) (hgap : 0 < gap) (a : Act) :
    Tracked spec gap start (w.step spec.name a) := by
  cases a with
  | request client =>
    cases hreads : w.limiter.controller.readsLoad w.now with
    | false =>
      apply h.quiet
      simp [reads, hreads]
    | true => exact h.reading hgap hreads
  | advance d => exact h.quiet rfl
  | load x => exact h.quiet rfl
  | sweep => exact h.quiet rfl
  | wake => exact h.quiet rfl
  | tick time => exact h.quiet rfl

theorem run (h : Tracked spec gap start w) (hgap : 0 < gap) (acts : List Act) :
    Tracked spec gap start (w.run spec.name acts) := by
  induction acts generalizing w with
  | nil => exact h
  | cons a acts ih => exact ih (h.step hgap a)

end Tracked

end Watched

/-- **Whoever watches a limiter can follow its rate.**  A limiter with a load source reads it at
    requests only, and does so if and only if the interval, or ten seconds if that is longer,
    has passed since the last reading or its creation; so no two readings are closer than that.
    The rate in force is the base rate reduced by the last load read, and the changes of the rate
    that are told, to listeners as well as in the log, are those that the readings make, in
    order: they lead from the base rate to the rate in force, which the gauge shows once there
    has been one.  A reading that leaves the rate as it is makes none. -/
theorem adjustments_told (spec : LimiterSpec) {load : Float} {interval : Duration}
    (hload : spec.load = some (load, interval)) (hrate : usableRate spec.rate = true)
    (start : Instant) (acts : List Act) :
    let w := (Watched.fresh spec start).run spec.name acts
    let gap := max interval shortestLoadInterval
    let rate := w.limiter.controller.effectiveRate
    let changes := rateChanges w.told
    ((start :: w.readings.map Prod.fst).IsChain fun earlier later => earlier + gap ≤ later) ∧
    (∀ client, (w.step spec.name (.request client)).readings =
      if w.lastRead start + gap ≤ w.now then w.readings ++ [(w.now, w.limiter.load)]
      else w.readings) ∧
    rate = (match w.readings.getLast? with
      | none => spec.rate
      | some (_, x) =>
        spec.rate * rateFactor (Quantity.clamp (Quantity.ofNat 0) (Quantity.ofNat 1) x)) ∧
    changes = adjustments spec.rate spec.rate (w.readings.map Prod.snd) ∧
    Connected spec.rate changes rate ∧
    (∀ listeners i l, listeners[i]? = some l → l.hears "rate_adjusted" →
      rateChanges (Occurrence.heardAt listeners i w.told) = changes) ∧
    (w.told.flatMap fun o => Observed.lines o.component o.event).filter
      (fun line => line.message = adjustedMessage) = changes.map (adjustedLine spec.name) ∧
    (Occurrence.board w.told).gauge? "ratelimiter_effective_rate" [("ratelimiter", spec.name)] =
      if changes = [] then none else some rate := by
  intro w gap rate changes
  have hgap : 0 < gap := Nat.lt_of_lt_of_le (by decide) (Nat.le_max_right interval _)
  have h : Watched.Tracked spec gap start w := (Watched.tracked_fresh hload start).run hgap acts
  have hconnected : Connected spec.rate changes rate := by
    have hall := connected_adjustments hrate (unsigned_of_usableRate hrate)
      (w.readings.map Prod.snd)
    rwa [← h.changes, ← h.rate] at hall
  refine ⟨h.spaced, ?_, ?_, h.changes, hconnected, ?_, lines_rateChanges h.component, ?_⟩
  · intro client
    show w.readings ++ (if w.limiter.controller.readsLoad w.now = true then _ else _) = _
    simp only [h.readsLoad_iff hgap w.now]
    split_ifs
    · rfl
    · exact List.append_nil _
  · have hlast := h.rate
    rw [rateAfter, List.getLast?_map] at hlast
    refine hlast.trans ?_
    cases w.readings.getLast? with
    | none => rfl
    | some reading => rfl
  · intro listeners i l hl hhears
    exact rateChanges_heardAt hl hhears w.told
  · rw [gauge_rateChanges h.component]
    exact hconnected.getLast?

/-- A load of 0.75 makes the same of the rate as one of 0.7 does, so nothing is told of it.  The
    load that comes next is too large to be one, and is read ten seconds later, not five. -/
theorem two_changes_by_three_readings :
    let spec : LimiterSpec :=
      { rate := 2.0, load := some (0.7, Duration.ofSeconds 5), name := "api" }
    let acts : List Act := [.request "a", .advance (Duration.ofSeconds 9), .request "a",
      .advance (Duration.ofSeconds 2), .request "a", .load 0.75, .advance (Duration.ofSeconds 11),
      .request "b", .load 5.0, .advance (Duration.ofSeconds 9), .request "a", .sweep,
      .advance (Duration.ofSeconds 1), .request "c"]
    let w := (Watched.fresh spec 0).run spec.name acts
    spec.load = some (0.7, Duration.ofSeconds 5) ∧ usableRate spec.rate = true ∧
      w.readings.map Prod.fst =
        [Duration.ofSeconds 11, Duration.ofSeconds 22, Duration.ofSeconds 32] ∧
      rateChanges w.told = [⟨0.7, 2.0, 1.5⟩, ⟨1.0, 1.5, 1.0⟩] ∧
      Connected 2.0 (rateChanges w.told) 1.0 ∧
      (Occurrence.board w.told).gauge? "ratelimiter_effective_rate" [("ratelimiter", "api")] =
        some 1.0 := by
  intro spec acts
  have hload : spec.load = some (0.7, Duration.ofSeconds 5) := rfl
  have husable : usableRate spec.rate = true := by decide +kernel
  have hreadings : ((Watched.fresh spec 0).run spec.name acts).readings.map Prod.fst =
      [Duration.ofSeconds 11, Duration.ofSeconds 22, Duration.ofSeconds 32] := by decide +kernel
  have hchanges : rateChanges ((Watched.fresh spec 0).run spec.name acts).told =
      [⟨0.7, 2.0, 1.5⟩, ⟨1.0, 1.5, 1.0⟩] := by decide +kernel
  have hrate : ((Watched.fresh spec 0).run spec.name acts).limiter.controller.effectiveRate =
      1.0 := by decide +kernel
  have htold := adjustments_told spec hload husable 0 acts
  generalize (Watched.fresh spec 0).run spec.name acts = w at hreadings hchanges hrate htold ⊢
  obtain ⟨-, -, -, -, hconnected, -, -, hgauge⟩ := htold
  have hsome : rateChanges w.told ≠ [] := by
    rw [hchanges]
    exact List.cons_ne_nil _ _
  rw [hrate] at hconnected hgauge
  rw [if_neg hsome] at hgauge
  exact ⟨hload, husable, hreadings, hchanges, hconnected, hgauge⟩

end Limiter

end Floodgate
