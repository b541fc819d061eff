/-
  Floodgate/Proofs/Settings/Usable.lean
  =====================================
  **Settings that an edge can be built from.**  The settings of an edge are checked as a
  whole before anything is built.  The builders of the stages check once more what they are
  given, but to them a fault is a mistake of whoever calls them, and building ends there.

  `built_as_checked` says that the check and the builders accept the same settings.  So no
  builder of an edge ever finds anything wrong, and the recorder has the buckets that were
  asked for; it never falls back on the default ones.

  What is accepted is said without the code (`Settings.Usable`), and so is what is reported
  of other settings (`SettingsFault.Describes`): the first of rate, level and bounds that is
  out of order, and of the bounds the first one that is not above its predecessor.
-/
import Floodgate.Pipeline.Build
import Floodgate.Proofs.Latency.Placement
import Floodgate.Proofs.Number.Positive

namespace Floodgate

/-! ### Bounds that do not increase -/

/-- The bound at this position is not above the one before it. -/
def Descends (bounds : List Nat) (i : Nat) : Prop :=
  ∃ before bound, 0 < i ∧ bounds[i - 1]? = some before ∧ bounds[i]? = some bound ∧
    bound ≤ before

theorem not_descends_zero (bounds : List Nat) : ¬ Descends bounds 0 := by
  rintro ⟨before, bound, hpos, -⟩
  exact Nat.lt_irrefl 0 hpos

theorem not_descends_of_short {bounds : List Nat} (h : bounds.length ≤ 1) (i : Nat) :
    ¬ Descends bounds i := by
  rintro ⟨before, bound, hpos, -, hbound, -⟩
  obtain ⟨hi, -⟩ := List.getElem?_eq_some_iff.mp hbound
  omega

section

variable {a b : Nat} {rest : List Nat}

theorem descends_cons_cons {i : Nat} :
    Descends (a :: b :: rest) (i + 1) ↔ (i = 0 ∧ b ≤ a) ∨ Descends (b :: rest) i := by
  rcases i with _ | i
  · simp [Descends]
  · simp [Descends]

theorem isLeast_descends_one (h : b ≤ a) : IsLeast {j | Descends (a :: b :: rest) j} 1 := by
  constructor
  · exact descends_cons_cons.mpr (.inl ⟨rfl, h⟩)
  · rintro j ⟨before, bound, hpos, -⟩
    exact hpos

/-- Where the first two bounds increase, all is as it is among those from the second on. -/
theorem isLeast_descends_succ (h : ¬ b ≤ a) {k : Nat} :
    IsLeast {j | Descends (a :: b :: rest) j} (k + 1) ↔
      IsLeast {j | Descends (b :: rest) j} k := by
  have hsucc (j : Nat) : Descends (a :: b :: rest) (j + 1) ↔ Descends (b :: rest) j := by
    rw [descends_cons_cons]
    simp [h]
  apply and_congr (hsucc k)
  constructor
  · intro hbelow j hj
    exact Nat.le_of_succ_le_succ (hbelow ((hsucc j).mpr hj))
  · intro hbelow j hj
    rcases j with _ | j
    · exact absurd hj (not_descends_zero _)
    · exact Nat.succ_le_succ (hbelow ((hsucc j).mp hj))

end

/-- **What is found is the first position at which the bounds do not increase.** -/
theorem firstDescent?_eq_some_iff {start i : Nat} {bounds : List Nat} :
    firstDescent? start bounds = some i ↔
      ∃ k, i = start + k ∧ IsLeast {j | Descends bounds j} k := by
  induction bounds generalizing start with
  | nil => simp [firstDescent?, IsLeast, not_descends_of_short]
  | cons a rest ih =>
    rcases rest with _ | ⟨b, rest⟩
    · simp [firstDescent?, IsLeast, not_descends_of_short]
    · by_cases hdown : b ≤ a
      · rw [firstDescent?, if_pos hdown]
        constructor
        · intro h
          exact ⟨1, (Option.some.inj h).symm, isLeast_descends_one hdown⟩
        · rintro ⟨k, rfl, hk⟩
          rw [hk.unique (isLeast_descends_one hdown)]
      · rw [firstDescent?, if_neg hdown, ih]
        constructor
        · rintro ⟨k, rfl, hk⟩
          exact ⟨k + 1, by omega, (isLeast_descends_succ hdown).mpr hk⟩
        · rintro ⟨k, rfl, hk⟩
          rcases k with _ | k
          · exact absurd hk.1 (not_descends_zero _)
          · exact ⟨k, by omega, (isLeast_descends_succ hdown).mp hk⟩

/-- What a fault says of the bounds it is found in. -/
def BoundsFault.Describes (bounds : List Nat) : BoundsFault → Prop
  | .empty => bounds = []
  | .notIncreasing i => IsLeast {j | Descends bounds j} i

theorem boundsFault?_eq_some_iff {bounds : List Nat} {fault : BoundsFault} :
    boundsFault? bounds = some fault ↔ fault.Describes bounds := by
  rcases bounds with _ | ⟨b, rest⟩
  · rcases fault with _ | i
    · simp [boundsFault?, BoundsFault.Describes]
    · simp [boundsFault?, BoundsFault.Describes, IsLeast, not_descends_of_short]
  · rcases fault with _ | i
    · simp [boundsFault?, BoundsFault.Describes]
    · simp [boundsFault?, BoundsFault.Describes, firstDescent?_eq_some_iff]

/-- Only the first of two positions is reported. -/
example : boundsFault? [1, 5, 3, 2] = some (.notIncreasing 2) := by decide

/-! ### Settings -/

/-- Settings that are in order. -/
structure Settings.Usable (s : Settings) : Prop where
  rate : PositiveFinite s.rate.requestsPerSecond
  level : s.compression.level ≤ 9
  nonempty : s.meter.buckets ≠ []
  increasing : s.meter.buckets.Pairwise (· < ·)

/-- What a fault says of the settings it is found in: all that comes before it is in order. -/
def SettingsFault.Describes (s : Settings) : SettingsFault → Prop
  | .rate given => given = s.rate.requestsPerSecond ∧ ¬ PositiveFinite given
  | .level given =>
    PositiveFinite s.rate.requestsPerSecond ∧ given = s.compression.level ∧ 9 < given
  | .buckets fault =>
    PositiveFinite s.rate.requestsPerSecond ∧ s.compression.level ≤ 9 ∧
      fault.Describes s.meter.buckets

theorem usableLevel_iff {level : Nat} : usableLevel level = true ↔ level ≤ 9 :=
  decide_eq_true_iff

namespace Settings

variable {s : Settings}

theorem fault?_of_rate (h : ¬ PositiveFinite s.rate.requestsPerSecond) :
    s.fault? = some (.rate s.rate.requestsPerSecond) := by
  rw [← usableRate_iff, Bool.not_eq_true] at h
  simp [fault?, h]

theorem fault?_of_level (hrate : PositiveFinite s.rate.requestsPerSecond)
    (h : 9 < s.compression.level) : s.fault? = some (.level s.compression.level) := by
  rw [← usableRate_iff] at hrate
  have hlevel : usableLevel s.compression.level = false := by
    rw [← Bool.not_eq_true, usableLevel_iff]
    omega
  simp [fault?, hrate, hlevel]

theorem fault?_of_buckets (hrate : PositiveFinite s.rate.requestsPerSecond)
    (hlevel : s.compression.level ≤ 9) :
    s.fault? = (boundsFault? s.meter.buckets).map .buckets := by
  rw [← usableRate_iff] at hrate
  rw [← usableLevel_iff] at hlevel
  simp [fault?, hrate, hlevel]

theorem fault?_eq_none_iff : s.fault? = none ↔ s.Usable := by
  by_cases hrate : PositiveFinite s.rate.requestsPerSecond
  · by_cases hlevel : s.compression.level ≤ 9
    · rw [fault?_of_buckets hrate hlevel, Option.map_eq_none_iff, boundsFault?_eq_none_iff]
      constructor
      · rintro ⟨hnonempty, hincreasing⟩
        exact ⟨hrate, hlevel, hnonempty, hincreasing⟩
      · intro h
        exact ⟨h.nonempty, h.increasing⟩
    · rw [fault?_of_level hrate (Nat.lt_of_not_le hlevel)]
      constructor
      · nofun
      · intro h
        exact absurd h.level hlevel
  · rw [fault?_of_rate hrate]
    constructor
    · nofun
    · intro h
      exact absurd h.rate hrate

/-- **What is reported of settings that are not in order.** -/
theorem fault?_eq_some_iff {fault : SettingsFault} :
    s.fault? = some fault ↔ fault.Describes s := by
  constructor
  · intro h
    by_cases hrate : PositiveFinite s.rate.requestsPerSecond
    · by_cases hlevel : s.compression.level ≤ 9
      · rw [fault?_of_buckets hrate hlevel] at h
        obtain ⟨fault, hfault, rfl⟩ := Option.map_eq_some_iff.mp h
        exact ⟨hrate, hlevel, boundsFault?_eq_some_iff.mp hfault⟩
      · rw [fault?_of_level hrate (Nat.lt_of_not_le hlevel)] at h
        obtain rfl := Option.some.inj h
        exact ⟨hrate, rfl, Nat.lt_of_not_le hlevel⟩
    · rw [fault?_of_rate hrate] at h
      obtain rfl := Option.some.inj h
      exact ⟨rfl, hrate⟩
  · rcases fault with given | given | fault
    · rintro ⟨rfl, h⟩
      exact fault?_of_rate h
    · rintro ⟨hrate, rfl, h⟩
      exact fault?_of_level hrate h
    · rintro ⟨hrate, hlevel, h⟩
      rw [fault?_of_buckets hrate hlevel, boundsFault?_eq_some_iff.mpr h]
      rfl

end Settings

/-! ### The builders of the stages -/

theorem orFault_eq_ok_iff {α : Type u} {fault : Option BuildFault} {a : α} :
    (∃ built, orFault fault a = .ok built) ↔ fault = none := by
  rcases fault with _ | fault
  · exact ⟨fun _ => rfl, fun _ => ⟨a, rfl⟩⟩
  · constructor
    · rintro ⟨built, hbuilt⟩
      cases hbuilt
    · nofun

section

variable {π η : Type} (c : Gzip.Codec) (now : Instant) (d : Deployment π η)

theorem LimiterSpec.built_iff (spec : LimiterSpec) :
    (∃ built, (StageSpec.limiter spec).around c now d = .ok built) ↔ PositiveFinite spec.rate := by
  rw [← usableRate_iff]
  apply orFault_eq_ok_iff.trans
  simp [fault?]

theorem CompressorSpec.built_iff (spec : CompressorSpec) :
    (∃ built, (StageSpec.compressor spec).around c now d = .ok built) ↔ spec.level ≤ 9 := by
  rw [← usableLevel_iff]
  apply orFault_eq_ok_iff.trans
  simp [fault?]

theorem MeterSpec.built_iff (spec : MeterSpec) :
    (∃ built, (StageSpec.meter spec).around c now d = .ok built) ↔
      spec.buckets ≠ [] ∧ spec.buckets.Pairwise (· < ·) := by
  rw [← boundsFault?_eq_none_iff]
  apply orFault_eq_ok_iff.trans
  simp [fault?]

end

/-- The recorder that is to be seen, if a stage has one. -/
def StageView.recorder? : StageView → Option Recorder
  | .meter recorder _ => some recorder
  | .edge _ _ _ _ _ recorder => some recorder
  | _ => none

/-- The recorder of the outermost stage. -/
def Deployment.recorder? {π η : Type} (d : Deployment π η) : Option Recorder :=
  (d.pipeline.views d.state).head?.bind StageView.recorder?

/-- A meter whose bounds are accepted has a recorder with these bounds. -/
theorem MeterSpec.recorder_eq {spec : MeterSpec} (nonempty : spec.buckets ≠ [])
    (increasing : spec.buckets.Pairwise (· < ·)) :
    spec.recorder = .new (.empty spec.buckets) := by
  rw [recorder, Histogram.ofBounds_increasing nonempty increasing]

namespace EdgeSpec

variable {e : EdgeSpec}

/-- **The builders of the stages have nothing to say against settings in order.** -/
theorem stageFault?_eq_none (h : e.settings.Usable) : e.stageFault? = none := by
  have hlevel : usableLevel e.compressor.level = true := usableLevel_iff.mpr h.level
  have hbounds : boundsFault? e.meter.buckets = none :=
    boundsFault?_eq_none_iff.mpr ⟨h.nonempty, h.increasing⟩
  have hrate : usableRate e.limiter.rate = true := usableRate_iff.mpr h.rate
  have hcompressor : e.compressor.fault? = none := by
    rw [CompressorSpec.fault?, if_pos hlevel]
  have hmeter : e.meter.fault? = none := by
    rw [MeterSpec.fault?, hbounds]
    rfl
  have hlimiter : e.limiter.fault? = none := by
    rw [LimiterSpec.fault?, if_pos hrate]
  rw [stageFault?, hcompressor, hmeter, hlimiter]
  rfl

variable {π η : Type} (c : Gzip.Codec) (now : Instant) (d : Deployment π η)

theorem around_of_usable (h : e.settings.Usable) :
    (StageSpec.edge e).around c now d = .ok (d.edge c e now) := by
  simp only [StageSpec.around, Settings.fault?_eq_none_iff.mpr h, stageFault?_eq_none h]
  rfl

theorem around_of_fault {fault : SettingsFault} (h : e.settings.fault? = some fault) :
    (StageSpec.edge e).around c now d =
      .error (if e.trusted then .trustedSettings fault else .settings fault) := by
  simp only [StageSpec.around, h]

/-- **An edge is built if and only if its settings are in order**, and then the builders of its
    stages find nothing wrong either.  Its recorder has the buckets of the settings, and
    no samples.

    Otherwise the one fault that is found is reported, before anything is built; it is the
    caller's mistake if he has vouched for the settings.  Of bounds that are refused, unless
    there are none, it says where they first do not increase. -/
theorem built_as_checked (e : EdgeSpec) :
    let building := (StageSpec.edge e).around c now d
    let bounds := e.settings.meter.buckets
    (e.settings.fault? = none ↔ e.settings.Usable) ∧
      (e.settings.fault? = none ↔
        (∃ built, (StageSpec.limiter e.limiter).around c now d = .ok built) ∧
          (∃ built, (StageSpec.compressor e.compressor).around c now d = .ok built) ∧
          ∃ built, (StageSpec.meter e.meter).around c now d = .ok built) ∧
      (e.settings.fault? = none → ∃ built, building = .ok built ∧
        built.recorder? = some (.new (.empty bounds)) ∧
        Histogram.ofBounds e.meter.buckets = .ok (.empty bounds)) ∧
      (∀ fault, e.settings.fault? = some fault →
        building = .error (if e.trusted then .trustedSettings fault else .settings fault)) ∧
      (∀ fault, e.settings.fault? = some fault ↔ fault.Describes e.settings) ∧
      (boundsFault? bounds = none ↔ bounds ≠ [] ∧ bounds.Pairwise (· < ·)) ∧
      ∀ fault, boundsFault? bounds = some fault ↔ fault.Describes bounds := by
  intro building bounds
  refine ⟨Settings.fault?_eq_none_iff, ?_, ?_, ?_, fun _ => Settings.fault?_eq_some_iff,
    boundsFault?_eq_none_iff, fun _ => boundsFault?_eq_some_iff⟩
  · rw [Settings.fault?_eq_none_iff, LimiterSpec.built_iff, CompressorSpec.built_iff,
      MeterSpec.built_iff]
    constructor
    · intro h
      exact ⟨h.rate, h.level, h.nonempty, h.increasing⟩
    · rintro ⟨hrate, hlevel, hnonempty, hincreasing⟩
      exact ⟨hrate, hlevel, hnonempty, hincreasing⟩
  · intro hfault
    have h := Settings.fault?_eq_none_iff.mp hfault
    refine ⟨d.edge c e now, around_of_usable c now d h, ?_, ?_⟩
    · change some e.meter.recorder = _
      rw [MeterSpec.recorder_eq h.nonempty h.increasing]
      rfl
    · exact Histogram.ofBounds_increasing h.nonempty h.increasing
  · intro fault hfault
    exact around_of_fault c now d hfault

end EdgeSpec

end Floodgate
