/-
  Floodgate/Proofs/Observe/Outside.lean
  =====================================
  **What can be seen from outside.**  The board is read in two ways.  The counters of a
  name, whatever their labels, add up to what was counted under that name.  A gauge
  shows what it was last set to, if it was set.  Both are proved from what one
  measurement does to the rows (`update`): it changes the first row that takes it or
  adds a row, and leaves the others as they are.

  A listener hears of the events of its kind, whatever other listeners there are.
-/
import Floodgate.Observe.Event
import Mathlib.Algebra.GroupWithZero.Nat

namespace Floodgate

/-- What a row counts under a name. -/
def Gauged.counted (name : String) (row : Gauged) : Nat :=
  match row.reading with
  | .total n => if row.name = name then n else 0
  | _ => 0

/-- What a row shows, if it is this gauge. -/
def Gauged.shown? (name : String) (labels : Labels) (row : Gauged) : Option Float :=
  match row.reading with
  | .last value => if Board.about name labels row then some value else none
  | _ => none

namespace Measurement

/-- What a measurement adds to the counters of a name. -/
def counted (name : String) : Measurement → Nat
  | .counter n _ amount => if n = name then amount else 0
  | _ => 0

/-- What a measurement sets a gauge to. -/
def set? (name : String) (labels : Labels) : Measurement → Option Float
  | .gauge n l value => if n = name ∧ l = labels then some value else none
  | _ => none

end Measurement

namespace Board

/-- What the counters of a name add up to. -/
def total (name : String) (board : Board) : Nat := (board.map (Gauged.counted name)).sum

/-- What a gauge shows. -/
def gauge? (name : String) (labels : Labels) (board : Board) : Option Float :=
  board.findSome? (Gauged.shown? name labels)

theorem about_iff {name : String} {labels : Labels} {row : Gauged} :
    about name labels row ↔ row.name = name ∧ row.labels = labels := by
  simp [about]

/-! ### One measurement -/

section

variable {take : Gauged → Option Reading} {fresh : Gauged}

theorem sum_update {f : Gauged → Nat} {k : Nat}
    (htake : ∀ row reading, take row = some reading → f { row with reading } = f row + k)
    (hfresh : f fresh = k) (board : Board) :
    ((update take fresh board).map f).sum = (board.map f).sum + k := by
  induction board with
  | nil => simp [update, hfresh]
  | cons row rest ih =>
    cases h : take row with
    | none =>
      simp only [update, h, List.map_cons, List.sum_cons, ih]
      omega
    | some reading =>
      simp only [update, h, List.map_cons, List.sum_cons, htake row reading h]
      omega

theorem findSome?_update_other {f : Gauged → Option Float}
    (htake : ∀ row reading, take row = some reading → f { row with reading } = f row)
    (hfresh : f fresh = none) (board : Board) :
    (update take fresh board).findSome? f = board.findSome? f := by
  induction board with
  | nil => simp [update, hfresh]
  | cons row rest ih =>
    cases h : take row with
    | none => simp only [update, h, List.findSome?_cons, ih]
    | some reading => simp only [update, h, List.findSome?_cons, htake row reading h]

theorem findSome?_update_self {f : Gauged → Option Float} {value : Float}
    (hother : ∀ row, take row = none → f row = none)
    (htake : ∀ row reading, take row = some reading → f { row with reading } = some value)
    (hfresh : f fresh = some value) (board : Board) :
    (update take fresh board).findSome? f = some value := by
  induction board with
  | nil => simp [update, hfresh]
  | cons row rest ih =>
    cases h : take row with
    | none => simp only [update, h, List.findSome?_cons, hother row h, ih]
    | some reading => simp only [update, h, List.findSome?_cons, htake row reading h]

end

/-- A counter is taken by the rows about it, and the amount is added. -/
theorem takes_counter {name : String} {labels : Labels} {amount : Nat} {row : Gauged}
    {reading : Reading}
    (h : (match row.reading with
      | .total n => if about name labels row then some (Reading.total (n + amount)) else none
      | _ => none) = some reading) :
    ∃ n, row.reading = .total n ∧ row.name = name ∧ reading = .total (n + amount) := by
  split at h
  · next n hreading =>
    simp only [Option.ite_none_right_eq_some, Option.some.injEq, about_iff] at h
    exact ⟨n, hreading, h.1.1, h.2.symm⟩
  · cases h

/-- A gauge is taken by the rows about it, and shows the new value. -/
theorem takes_gauge {name : String} {labels : Labels} {value : Float} {row : Gauged}
    {reading : Reading}
    (h : (match row.reading with
      | .last _ => if about name labels row then some (Reading.last value) else none
      | _ => none) = some reading) :
    ∃ shown, row.reading = .last shown ∧ row.name = name ∧ row.labels = labels ∧
      reading = .last value := by
  split at h
  · next shown hreading =>
    simp only [Option.ite_none_right_eq_some, Option.some.injEq, about_iff] at h
    exact ⟨shown, hreading, h.1.1, h.1.2, h.2.symm⟩
  · cases h

/-- A sample is taken by a row of samples, which stays one. -/
theorem takes_sample {name : String} {labels : Labels} {value : Float} {row : Gauged}
    {reading : Reading}
    (h : (match row.reading with
      | .samples xs => if about name labels row then some (Reading.samples (xs ++ [value])) else none
      | _ => none) = some reading) :
    ∃ xs, row.reading = .samples xs ∧ reading = .samples (xs ++ [value]) := by
  split at h
  · next xs hreading =>
    simp only [Option.ite_none_right_eq_some, Option.some.injEq] at h
    exact ⟨xs, hreading, h.2.symm⟩
  · cases h

theorem total_measure (name : String) (board : Board) (m : Measurement) :
    (board.measure m).total name = board.total name + m.counted name := by
  cases m with
  | counter n labels amount =>
    apply sum_update
    · intro row reading htake
      obtain ⟨count, hreading, hname, rfl⟩ := takes_counter htake
      simp only [Gauged.counted, hreading, hname, Measurement.counted]
      split <;> rfl
    · rfl
  | gauge n labels value =>
    apply sum_update
    · intro row reading htake
      obtain ⟨shown, hreading, _, _, rfl⟩ := takes_gauge htake
      simp only [Gauged.counted, hreading, Measurement.counted]
    · rfl
  | sample n labels value =>
    apply sum_update
    · intro row reading htake
      obtain ⟨xs, hreading, rfl⟩ := takes_sample htake
      simp only [Gauged.counted, hreading, Measurement.counted]
    · rfl

theorem gauge?_measure (name : String) (labels : Labels) (board : Board) (m : Measurement) :
    (board.measure m).gauge? name labels = (m.set? name labels).or (board.gauge? name labels) := by
  cases m with
  | counter n l amount =>
    apply findSome?_update_other
    · intro row reading htake
      obtain ⟨count, hreading, _, rfl⟩ := takes_counter htake
      simp only [Gauged.shown?, hreading]
    · rfl
  | gauge n l value =>
    by_cases hself : n = name ∧ l = labels
    · obtain ⟨rfl, rfl⟩ := hself
      simp only [Measurement.set?, and_self, if_true, Option.some_or]
      apply findSome?_update_self
      · intro row htake
        unfold Gauged.shown?
        split
        · next shown hreading => simpa [hreading] using htake
        · rfl
      · intro row reading htake
        obtain ⟨shown, _, hname, hlabels, rfl⟩ := takes_gauge htake
        simp [Gauged.shown?, about_iff, hname, hlabels]
      · simp [Gauged.shown?, about_iff]
    · simp only [Measurement.set?, if_neg hself, Option.none_or]
      apply findSome?_update_other
      · intro row reading htake
        obtain ⟨shown, hreading, hname, hlabels, rfl⟩ := takes_gauge htake
        simp [Gauged.shown?, hreading, about_iff, hname, hlabels, hself]
      · simp [Gauged.shown?, about_iff, hself]
  | sample n l value =>
    apply findSome?_update_other
    · intro row reading htake
      obtain ⟨xs, hreading, rfl⟩ := takes_sample htake
      simp only [Gauged.shown?, hreading]
    · rfl

/-! ### All measurements -/

theorem total_measureAll (name : String) (board : Board) (ms : List Measurement) :
    (board.measureAll ms).total name = board.total name + (ms.map (·.counted name)).sum := by
  induction ms generalizing board with
  | nil => rfl
  | cons m ms ih =>
    show ((board.measure m).measureAll ms).total name = _
    rw [ih, total_measure, List.map_cons, List.sum_cons, Nat.add_assoc]

theorem gauge?_measureAll (name : String) (labels : Labels) (board : Board)
    (ms : List Measurement) :
    (board.measureAll ms).gauge? name labels =
      (ms.filterMap (·.set? name labels)).getLast?.or (board.gauge? name labels) := by
  induction ms generalizing board with
  | nil => rfl
  | cons m ms ih =>
    show ((board.measure m).measureAll ms).gauge? name labels = _
    rw [ih, gauge?_measure, ← Option.or_assoc]
    cases hset : m.set? name labels with
    | none => rw [List.filterMap_cons_none hset, Option.or_none]
    | some value =>
      rw [List.filterMap_cons_some hset, List.getLast?_cons]
      cases (ms.filterMap (·.set? name labels)).getLast? <;> rfl

end Board

/-! ### What listeners hear -/

theorem Listener.mem_heard_iff {listeners : List Listener} {kind : String} {i : Nat} :
    i ∈ (heard listeners kind).map Prod.snd ↔ ∃ l, listeners[i]? = some l ∧ l.hears kind := by
  simp only [heard, List.mem_map, List.mem_filter, Prod.exists, exists_eq_right]
  constructor
  · rintro ⟨l, hl, hhears⟩
    exact ⟨l, List.mem_zipIdx_iff_getElem?.mp hl, hhears⟩
  · rintro ⟨l, hl, hhears⟩
    exact ⟨l, List.mem_zipIdx_iff_getElem?.mpr hl, hhears⟩

namespace Occurrence

variable {ε : Type} [Observed ε]

/-- The board after everything that occurred. -/
def board (os : List (Occurrence ε)) : Board :=
  Board.measureAll [] (os.flatMap fun o => Observed.measurements o.component o.event)

/-- What the listener at a position has heard of. -/
def heardAt (listeners : List Listener) (i : Nat) (os : List (Occurrence ε)) :
    List (Occurrence ε) :=
  os.filter fun o => (o.sighting listeners).heardBy.contains i

theorem mem_heardBy_iff {listeners : List Listener} {o : Occurrence ε} {kind : String}
    (h : Observed.kind? o.event = some kind) {i : Nat} :
    i ∈ (o.sighting listeners).heardBy ↔ ∃ l, listeners[i]? = some l ∧ l.hears kind := by
  simp only [sighting, h]
  exact Listener.mem_heard_iff

/-! #### What some events have in common -/

section

variable {β γ : Type} {name : String} {os : List (Occurrence ε)} {pick : ε → Option β}

omit [Observed ε] in
/-- What is seen of one event after the other is seen of what is picked of them. -/
theorem flatMap_picked (view : String → ε → List γ) {seen : β → γ}
    (hview : ∀ e, view name e = (pick e).toList.map seen) (hname : ∀ o ∈ os, o.component = name) :
    os.flatMap (fun o => view o.component o.event) =
      (os.filterMap fun o => pick o.event).map seen := by
  induction os with
  | nil => rfl
  | cons o os ih =>
    rw [List.flatMap_cons, ih fun o' ho' => hname o' (by simp [ho']), hname o (by simp), hview]
    cases h : pick o.event with
    | none => simp [h]
    | some b => simp [h]

/-- A gauge that is set to something of what is picked shows the last of it. -/
theorem gauge?_picked {gauge : String} {labels : Labels} {value : β → Float}
    (hset : ∀ e, (Observed.measurements name e).filterMap (·.set? gauge labels) =
      (pick e).toList.map value) (hname : ∀ o ∈ os, o.component = name) :
    (board os).gauge? gauge labels = (os.filterMap fun o => pick o.event).getLast?.map value := by
  have hall := flatMap_picked
    (fun n e => (Observed.measurements n e).filterMap (·.set? gauge labels)) hset hname
  rw [board, Board.gauge?_measureAll, List.filterMap_flatMap, hall, List.getLast?_map]
  exact Option.or_none

/-- **A listener for the kind of what is picked hears all of it**, in order. -/
theorem filterMap_heardAt {kind : String}
    (hkind : ∀ e b, pick e = some b → Observed.kind? e = some kind) {listeners : List Listener}
    {i : Nat} {l : Listener} (hl : listeners[i]? = some l) (hhears : l.hears kind)
    (os : List (Occurrence ε)) :
    (heardAt listeners i os).filterMap (fun o => pick o.event) =
      os.filterMap fun o => pick o.event := by
  unfold heardAt
  rw [List.filterMap_filter]
  congr 1
  funext o
  cases hpick : pick o.event with
  | none => exact ite_self none
  | some b =>
    have hmem := (mem_heardBy_iff (hkind o.event b hpick)).mpr ⟨l, hl, hhears⟩
    rw [if_pos (List.contains_iff_mem.mpr hmem)]

end

end Occurrence

end Floodgate
