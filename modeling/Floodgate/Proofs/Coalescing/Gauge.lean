/-
  Floodgate/Proofs/Coalescing/Gauge.lean
  ======================================
  **What the gauge of a coalescer shows.**  The gauge `coalesce_in_flight` is meant to show
  how many requests execute as leaders, which is the size of the table of flights.  It is
  set in one place only, when a leader starts, and then to the right number.  A leader that
  ends, whether it answers or is given up, takes its flight out of the table and leaves the
  gauge as it is (`settings_of_not_launches`, `size_after_leader`).

  So from one start to the next the gauge shows what was right at the first of them, and it
  is right as long as no flight has ended since (`gauge_of_last_leader`).  After the last
  leader it stays above zero for good (`gauge_left_behind`).
-/
import Floodgate.Proofs.Coalescing.Sharing
import Floodgate.Proofs.Traffic.Chronicle

namespace Floodgate

open Http (Bytes Head Request)

/-! ### Keys of flights -/

namespace Flights

variable {κ ρ : Type} [DecidableEq κ] {f : Flights κ ρ} {key : κ}

theorem filter_keys_of_none (h : f.inFlight.get? key = Option.none) :
    f.keys.filter (fun k => decide (k ≠ key)) = f.keys := by
  apply List.filter_eq_self.mpr
  intro k hk
  apply decide_eq_true
  rintro rfl
  rw [mem_keys, h] at hk
  cases hk

theorem keys_remove (t : Table κ Flight) (key : κ) :
    (t.remove key).keys = t.keys.filter fun k => decide (k ≠ key) := by
  rw [Table.keys, Table.keys, List.filter_map]
  rfl

theorem keys_complete (f : Flights κ ρ) (key : κ) (result : Except Failure ρ) :
    (f.complete key result).2.2.keys = f.keys.filter fun k => decide (k ≠ key) := by
  unfold complete
  split
  · next hget => exact (filter_keys_of_none hget).symm
  · dsimp only
    split <;> exact keys_remove f.inFlight key

theorem keys_cancel (f : Flights κ ρ) (key : κ) :
    (f.cancel key).keys = f.keys.filter fun k => decide (k ≠ key) := by
  unfold cancel
  split
  · next hget => exact (filter_keys_of_none hget).symm
  · exact keys_remove f.inFlight key

theorem current?_eq_none_iff : f.current? key = Option.none ↔ key ∉ f.keys := by
  rw [mem_keys, current?, Option.map_eq_none_iff, Option.not_isSome_iff_eq_none]

/-- A leader adds its key. -/
theorem size_join_of_not_mem (h : key ∉ f.keys) : (f.join key).2.size = f.size + 1 := by
  have hnone := none_of_current (current?_eq_none_iff.mpr h)
  have hkeys := (Table.keys_put f.inFlight key ⟨f.next, 0⟩).trans (if_neg h)
  have hlength := congrArg List.length hkeys
  rw [List.length_append] at hlength
  simp only [join, hnone, ← length_keys]
  exact hlength

/-- Joining a flight starts none. -/
theorem keys_join_of_mem (h : key ∈ f.keys) : (f.join key).2.keys = f.keys := by
  obtain ⟨flight, hget⟩ := Option.isSome_iff_exists.mp (mem_keys.mp h)
  have hkeys := Table.keys_put f.inFlight key { flight with waiters := flight.waiters + 1 }
  simp only [join, hget]
  exact hkeys.trans (if_pos h)

end Flights

namespace Coalesced

variable {π η K : Type} [DecidableEq K] {o : CoalescerOptions K} {P : Pipeline π η}

/-! ### What happens at a coalescer -/

section

variable {ok : Happening → Prop}

theorem happened_capture (hP : P.Tells ok) (fuel : Nat) (data : Bytes) (body : P.Body)
    (s : P.State) : ∀ h ∈ (capture P.toService fuel data body s).happened, ok h := by
  induction fuel generalizing data body s with
  | zero => nofun
  | succ fuel ih =>
    have hpull := hP.pull body s
    unfold capture
    dsimp only
    split
    · exact hpull
    · exact List.forall_mem_append.mpr ⟨hpull, ih _ _ _⟩
    · exact List.forall_mem_append.mpr ⟨hpull, ih _ _ _⟩
    · exact hpull
    · exact hpull

theorem happened_conclude (hdone : ∀ waiters, ok ⟨o.badge, .coalescing (.completed waiters)⟩)
    (key : K) (result : Except Failure Captured) (s : State K P.toService) :
    ∀ h ∈ (conclude o P.toService key result s).happened, ok h := by
  unfold conclude
  dsimp only
  split
  · exact List.forall_mem_singleton.mpr (hdone _)
  · nofun

theorem happened_gather (hP : P.Tells ok)
    (hdone : ∀ waiters, ok ⟨o.badge, .coalescing (.completed waiters)⟩) (key : K) (head : Head)
    (data : Bytes) (body : P.Body) (s : State K P.toService) :
    ∀ h ∈ (gather o P.toService key head data body s).happened, ok h := by
  have hread := happened_capture hP (P.size body + 1) data body s.inner
  unfold gather
  dsimp only
  split
  · exact hread
  · exact List.forall_mem_append.mpr ⟨hread, happened_conclude hdone _ _ _⟩
  · exact List.forall_mem_append.mpr ⟨hread, happened_conclude hdone _ _ _⟩

/-- A poll tells what happens inside, and of leaders that are done or lost. -/
theorem happened_poll (hP : P.Tells ok)
    (hdone : ∀ waiters, ok ⟨o.badge, .coalescing (.completed waiters)⟩)
    (hlost : ok ⟨o.badge, .coalescing .leaderLost⟩) (now : Instant)
    (call : Call K P.Call P.Body) (s : State K P.toService) :
    ∀ h ∈ (poll o P.toService now call s).happened, ok h := by
  cases call with
  | passed inner => exact hP.poll now inner s.inner
  | leading key inner =>
    have hpoll := hP.poll now inner s.inner
    unfold poll
    dsimp only
    split
    · exact hpoll
    · exact List.forall_mem_append.mpr ⟨hpoll, happened_gather hP hdone _ _ _ _ _⟩
    · exact List.forall_mem_append.mpr ⟨hpoll, happened_conclude hdone _ _ _⟩
  | capturing key head data body => exact happened_gather hP hdone key head data body s
  | waiting flight =>
    unfold poll
    dsimp only
    split
    · nofun
    · nofun
    · exact List.forall_mem_singleton.mpr hlost

omit [DecidableEq K] in
theorem happened_pull (hP : P.Tells ok) (body : Relayed P.Body) (s : State K P.toService) :
    ∀ h ∈ (Relayed.pull P.toService body s).happened, ok h := by
  cases body with
  | own r => nofun
  | passed inner => exact hP.pull inner s.inner

end

/-! ### Moves that start a flight -/

/-- The move is a call that starts a flight. -/
def Launches (t : (P.coalesced o).Callers) : Move π η → Prop
  | .call r _ => ∃ key, o.key? r = some key ∧ key ∉ t.state.own.keys
  | _ => False

/-- None of the moves starts a flight. -/
def LaunchesNone (t : (P.coalesced o).Callers) : List (Move π η) → Prop
  | [] => True
  | m :: moves => ¬Launches t m ∧ LaunchesNone ((P.coalesced o).step t m) moves

variable {t : (P.coalesced o).Callers} {m : Move π η} {moves : List (Move π η)}

/-- A run starts no flight, or there is a move in it that is the last to start one. -/
theorem last_launch (t : (P.coalesced o).Callers) (moves : List (Move π η)) :
    LaunchesNone t moves ∨ ∃ before m after, moves = before ++ m :: after ∧
      Launches ((P.coalesced o).run t before) m ∧
      LaunchesNone ((P.coalesced o).run t (before ++ [m])) after := by
  induction moves generalizing t with
  | nil => exact .inl trivial
  | cons m moves ih =>
    rcases ih ((P.coalesced o).step t m) with hnone | ⟨before, m', after, rfl, hm', hafter⟩
    · by_cases hm : Launches t m
      · exact .inr ⟨[], m, moves, rfl, hm, hnone⟩
      · exact .inl ⟨hm, hnone⟩
    · exact .inr ⟨m :: before, m', after, rfl, hm', hafter⟩

/-- A call that starts no flight leaves the keys as they are. -/
theorem keys_start {r : Request} {p : π} (h : ¬Launches t (.call r p)) :
    ((P.coalesced o).start t.now r p t.state).state.own.keys = t.state.own.keys := by
  cases hkey : o.key? r with
  | none =>
    have hstart := (start_passed (S := P.toService) hkey t.now p t.state).2
    have hkeys := congrArg (fun s : State K P.toService => s.own.keys) hstart
    exact hkeys
  | some key =>
    have hmem : key ∈ t.state.own.keys := by
      by_contra hnew
      exact h ⟨key, hkey, hnew⟩
    cases hcurrent : t.state.own.current? key with
    | none => exact absurd hmem (Flights.current?_eq_none_iff.mp hcurrent)
    | some flight =>
      have hstart := (start_waiting (S := P.toService) hkey hcurrent t.now p).2
      have hkeys := congrArg (fun s : State K P.toService => s.own.keys) hstart
      exact hkeys.trans (Flights.keys_join_of_mem hmem)

theorem keys_poll (now : Instant) (call : Call K P.Call P.Body) (s : State K P.toService) :
    (poll o P.toService now call s).state.own.keys.Sublist s.own.keys := by
  cases hkey : call.key? with
  | none => rw [(poll_other hkey now s).1]
  | some key =>
    rcases poll_leader (o := o) hkey now s with ⟨_, hown, _⟩ | ⟨result, _, _, hown, _⟩
    · rw [hown]
    · rw [hown, Flights.keys_complete]
      exact List.filter_sublist

theorem keys_abandon (call : Call K P.Call P.Body) (s : State K P.toService) :
    (abandon P.toService call s).own.keys.Sublist s.own.keys := by
  rw [abandon_own]
  split
  · rw [Flights.keys_cancel]
    exact List.filter_sublist
  · exact List.Sublist.refl _

omit [DecidableEq K] in
theorem own_pull (body : Relayed P.Body) (s : State K P.toService) :
    (Relayed.pull P.toService body s).state.own = s.own := by
  cases body <;> rfl

/-- Other moves start no flight, though they may end one. -/
theorem keys_of_not_launches (h : ¬Launches t m) :
    ((P.coalesced o).step t m).state.own.keys.Sublist t.state.own.keys := by
  cases m with
  | call r p =>
    have hkeys := keys_start h
    exact hkeys ▸ List.Sublist.refl _
  | poll n =>
    show ((P.coalesced o).stepPoll t n).state.own.keys.Sublist t.state.own.keys
    rcases (P.coalesced o).stepPoll_cases t n with ⟨_, hpoll⟩ | ⟨call, _, hpoll⟩
    · rw [hpoll]
    · rw [hpoll]
      exact keys_poll t.now call t.state
  | drop n =>
    show ((P.coalesced o).stepDrop t n).state.own.keys.Sublist t.state.own.keys
    rcases (P.coalesced o).stepDrop_cases t n with ⟨_, hdrop⟩ | ⟨call, _, hdrop⟩ | ⟨_, _, hdrop⟩
    · rw [hdrop]
    · rw [hdrop]
      exact keys_abandon call t.state
    · rw [hdrop]
  | pull n =>
    show ((P.coalesced o).stepPull t n).state.own.keys.Sublist t.state.own.keys
    rcases (P.coalesced o).stepPull_cases t n with ⟨_, hpull⟩ | ⟨body, _, hpull⟩
    · rw [hpull]
    · rw [hpull]
      have hown := congrArg Flights.keys (own_pull body t.state)
      exact hown ▸ List.Sublist.refl _
  | _ => exact List.Sublist.refl _

/-! ### What the gauge is set to -/

/-- Nothing inside sets the gauge of the coalescer. -/
def GaugeIsOwn (o : CoalescerOptions K) (P : Pipeline π η) : Prop :=
  P.Tells (Happening.Leaves "coalesce_in_flight" [("coalesce", o.badge.name)])

/-- What the gauge of the coalescer is set to, in order. -/
def gaugeSettings (o : CoalescerOptions K) (hs : List Happening) : List Float :=
  Happening.settings "coalesce_in_flight" [("coalesce", o.badge.name)] hs

/-- What the gauge of the coalescer shows, once it has been set. -/
def gaugeShown? (o : CoalescerOptions K) (hs : List Happening) : Option Float :=
  (Happening.board hs).gauge? "coalesce_in_flight" [("coalesce", o.badge.name)]

omit [DecidableEq K] in
theorem gaugeShown?_eq (o : CoalescerOptions K) (hs : List Happening) :
    gaugeShown? o hs = (gaugeSettings o hs).getLast? :=
  Happening.gauge?_board

omit [DecidableEq K] in
theorem gaugeSettings_append (o : CoalescerOptions K) (hs hs' : List Happening) :
    gaugeSettings o (hs ++ hs') = gaugeSettings o hs ++ gaugeSettings o hs' :=
  Happening.settings_append hs hs'

omit [DecidableEq K] in
theorem gaugeSettings_told (o : CoalescerOptions K) (e : CoalescingEvent) :
    gaugeSettings o (told o e) =
      match e with
      | .led inFlight => [Float.ofNat inFlight]
      | _ => [] := by
  cases e <;>
    simp [gaugeSettings, Happening.settings, Happening.measured, told, Happening.sighting,
      Occurrence.sighting, Observed.measurements, CoalescingEvent.counted, Measurement.set?]

/-- **A leader that starts sets the gauge to the size of the table.** -/
theorem settings_of_launches (hP : GaugeIsOwn o P) (h : Launches t m) :
    gaugeSettings o ((P.coalesced o).happenings t m) =
      [Float.ofNat ((P.coalesced o).step t m).state.own.size] := by
  cases m with
  | call r p =>
    obtain ⟨key, hkey, hnew⟩ := h
    have hnone := Flights.current?_eq_none_iff.mpr hnew
    have hinner : gaugeSettings o (P.start t.now r p t.state.inner).happened = [] :=
      Happening.settings_of_leaves (hP.start t.now r p t.state.inner)
    have hown := congrArg (fun s : State K P.toService => s.own.size)
      (start_leading (S := P.toService) hkey hnone t.now p).2
    have htold : (start o P.toService t.now r p t.state).happened =
        told o (.led (t.state.own.join key).2.size) ++
          (P.start t.now r p t.state.inner).happened := by
      simp only [start, hkey, Flights.join_leader hnone]
      rfl
    show gaugeSettings o (start o P.toService t.now r p t.state).happened =
      [Float.ofNat (start o P.toService t.now r p t.state).state.own.size]
    rw [htold, hown, gaugeSettings_append, hinner, gaugeSettings_told, List.append_nil]
  | _ => exact h.elim

/-- **Nothing else sets the gauge**, and least of all a leader that ends. -/
theorem settings_of_not_launches (hP : GaugeIsOwn o P) (h : ¬Launches t m) :
    gaugeSettings o ((P.coalesced o).happenings t m) = [] := by
  cases m with
  | call r p =>
    have hinner : gaugeSettings o (P.start t.now r p t.state.inner).happened = [] :=
      Happening.settings_of_leaves (hP.start t.now r p t.state.inner)
    show gaugeSettings o (start o P.toService t.now r p t.state).happened = []
    cases hkey : o.key? r with
    | none =>
      have htold : (start o P.toService t.now r p t.state).happened =
          told o .bypassed ++ (P.start t.now r p t.state.inner).happened := by
        simp only [start, hkey]
        rfl
      rw [htold, gaugeSettings_append, hinner, gaugeSettings_told, List.append_nil]
    | some key =>
      cases hcurrent : t.state.own.current? key with
      | none => exact absurd ⟨key, hkey, Flights.current?_eq_none_iff.mp hcurrent⟩ h
      | some flight =>
        have htold : (start o P.toService t.now r p t.state).happened = told o .joined := by
          simp only [start, hkey, Flights.join_waiter hcurrent]
        rw [htold, gaugeSettings_told]
  | poll n =>
    apply Happening.settings_of_leaves
    apply Pipeline.forall_happenings_poll
    intro call
    exact happened_poll hP (fun _ => List.forall_mem_nil _) (List.forall_mem_nil _) t.now call
      t.state
  | pull n =>
    apply Happening.settings_of_leaves
    apply Pipeline.forall_happenings_pull
    intro body
    exact happened_pull hP body t.state
  | order order =>
    apply Happening.settings_of_leaves
    exact hP.obey t.now order t.state.inner
  | _ => rfl

/-- As long as no leader starts, the gauge is not set, and flights only end. -/
theorem launchesNone_run (hP : GaugeIsOwn o P) (h : LaunchesNone t moves) :
    gaugeSettings o ((P.coalesced o).chronicle t moves) = [] ∧
      ((P.coalesced o).run t moves).state.own.keys.Sublist t.state.own.keys := by
  induction moves generalizing t with
  | nil => exact ⟨rfl, List.Sublist.refl _⟩
  | cons m moves ih =>
    obtain ⟨hm, hmoves⟩ := h
    obtain ⟨hset, hkeys⟩ := ih hmoves
    constructor
    · rw [Pipeline.chronicle, gaugeSettings_append, settings_of_not_launches hP hm, hset]
      rfl
    · exact hkeys.trans (keys_of_not_launches hm)

/-! ### Leaders that end -/

/-- With its leader one flight has gone from the table. -/
theorem HasLeft.size {t t' : (P.coalesced o).Callers} {n : Nat} {key : K}
    (h : HasLeft t t' n key) (hkey : key ∈ t.state.own.keys) (distinct : t.state.own.keys.Nodup)
    (distinct' : t'.state.own.keys.Nodup) : t'.state.own.size + 1 = t.state.own.size := by
  have hgone : key ∉ t'.state.own.keys := by
    rw [Flights.mem_keys, h.2 key, if_pos rfl]
    exact Bool.false_ne_true
  have hperm : t.state.own.keys.Perm (key :: t'.state.own.keys) := by
    apply (List.perm_ext_iff_of_nodup distinct (List.nodup_cons.mpr ⟨hgone, distinct'⟩)).mpr
    intro k
    rw [List.mem_cons, Flights.mem_keys (f := t'.state.own), h.2 k]
    by_cases hk : key = k
    · subst hk
      simp [hkey]
    · rw [if_neg hk, ← Flights.mem_keys]
      simp [Ne.symm hk]
  have hlength := hperm.length_eq
  rw [List.length_cons, Flights.length_keys, Flights.length_keys] at hlength
  exact hlength.symm

/-- A leader that is polled or given up goes on, or the table has one flight less. -/
theorem size_after_leader {as : (P.coalesced o).Accounts} {n : Nat} {key : K}
    (h : Manifest as t.state.own) (hcalls : Pipeline.Accounted as t) (hn : Holds t n key)
    (hm : m = .poll n ∨ m = .drop n) :
    let t' := (P.coalesced o).step t m
    (m = .poll n ∧ Holds t' n key ∧ t'.state.own = t.state.own) ∨
      (¬Holds t' n key ∧ t'.state.own.size + 1 = t.state.own.size) := by
  intro t'
  have hkey := (h.mem_keys_iff hcalls).mpr ⟨n, hn⟩
  have hleft : HasLeft t t' n key → ¬Holds t' n key ∧ t'.state.own.size + 1 = t.state.own.size := by
    intro hleft
    exact ⟨hleft.1 key, hleft.size hkey h.distinct (h.step hcalls m).distinct⟩
  rcases hm with rfl | rfl
  · rcases Manifest.poll_leaves hn with hgoes | hends
    · exact .inl ⟨rfl, hgoes⟩
    · exact .inr (hleft hends)
  · exact .inr (hleft (Manifest.drop_leaves hn))

/-! ### What the gauge shows -/

theorem size_of_launches (h : Launches t m) :
    ((P.coalesced o).step t m).state.own.size = t.state.own.size + 1 := by
  cases m with
  | call r p =>
    obtain ⟨key, hkey, hnew⟩ := h
    have hnone := Flights.current?_eq_none_iff.mpr hnew
    have hown := congrArg (fun s : State K P.toService => s.own.size)
      (start_leading (S := P.toService) hkey hnone t.now p).2
    exact hown.trans (Flights.size_join_of_not_mem hnew)
  | _ => exact h.elim

/-- Since the last leader started the gauge shows how many there were then, and flights have only
    ended. -/
theorem shown_since_launch (hP : GaugeIsOwn o P) (first : (P.coalesced o).Callers)
    {before after : List (Move π η)} (hm : Launches ((P.coalesced o).run first before) m)
    (hafter : LaunchesNone ((P.coalesced o).run first (before ++ [m])) after) :
    let t₁ := (P.coalesced o).run first (before ++ [m])
    gaugeShown? o ((P.coalesced o).chronicle first (before ++ m :: after)) =
        some (Float.ofNat t₁.state.own.size) ∧
      ((P.coalesced o).run first (before ++ m :: after)).state.own.keys.Sublist
        t₁.state.own.keys := by
  intro t₁
  obtain ⟨hset, hkeys⟩ := launchesNone_run hP hafter
  have hled := settings_of_launches hP hm
  rw [← Pipeline.run_concat] at hled
  have hsplit : before ++ m :: after = before ++ [m] ++ after := by simp
  rw [hsplit, Pipeline.run_append]
  refine ⟨?_, hkeys⟩
  rw [gaugeShown?_eq, Pipeline.chronicle_append, Pipeline.chronicle_concat, gaugeSettings_append,
    gaugeSettings_append, hset, hled, List.append_nil, List.getLast?_concat]

/-- A move that starts no flight leaves the gauge as it is. -/
theorem shown_of_not_launches (hP : GaugeIsOwn o P) (first : (P.coalesced o).Callers)
    (moves : List (Move π η)) (h : ¬Launches ((P.coalesced o).run first moves) m) :
    gaugeShown? o ((P.coalesced o).chronicle first (moves ++ [m])) =
      gaugeShown? o ((P.coalesced o).chronicle first moves) := by
  rw [gaugeShown?_eq, gaugeShown?_eq, Pipeline.chronicle_concat, gaugeSettings_append,
    settings_of_not_launches hP h, List.append_nil]

/-- **The gauge shows how many leaders there were when the last one started.**  The table counts
    the leaders under way.  Before the first of them the gauge is not set.  After that it shows the
    size that the table had right after the last leader had started; since then flights have only
    ended, and the gauge is right exactly if none has.  A leader that ends, by a poll or because it
    is given up, takes one from the size of the table and leaves the gauge as it is. -/
theorem gauge_of_last_leader (o : CoalescerOptions K) (P : Pipeline π η) (hP : GaugeIsOwn o P)
    (now : Instant) (s : P.State) (moves : List (Move π η)) :
    let Q := P.coalesced o
    let first := Q.quiet now ⟨.none, s⟩
    let t := Q.run first moves
    let shown := gaugeShown? o (Q.chronicle first moves)
    t.state.own.size = t.slots.countP (fun slot => (leads? slot).isSome) ∧
    ((LaunchesNone first moves ∧ shown = none ∧ t.state.own.size = 0) ∨
      ∃ before m after, moves = before ++ m :: after ∧
        let t₀ := Q.run first before
        let t₁ := Q.run first (before ++ [m])
        Launches t₀ m ∧ LaunchesNone t₁ after ∧
          t₁.state.own.size = t₀.state.own.size + 1 ∧
          shown = some (Float.ofNat t₁.state.own.size) ∧
          t.state.own.keys.Sublist t₁.state.own.keys ∧
          t.state.own.size ≤ t₁.state.own.size ∧
          (t.state.own.size = t₁.state.own.size ↔ t.state.own.keys = t₁.state.own.keys)) ∧
    ∀ n key m, Holds t n key → m = .poll n ∨ m = .drop n →
      let t' := Q.step t m
      gaugeShown? o (Q.chronicle first (moves ++ [m])) = shown ∧
        ((m = .poll n ∧ Holds t' n key ∧ t'.state.own = t.state.own) ∨
          (¬Holds t' n key ∧ t'.state.own.size + 1 = t.state.own.size)) := by
  intro Q first t shown
  obtain ⟨h, hcalls⟩ := manifest_of_run o P now s moves
  refine ⟨h.size_eq hcalls, ?_, ?_⟩
  · rcases last_launch first moves with hnone | ⟨before, m, after, rfl, hm, hafter⟩
    · obtain ⟨hset, hkeys⟩ := launchesNone_run hP hnone
      refine .inl ⟨hnone, ?_, ?_⟩
      · exact (gaugeShown?_eq o _).trans (congrArg List.getLast? hset)
      · have hnokeys : t.state.own.keys = [] := List.sublist_nil.mp hkeys
        rw [← Flights.length_keys, hnokeys]
        rfl
    · obtain ⟨hshown, hkeys⟩ := shown_since_launch hP first hm hafter
      refine .inr ⟨before, m, after, rfl, hm, hafter, ?_, hshown, hkeys, ?_, ?_⟩
      · rw [Q.run_concat]
        exact size_of_launches hm
      · rw [← Flights.length_keys, ← Flights.length_keys]
        exact hkeys.length_le
      · rw [← Flights.length_keys, ← Flights.length_keys]
        constructor
        · exact hkeys.eq_of_length
        · exact congrArg List.length
  · intro n key m hn hm t'
    refine ⟨shown_of_not_launches hP first moves ?_, size_after_leader h hcalls hn hm⟩
    rcases hm with rfl | rfl <;> exact id

/-- Of two leaders one is given up: the table has one flight, and the gauge still shows two. -/
theorem one_of_two_given_up :
    let o := ({ name := some "api" } : CoalescerSpec).options
    let Q := Handler.pipeline.coalesced o
    let first := Q.quiet 0 ⟨.none, .fresh⟩
    let moves : List (Move Errand Handler) :=
      [.call ⟨"GET", ⟨"/a", none⟩, [], none, none⟩ ⟨"a", none⟩,
        .call ⟨"GET", ⟨"/b", none⟩, [], none, none⟩ ⟨"b", none⟩]
    (Q.run first (moves ++ [.drop 0])).state.own.size = 1 ∧
      gaugeShown? o (Q.chronicle first (moves ++ [.drop 0])) = some (Float.ofNat 2) := by
  intro o Q first moves
  have hown : GaugeIsOwn o Handler.pipeline := Handler.tells _
  obtain ⟨-, -, hends⟩ := gauge_of_last_leader o Handler.pipeline hown 0 .fresh moves
  have hholds : Holds (Q.run first moves) 0 (CoalescingKey.signature ⟨"GET", "/a", none, false⟩) :=
    rfl
  obtain ⟨hshown, ⟨hpoll, -⟩ | ⟨-, hsize⟩⟩ := hends 0 _ (.drop 0) hholds (.inr rfl)
  · cases hpoll
  · refine ⟨?_, hshown.trans ?_⟩
    · rw [Q.run_concat]
      exact Nat.succ.inj hsize
    · rfl

/-- One request is answered at once: nothing is in flight, and the gauge shows one. -/
theorem gauge_left_behind :
    let o := ({ name := some "api" } : CoalescerSpec).options
    let Q := Handler.pipeline.coalesced o
    let first := Q.quiet 0 ⟨.none, .fresh⟩
    let reply : ScriptedAnswer := .ok ⟨⟨200, "HTTP/1.1", [], none⟩, .whole (.ofBytes [])⟩
    let moves : List (Move Errand Handler) :=
      [.call ⟨"GET", ⟨"/", none⟩, [], none, none⟩ ⟨"a", some reply⟩, .poll 0]
    let t := Q.run first moves
    let shown := gaugeShown? o (Q.chronicle first moves)
    o.enabled = true ∧ ¬LaunchesNone first moves ∧ t.state.own.size = 0 ∧
      shown = some (Float.ofNat 1) ∧ shown ≠ some (Float.ofNat t.state.own.size) := by
  intro o Q first reply moves t shown
  have hsize : t.state.own.size = 0 := rfl
  have hshown : shown = some (Float.ofNat 1) := rfl
  refine ⟨rfl, ?_, hsize, hshown, ?_⟩
  · rintro ⟨hfirst, -⟩
    exact hfirst ⟨_, rfl, List.not_mem_nil⟩
  · rw [hshown, hsize]
    have hdiffer : Float.ofNat 1 ≠ Float.ofNat 0 := by decide +kernel
    exact fun h => hdiffer (Option.some.inj h)

end Coalesced

end Floodgate
