/-
  Floodgate/Proofs/Circuit/Cooldown.lean
  ======================================
  **A cooldown lasts as long as it was set to.**  A circuit that opens refuses every
  call until its cooldown is over, and the first call after that is the first probe.
  Calls that were let through before may end in the meantime, in whatever way.

  A failure that is noted while the circuit is open starts the cooldown again, so the
  theorem does not follow from what one operation does.  It rests on what is under
  way: no call holds a permit of an open circuit (`Rested`), so none of them has an
  outcome that counts.  That is so after every run, also if operators ask the circuit
  and report outcomes on their own.
-/
import Floodgate.Proofs.Circuit.History
import Floodgate.Proofs.Circuit.Transitions

namespace Floodgate

variable {π η : Type}

namespace Move

/-- Nobody but the calls tells the circuit of outcomes, and no operator opens or closes it. -/
def Unforced : Move π η → Prop
  | .order (.circuit .success) => False
  | .order (.circuit .failure) => False
  | .order (.circuit .forceOpen) => False
  | .order (.circuit .reset) => False
  | _ => True

/-- The circuit is asked whether a call may go on. -/
def Asks : Move π η → Prop
  | .call _ _ => True
  | .order (.circuit .canExecute) => True
  | _ => False

theorem Unforced.orderly {m : Move π η} (h : m.Unforced) :
    m.Orderly ∨ m = .order (.circuit .canExecute) := by
  cases m with
  | order order =>
    cases order with
    | circuit asked =>
      cases asked with
      | canExecute => exact .inr rfl
      | _ => exact h.elim
    | _ => exact .inl trivial
  | _ => exact .inl trivial

/-- Operators can ask on their own, and report outcomes of no call. -/
theorem eq_of_not_orderly {m : Move π η} (h : ¬m.Orderly) :
    m = .order (.circuit .canExecute) ∨ m = .order (.circuit .success) ∨
      m = .order (.circuit .failure) := by
  cases m with
  | order order =>
    cases order with
    | circuit asked =>
      cases asked with
      | canExecute => exact .inl rfl
      | success => exact .inr (.inl rfl)
      | failure => exact .inr (.inr rfl)
      | _ => exact absurd trivial h
    | _ => exact absurd trivial h
  | _ => exact absurd trivial h

end Move

/-- The circuit is only asked before the time is up. -/
def Pipeline.AsksBefore (P : Pipeline π η) (deadline : Instant) (t : P.Callers) :
    List (Move π η) → Prop
  | [] => True
  | m :: moves => (m.Asks → t.now < deadline) ∧ P.AsksBefore deadline (P.step t m) moves

/-! ### Circuits that open -/

namespace Circuit

variable {c : Circuit} {now : Instant}

theorem acquire_not_opened (hother : c.phase.state ≠ .opened) :
    (c.acquire now).2.1.phase.state ≠ .opened := by
  cases hasked : (c.acquire now).1 with
  | none =>
    rw [acquire_none hasked]
    exact hother
  | some g => exact acquire_state_ne_opened hasked

/-- **A circuit that opens is open from now on**, whatever opened it. -/
theorem act_opened_now (a : Act) (hother : c.phase.state ≠ .opened)
    (hopened : (c.act now a).1.phase.state = .opened) : (c.act now a).1.phase = .opened now := by
  cases a with
  | canExecute => exact absurd hopened (acquire_not_opened hother)
  | acquire => exact absurd hopened (acquire_not_opened hother)
  | success =>
    simp only [act, recordSuccess, enter_phase] at hopened
    exact absurd (opened_of_afterSuccess hopened) hother
  | failure =>
    simp only [act, recordFailure, enter_phase] at hopened ⊢
    exact afterFailure_of_opened hopened
  | forceOpen => exact enter_phase
  | reset =>
    simp only [act, reset, enter_phase] at hopened
    cases hopened
  | settle g failure =>
    simp only [act] at hopened ⊢
    by_cases hg : g = c.generation
    · subst hg
      cases failure with
      | true =>
        rw [settle_failure_phase] at hopened ⊢
        exact afterFailure_of_opened hopened
      | false =>
        rw [settle_success_phase] at hopened
        exact absurd (opened_of_afterSuccess hopened) hother
    · rw [settle_stale hg] at hopened
      exact absurd hopened hother
  | release g =>
    simp only [act] at hopened
    obtain hc | ⟨issued, successes, _, hc⟩ := release_eq c g
    · rw [hc] at hopened
      exact absurd hopened hother
    · rw [hc] at hopened
      cases hopened
  | advance d => exact absurd hopened hother

end Circuit

/-! ### Permits of an open circuit -/

variable {now : Instant} {c c' : Circuit} {ps ps' : Permits} {x : Deed}

/-- No permit is from a generation to come, and none is of an open circuit. -/
structure Rested (c : Circuit) (ps : Permits) : Prop where
  past : ∀ g, some g ∈ ps → g ≤ c.generation
  resting : c.phase.state = .opened → some c.generation ∉ ps

/-- Only a circuit that is not open may give new permits. -/
theorem Rested.follows (hr : Rested c ps) (hf : Circuit.Follows c c')
    (hps : ∀ g, some g ∈ ps' → some g ∈ ps ∨ (g = c'.generation ∧ c'.phase.state ≠ .opened)) :
    Rested c' ps' where
  past := by
    intro g hg
    rcases hps g hg with hold | ⟨hnew, _⟩
    · exact Nat.le_trans (hr.past g hold) hf.generation_le
    · exact Nat.le_of_eq hnew
  resting := by
    intro hopened hmem
    rcases hps c'.generation hmem with hold | ⟨_, hother⟩
    · by_cases hs : c'.phase.state = c.phase.state
      · rw [hf.same hs] at hold
        exact hr.resting (hs.symm.trans hopened) hold
      · have hle := hr.past c'.generation hold
        rw [hf.other hs] at hle
        exact Nat.not_succ_le_self _ hle
    · exact hother hopened

/-! ### One step -/

/-- **No deed makes a permit of an open circuit.** -/
theorem Dealt.rested (hd : Dealt now c ps x c' ps') (hr : Rested c ps) : Rested c' ps' := by
  apply hr.follows hd.follows
  intro g hg
  cases hd with
  | idle => exact .inl hg
  | skipped => exact .inl (by simpa using hg)
  | admitted g' asked =>
    rcases List.mem_append.mp hg with hold | hnew
    · exact .inl hold
    · have hg' : g = g' := by simpa using hnew
      rw [hg']
      exact .inr ⟨Circuit.acquire_generation asked, Circuit.acquire_state_ne_opened asked⟩
  | refused asked => exact .inl (by simpa using hg)
  | ended n g' failure held => exact .inl (Permits.mem_of_mem_set hg)
  | dropped n g' held => exact .inl (Permits.mem_of_mem_set hg)
  | forced => exact .inl hg
  | reset => exact .inl hg

/-- Every deed is one of the operations of a circuit. -/
theorem Dealt.act (hd : Dealt now c ps x c' ps') : ∃ a, c' = (c.act now a).1 := by
  cases hd with
  | idle => exact ⟨.advance 0, rfl⟩
  | skipped => exact ⟨.advance 0, rfl⟩
  | admitted g asked => exact ⟨.acquire, rfl⟩
  | refused asked => exact ⟨.acquire, rfl⟩
  | ended n g failure held => exact ⟨.settle g failure, rfl⟩
  | dropped n g held => exact ⟨.release g, rfl⟩
  | forced => exact ⟨.forceOpen, rfl⟩
  | reset => exact ⟨.reset, rfl⟩

/-- **Nothing but a call that is let through changes a circuit that is open**, if nobody gives
    it orders. -/
theorem Dealt.cooling (hd : Dealt now c ps x c' ps') (hr : Rested c ps)
    (hopened : c.phase.state = .opened) (hadmitted : ∀ n, x ≠ .admitted n)
    (hforced : x ≠ .forced) (hreset : x ≠ .reset) : c' = c := by
  have hstale : ∀ {n : Nat} {g : Generation}, ps[n]? = some (some g) → g ≠ c.generation := by
    intro n g held hg
    rw [hg] at held
    exact hr.resting hopened (List.mem_of_getElem? held)
  cases hd with
  | idle => rfl
  | skipped => rfl
  | admitted g asked => exact absurd rfl (hadmitted _)
  | refused asked => exact Circuit.acquire_none asked
  | ended n g failure held => exact Circuit.settle_stale (hstale held) failure
  | dropped n g held => exact Circuit.release_stale (hstale held)
  | forced => exact absurd rfl hforced
  | reset => exact absurd rfl hreset

namespace Guarded

variable {o : BreakerOptions} {P : Pipeline π η} {t : Callers P} {m : Move π η}

/-- The circuit opens at the move, or is told to. -/
def Opens (o : BreakerOptions) (P : Pipeline π η) (t : Callers P) (m : Move π η) : Prop :=
  m = .order (.circuit .forceOpen) ∨
    (t.state.own.phase.state ≠ .opened ∧ (move o P t m).state.own.phase.state = .opened)

/-- Whatever is done, the circuit sees one of its operations. -/
theorem own_move_act (on : o.enabled = true) (t : Callers P) (m : Move π η) :
    ∃ a, (move o P t m).state.own = (t.state.own.act t.now a).1 := by
  by_cases hm : m.Orderly
  · exact (dealt_move on t hm).act
  · rcases Move.eq_of_not_orderly hm with rfl | rfl | rfl
    · exact ⟨.canExecute, rfl⟩
    · exact ⟨.success, rfl⟩
    · exact ⟨.failure, rfl⟩

theorem follows_move (on : o.enabled = true) (t : Callers P) (m : Move π η) :
    Circuit.Follows t.state.own (move o P t m).state.own := by
  obtain ⟨a, ha⟩ := own_move_act on t m
  rw [ha]
  exact (Circuit.tells_act t.state.own t.now a).toFollows

theorem rested_move (on : o.enabled = true) (hr : Rested t.state.own (permits t)) (m : Move π η) :
    Rested (move o P t m).state.own (permits (move o P t m)) := by
  by_cases hm : m.Orderly
  · exact (dealt_move on t hm).rested hr
  · have hps : permits (move o P t m) = permits t := by
      rcases Move.eq_of_not_orderly hm with rfl | rfl | rfl <;> rfl
    rw [hps]
    exact hr.follows (follows_move on t m) fun g hg => .inl hg

theorem Opens.phase (on : o.enabled = true) (h : Opens o P t m) :
    (move o P t m).state.own.phase = .opened t.now := by
  rcases h with rfl | ⟨hother, hopened⟩
  · exact Circuit.enter_phase
  · obtain ⟨a, ha⟩ := own_move_act on t m
    rw [ha] at hopened ⊢
    exact Circuit.act_opened_now a hother hopened

/-- A move that nobody forces leaves an open circuit as it is, unless it asks the circuit and the
    cooldown is over. -/
theorem own_move_cooling (on : o.enabled = true) (hr : Rested t.state.own (permits t))
    {since : Instant} (hp : t.state.own.phase = .opened since) (hsince : since ≤ t.now)
    (hm : m.Unforced) (htime : m.Asks → t.now < since + t.state.own.cooldown) :
    (move o P t m).state.own = t.state.own := by
  have hrefused : m.Asks → (t.state.own.acquire t.now).1 = none := by
    intro hasks
    rw [Circuit.acquire_opened_eq_none_iff hp, Nat.sub_lt_iff_lt_add' hsince]
    exact htime hasks
  rcases hm.orderly with horderly | rfl
  · apply (dealt_move on t horderly).cooling hr
    · rw [hp]
      rfl
    · intro n hdeed
      obtain ⟨r, p, rfl, hasked⟩ := deed_eq_admitted hdeed
      exact hasked (hrefused trivial)
    · intro hdeed
      rw [deed_eq_forced hdeed] at hm
      exact hm
    · intro hdeed
      rw [deed_eq_reset hdeed] at hm
      exact hm
  · exact Circuit.acquire_none (hrefused trivial)

/-! ### Until the time is up -/

/-- **An open circuit stays as it is until its cooldown is over**, whatever ends or is given up
    meanwhile. -/
theorem run_cooling (on : o.enabled = true) (hr : Rested t.state.own (permits t))
    {since : Instant} (hp : t.state.own.phase = .opened since) (hsince : since ≤ t.now)
    {later : List (Move π η)} (hlater : ∀ m ∈ later, m.Unforced)
    (htime : (P.guarded o).AsksBefore (since + t.state.own.cooldown) t later) :
    let t' : Callers P := (P.guarded o).run t later
    t'.state.own = t.state.own ∧ since ≤ t'.now := by
  induction later generalizing t with
  | nil => exact ⟨rfl, hsince⟩
  | cons m later ih =>
    obtain ⟨hasks, hrest⟩ := htime
    have hown := own_move_cooling on hr hp hsince (hlater m (by simp)) hasks
    have hnow : since ≤ (move o P t m).now :=
      Nat.le_trans hsince (Pipeline.now_le_step (P := P.guarded o) t m)
    have hlast := ih (t := move o P t m) (rested_move on hr m) (by rw [hown]; exact hp) hnow
      (fun m' hm' => hlater m' (by simp [hm'])) (by rw [hown]; exact hrest)
    rw [hown] at hlast
    exact hlast

/-- What an open circuit says to a call depends on the time alone. -/
theorem start_opened (on : o.enabled = true) {since : Instant}
    (hp : t.state.own.phase = .opened since) (hsince : since ≤ t.now) (r : Http.Request) (p : π) :
    (t.now < since + t.state.own.cooldown →
      start o P.toService t.now r p t.state =
        ⟨.rejected, t.state, told o (t.state.own.acquire t.now).2.2 ++ noted o .turnedAway⟩) ∧
    (since + t.state.own.cooldown ≤ t.now →
      (start o P.toService t.now r p t.state).value =
        .admitted (t.state.own.generation + 1) (P.start t.now r p t.state.inner).value ∧
      (start o P.toService t.now r p t.state).state.own =
        { t.state.own with
            phase := .halfOpen 1 0
            published := .halfOpen
            generation := t.state.own.generation + 1
            changedAt := t.now }) := by
  constructor
  · intro hearly
    have hasked : (t.state.own.acquire t.now).1 = none := by
      rw [Circuit.acquire_opened_eq_none_iff hp, Nat.sub_lt_iff_lt_add' hsince]
      exact hearly
    exact start_refused on hasked
  · intro hlate
    obtain ⟨hasked, hown⟩ := Circuit.acquire_opened_of_le hp
      ((Nat.le_sub_iff_add_le' hsince).mpr hlate)
    refine ⟨start_admitted on hasked, ?_⟩
    rw [own_start on]
    exact hown

end Guarded

/-! ### Under traffic -/

/-- **No call under way was let through by a circuit that is open**, and the circuit keeps the
    cooldown that was set. -/
theorem rested_guardedAfter (d : Deployment π η) {spec : BreakerSpec} (on : spec.enabled = true)
    (now : Instant) (moves : List (Move π η)) :
    let t := d.guardedAfter spec now moves
    Rested t.state.own (Guarded.permits t) ∧ t.state.own.cooldown = spec.cooldown := by
  let Inv (t : Guarded.Callers d.pipeline) : Prop :=
    Rested t.state.own (Guarded.permits t) ∧ t.state.own.cooldown = spec.cooldown
  have hstep : ∀ (t : Guarded.Callers d.pipeline) (m : Move π η), True → Inv t →
      Inv (Guarded.move spec.options d.pipeline t m) := by
    intro t m _ ⟨hr, hcooldown⟩
    exact ⟨Guarded.rested_move (o := spec.options) on hr m,
      (Guarded.follows_move (o := spec.options) on t m).cooldown.trans hcooldown⟩
  have hstart : Inv ((d.guarded spec now).opened now) := by
    refine ⟨⟨?_, ?_⟩, rfl⟩
    · intro g hg
      cases hg
    · intro hopened
      cases hopened
  exact Pipeline.run_invariant (P := d.pipeline.guarded spec.options) (I := Inv) hstep hstart moves
    fun _ _ => trivial

/-- **A cooldown lasts as long as it was set to.**  A move opens an enabled breaker, or forces it
    open; after it no operator touches the circuit.  Then, as long as nobody asks after the
    cooldown is over, the circuit stays exactly as it opened, calls that come too early are
    refused, and the first one that comes later is the only probe of a new episode. -/
theorem cooldown_kept (d : Deployment π η) (spec : BreakerSpec) (on : spec.enabled = true)
    (start : Instant) (moves later : List (Move π η)) (m : Move π η)
    (hopens : Guarded.Opens spec.options d.pipeline (d.guardedAfter spec start moves) m)
    (hlater : ∀ m' ∈ later, m'.Unforced)
    (htime : (d.pipeline.guarded spec.options).AsksBefore
      ((d.guardedAfter spec start moves).now + spec.cooldown)
      (d.guardedAfter spec start (moves ++ [m])) later) :
    let since := (d.guardedAfter spec start moves).now
    let c := (d.guardedAfter spec start (moves ++ [m])).state.own
    let t := d.guardedAfter spec start (moves ++ m :: later)
    c.phase = .opened since ∧ t.state.own = c ∧
    ∀ r p,
      let asked := Guarded.start spec.options d.pipeline.toService t.now r p t.state
      (t.now < since + spec.cooldown → asked.value = .rejected ∧ asked.state = t.state) ∧
      (since + spec.cooldown ≤ t.now →
        asked.value = .admitted (c.generation + 1) (d.pipeline.start t.now r p t.state.inner).value ∧
        asked.state.own =
          { c with
              phase := .halfOpen 1 0
              published := .halfOpen
              generation := c.generation + 1
              changedAt := t.now }) := by
  intro since c t
  have hopening := d.guardedAfter_concat spec start moves m
  have hphase : c.phase = .opened since := by
    have hopened := hopens.phase (o := spec.options) on
    rw [← hopening] at hopened
    exact hopened
  obtain ⟨hr, hcooldown⟩ : _ ∧ c.cooldown = spec.cooldown :=
    rested_guardedAfter d on start (moves ++ [m])
  have hsince : since ≤ (d.guardedAfter spec start (moves ++ [m])).now := by
    rw [hopening]
    exact Pipeline.now_le_step (P := d.pipeline.guarded spec.options) _ m
  have hrun : t = (d.pipeline.guarded spec.options).run
      (d.guardedAfter spec start (moves ++ [m])) later := by
    show d.guardedAfter spec start (moves ++ m :: later) = _
    rw [List.append_cons]
    exact Pipeline.run_append _ (moves ++ [m]) later
  obtain ⟨hown, hnow⟩ := Guarded.run_cooling (o := spec.options) on hr hphase hsince hlater
    (by rw [hcooldown]; exact htime)
  rw [← hrun] at hown hnow
  refine ⟨hphase, hown, ?_⟩
  intro r p asked
  obtain ⟨hearly, hlate⟩ := Guarded.start_opened (o := spec.options) (P := d.pipeline) (t := t) on
    (by rw [hown]; exact hphase) hnow r p
  rw [hown, hcooldown] at hearly hlate
  constructor
  · intro htime
    have hasked : asked = _ := hearly htime
    rw [hasked]
    exact ⟨rfl, rfl⟩
  · exact hlate

/-- The second of two failures comes in the middle of the cooldown that the first one started,
    and the cooldown ends when it would have ended without it. -/
theorem cooled_down_behind_late_failure :
    let r : Http.Request := ⟨"GET", ⟨"/", none⟩, [], none, none⟩
    let down : Option ScriptedAnswer := some (.error (.message "down"))
    let spec : BreakerSpec := { threshold := 1, cooldown := 5 }
    let d : Deployment Errand Handler := ⟨Handler.pipeline, .fresh, []⟩
    let moves : List (Move Errand Handler) := [.call r ⟨"a", down⟩, .call r ⟨"b", down⟩]
    let later : List (Move Errand Handler) :=
      [.advance 3, .poll 1, .call r ⟨"c", none⟩, .advance 2]
    let t := d.guardedAfter spec 0 (moves ++ .poll 0 :: later)
    t.state.own = (d.guardedAfter spec 0 (moves ++ [.poll 0])).state.own ∧
      ∀ p, (Guarded.start spec.options d.pipeline.toService t.now r p t.state).state.own.phase =
        .halfOpen 1 0 := by
  intro r down spec d moves later
  have hearly : (d.pipeline.guarded spec.options).AsksBefore 5
      (d.guardedAfter spec 0 (moves ++ [.poll 0])) later :=
    ⟨False.elim, False.elim, fun _ => by decide, False.elim, trivial⟩
  obtain ⟨_, hown, hasked⟩ := cooldown_kept d spec rfl 0 moves later (.poll 0)
    (.inr ⟨by decide, rfl⟩) (by simp [later, Move.Unforced]) hearly
  constructor
  · exact hown
  · intro p
    obtain ⟨_, hprobe⟩ := (hasked r p).2 (Nat.le_refl 5)
    rw [hprobe]

end Floodgate
