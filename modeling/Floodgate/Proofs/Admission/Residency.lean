/-
  Floodgate/Proofs/Admission/Residency.lean
  =========================================
  **How long a limiter remembers a client.**  The sweeper takes away the buckets that
  have been idle for too long when it ticks, and only then.  So a bucket may outlive
  its idle time by the time to the next tick, and that is an interval at most, however
  late ticks are handled: a late one is followed by a full interval from then on, one
  that is nearly on time by an interval from its own time, which is earlier.

  A request starts the sweeper (`StartsSweeper`), but the ticks are counted from its
  first turn (`WakesSweeper`).  Buckets that were idle for longer than the idle time by
  then are there for an interval more.  If the first turn comes as soon as the sweeper
  is started, there are none.

  What carries the proof is that the next tick never lies further ahead than an
  interval, nor later than an interval after the first turn or after the idle time of a
  bucket, whichever is the later (`Tended`).  A sweeper that is dead because its next
  tick would lie beyond the last instant of the clock ticks late enough as well; one that
  never ticks because its interval is zero does not, and then nobody is ever forgotten
  (`idle_client_remembered`).

  Timers go off at whole milliseconds, so a tick may be as late as that even if the
  sweeper never waits for its turn.
-/
import Floodgate.Proofs.Traffic.Basic
import Floodgate.Session.Handler
import Mathlib.Data.List.Induction

namespace Floodgate

/-! ### The next tick -/

namespace Sweeper

variable {s : Sweeper} {now tick limit : Instant} {interval : Duration}

/-- The sweeper is at work and ticks by an instant, if the clock gets there at all. -/
def TicksBy (limit : Instant) : Sweeper → Prop
  | .idle => False
  | .started => False
  | .ticking next => next ≤ limit
  | .dead => horizon ≤ limit

theorem TicksBy.later (h : s.TicksBy limit) {limit' : Instant} (hle : limit ≤ limit') :
    s.TicksBy limit' := by
  cases s with
  | idle => exact h
  | started => exact h
  | ticking next => exact Nat.le_trans h hle
  | dead => exact Nat.le_trans h hle

theorem ticksBy_at? (next : Instant) : (at? next).TicksBy next := by
  unfold at?
  by_cases h : next < horizon
  · rw [if_pos h]
    exact Nat.le_refl next
  · rw [if_neg h]
    exact Nat.le_of_not_lt h

/-- The first turn of a sweeper sets its first tick. -/
theorem ticksBy_wake (hinterval : interval ≠ 0) (now : Instant) :
    (wake .started interval now).TicksBy (now + interval) := by
  simp only [wake, if_neg hinterval]
  exact ticksBy_at? _

theorem start_of_ticksBy (h : s.TicksBy limit) : s.start = s := by
  cases s with
  | idle => exact h.elim
  | started => exact h.elim
  | ticking next => rfl
  | dead => rfl

theorem wake_of_ticksBy (h : s.TicksBy limit) (interval : Duration) (now : Instant) :
    s.wake interval now = s := by
  cases s with
  | idle => exact h.elim
  | started => exact h.elim
  | ticking next => rfl
  | dead => rfl

theorem lastMillisecond_le (now : Instant) : lastMillisecond now ≤ now :=
  Nat.div_mul_le_self now Duration.millisecond

theorem le_of_due? (h : s.due? now = some tick) : tick ≤ lastMillisecond now := by
  cases s with
  | ticking next =>
    simp only [due?, Option.ite_none_right_eq_some, Option.some.injEq] at h
    rw [← h.2]
    exact h.1
  | idle => cases h
  | started => cases h
  | dead => cases h

/-- However late a tick is handled, the next one is at most an interval away. -/
theorem ticksBy_next (h : tick ≤ lastMillisecond now) :
    (next tick interval now).TicksBy (now + interval) := by
  unfold next
  by_cases hlate : tick + tolerance < now
  · rw [if_pos hlate]
    exact ticksBy_at? _
  · rw [if_neg hlate]
    apply (ticksBy_at? _).later
    -- the intervals that have passed fit into the time since the tick
    have hpassed : tick + interval * ((lastMillisecond now - tick) / interval) ≤ now := calc
      _ ≤ tick + (lastMillisecond now - tick) := Nat.add_le_add_left (Nat.mul_div_le _ _) tick
      _ = lastMillisecond now := Nat.add_sub_cancel' h
      _ ≤ now := lastMillisecond_le now
    rw [Nat.mul_succ, ← Nat.add_assoc]
    exact Nat.add_le_add_right hpassed interval

theorem due?_at? {next : Instant} (h : lastMillisecond now < next) :
    (at? next).due? now = none := by
  unfold at?
  split
  · exact if_neg (Nat.not_le_of_lt h)
  · rfl

theorem lastMillisecond_lt_add (hinterval : interval ≠ 0) (now : Instant) :
    lastMillisecond now < now + interval :=
  Nat.lt_of_le_of_lt (lastMillisecond_le now)
    (Nat.lt_add_of_pos_right (Nat.pos_of_ne_zero hinterval))

/-- The first turn comes with no tick. -/
theorem due?_wake (hinterval : interval ≠ 0) (now : Instant) :
    (wake .started interval now).due? now = none := by
  simp only [wake, if_neg hinterval]
  exact due?_at? (lastMillisecond_lt_add hinterval now)

/-- Once a tick has been handled, none is due. -/
theorem due?_next (hinterval : interval ≠ 0) (h : tick ≤ lastMillisecond now) :
    (next tick interval now).due? now = none := by
  unfold next
  split
  · exact due?_at? (lastMillisecond_lt_add hinterval now)
  · apply due?_at?
    have hahead := Nat.lt_mul_div_succ (lastMillisecond now - tick) (Nat.pos_of_ne_zero hinterval)
    exact (Nat.sub_lt_iff_lt_add' h).mp hahead

theorem wake_ne_started (s : Sweeper) (interval : Duration) (now : Instant) :
    s.wake interval now ≠ .started := by
  cases s with
  | started =>
    simp only [wake, at?]
    split
    · nofun
    · split <;> nofun
  | _ => nofun

/-- As long as no tick is due the clock has not got to the next one, as far as timers can
    tell. -/
theorem lastMillisecond_lt (h : s.TicksBy limit) (hdue : s.due? now = none)
    (hclock : now < horizon) : lastMillisecond now < limit := by
  cases s with
  | idle => exact h.elim
  | started => exact h.elim
  | ticking next =>
    have hnext : ¬ next ≤ lastMillisecond now := by
      intro hle
      simp only [due?, if_pos hle] at hdue
      cases hdue
    exact Nat.lt_of_lt_of_le (Nat.lt_of_not_le hnext) h
  | dead => exact Nat.lt_of_le_of_lt (lastMillisecond_le now) (Nat.lt_of_lt_of_le hclock h)

theorem lt_of_upcoming (h : s.TicksBy limit) (hnext : ∀ next, s = .ticking next → now < next)
    (hclock : now < horizon) : now < limit := by
  cases s with
  | idle => exact h.elim
  | started => exact h.elim
  | ticking next => exact Nat.lt_of_lt_of_le (hnext next rfl) h
  | dead => exact Nat.lt_of_lt_of_le hclock h

end Sweeper

/-! ### Last uses -/

section

variable {α : Type} {c : Controller α} {client other : String} {now : Instant} {b : Bucket α}

theorem Controller.of_get?_sweep (nodup : c.buckets.keys.Nodup)
    (h : (c.sweep now).buckets.get? client = some b) :
    c.buckets.get? client = some b ∧ now ≤ b.seenAt + c.idleTime := by
  rw [Controller.get?_sweep nodup, Option.filter_eq_some_iff] at h
  exact ⟨h.1, Nat.sub_le_iff_le_add'.mp (of_decide_eq_true h.2)⟩

variable [Quantity α]

theorem Bucket.seenAt_take (b : Bucket α) (now : Instant) (rate burst : α) :
    (b.take now rate burst).2.seenAt = now := by
  unfold Bucket.take
  dsimp only
  split <;> rfl

/-- After a request its client's bucket was used just now, and any other when it was before. -/
theorem Controller.of_get?_charge (h : (c.charge client now).2.buckets.get? other = some b) :
    b.seenAt = now ∨ c.buckets.get? other = some b := by
  simp only [charge, Table.get?_put] at h
  by_cases hsame : client = other
  · rw [if_pos hsame, Option.some.injEq] at h
    rw [← h]
    exact .inl (Bucket.seenAt_take ..)
  · rw [if_neg hsame] at h
    exact .inr h

theorem Controller.adjust_buckets (c : Controller α) (now : Instant) (load : α) :
    (c.adjust now load).2.buckets = c.buckets := by
  unfold Controller.adjust
  split <;> rfl

theorem Controller.adjust_idleTime (c : Controller α) (now : Instant) (load : α) :
    (c.adjust now load).2.idleTime = c.idleTime := by
  unfold Controller.adjust
  split <;> rfl

end

/-! ### What happens to a limiter -/

variable {α π η : Type}

namespace Limiter

/-- What a move comes to at a limiter. -/
inductive Turns [Quantity α] (now : Instant) (l : Limiter α) : Move π η → Limiter α → Prop
  | nothing (m : Move π η) : Turns now l m l
  | arrived (r : Http.Request) (p : π) (client : String) :
    Turns now l (.call r p) (l.arrive client now).2.1
  | loaded (m : Move π η) (x : α) : Turns now l m { l with load := x }
  | swept : Turns now l (.order .sweep) (l.sweep now false).2.1
  | woken : Turns now l (.order .wake) (l.wake now)
  | ticked (time : Instant) : Turns now l (.order (.tick time)) (l.tick time now).1

/-- What is so at every limiter with this idle time and interval. -/
structure Configured (idleTime interval : Duration) (l : Limiter α) : Prop where
  sameIdle : l.controller.idleTime = idleTime
  sameInterval : l.sweepInterval = interval
  nodup : l.controller.buckets.keys.Nodup

/-- No bucket was last used before an instant that has come. -/
structure UsedSince (asked now : Instant) (l : Limiter α) : Prop where
  come : asked ≤ now
  bucket : ∀ client b, l.controller.buckets.get? client = some b → asked ≤ b.seenAt

variable {idleTime interval : Duration} {asked now now' : Instant} {l l' : Limiter α}
  {m : Move π η}

theorem Configured.sweep (h : l.Configured idleTime interval) (now : Instant)
    (background : Bool) : (l.sweep now background).2.1.Configured idleTime interval where
  sameIdle := h.sameIdle
  sameInterval := h.sameInterval
  nodup := Controller.nodup_keys_sweep h.nodup now

theorem Configured.withSweeper (h : l.Configured idleTime interval) (s : Sweeper) :
    Configured idleTime interval { l with sweeper := s } :=
  ⟨h.sameIdle, h.sameInterval, h.nodup⟩

theorem sweeper_tick {time : Instant} (h : l.sweeper.due? now = some time) :
    (l.tick time now).1.sweeper = Sweeper.next time l.sweepInterval now := by
  unfold tick
  rw [if_pos h]

theorem tick_of_not_due (h : l.sweeper.due? now = none) (time : Instant) :
    l.tick time now = (l, []) := by
  unfold tick
  rw [h]
  rfl

theorem UsedSince.later (h : l.UsedSince asked now) (hnow : now ≤ now') :
    l.UsedSince asked now' :=
  ⟨Nat.le_trans h.come hnow, h.bucket⟩

variable [Quantity α]

theorem Configured.turns (h : l.Configured idleTime interval) (ht : l.Turns now m l') :
    l'.Configured idleTime interval := by
  cases ht with
  | nothing => exact h
  | arrived r p client =>
    constructor
    · exact (Controller.adjust_idleTime _ _ _).trans h.sameIdle
    · exact h.sameInterval
    · apply Controller.nodup_keys_charge
      show (l.controller.adjust now l.load).2.buckets.keys.Nodup
      rw [Controller.adjust_buckets]
      exact h.nodup
  | loaded _ x => exact ⟨h.sameIdle, h.sameInterval, h.nodup⟩
  | swept => exact h.sweep now false
  | woken => exact h.withSweeper _
  | ticked time =>
    unfold tick
    split
    · exact (h.sweep now true).withSweeper _
    · exact h

/-- A bucket that is there was there before, unless it has just been used. -/
theorem Turns.used (ht : l.Turns now m l') (nodup : l.controller.buckets.keys.Nodup)
    (client : String) (b : Bucket α) (h : l'.controller.buckets.get? client = some b) :
    b.seenAt = now ∨ l.controller.buckets.get? client = some b := by
  cases ht with
  | nothing => exact .inr h
  | arrived r p other =>
    have hcharged : ((l.controller.adjust now l.load).2.charge other now).2.buckets.get? client =
        some b := h
    have hbefore := Controller.of_get?_charge hcharged
    rwa [Controller.adjust_buckets] at hbefore
  | loaded _ x => exact .inr h
  | swept => exact .inr (Controller.of_get?_sweep nodup h).1
  | woken => exact .inr h
  | ticked time =>
    unfold tick at h
    split at h
    · exact .inr (Controller.of_get?_sweep nodup h).1
    · exact .inr h

theorem UsedSince.turns (h : l.UsedSince asked now) (nodup : l.controller.buckets.keys.Nodup)
    (ht : l.Turns now m l') : l'.UsedSince asked now where
  come := h.come
  bucket client b hb := by
    rcases ht.used nodup client b hb with hnew | hold
    · rw [hnew]
      exact h.come
    · exact h.bucket client b hold

end Limiter

/-! ### While the sweeper is at work -/

/-- The buckets of a limiter are looked after: none is going to be idle for longer than the idle
    time and an interval when the sweeper ticks next, or else this comes no later than an
    interval after its first turn. -/
structure Tended (idleTime interval : Duration) (woken now : Instant) (l : Limiter α) :
    Prop extends l.Configured idleTime interval where
  ahead : l.sweeper.TicksBy (now + interval)
  bucket : ∀ client b, l.controller.buckets.get? client = some b →
    l.sweeper.TicksBy (max (b.seenAt + idleTime) woken + interval)

namespace Tended

variable {idleTime interval : Duration} {woken now now' : Instant} {l l' : Limiter α}
  {m : Move π η}

theorem later (h : Tended idleTime interval woken now l) (hnow : now ≤ now') :
    Tended idleTime interval woken now' l where
  toConfigured := h.toConfigured
  ahead := h.ahead.later (Nat.add_le_add_right hnow interval)
  bucket := h.bucket

/-- A bucket that has just been used is as fresh as can be. -/
theorem keep (h : Tended idleTime interval woken now l)
    (hconfigured : l'.Configured idleTime interval) (hsweeper : l'.sweeper = l.sweeper)
    (hused : ∀ client b, l'.controller.buckets.get? client = some b →
      b.seenAt = now ∨ l.controller.buckets.get? client = some b) :
    Tended idleTime interval woken now l' where
  toConfigured := hconfigured
  ahead := by
    rw [hsweeper]
    exact h.ahead
  bucket client b hb := by
    rw [hsweeper]
    rcases hused client b hb with hnew | hold
    · apply h.ahead.later
      rw [hnew]
      apply Nat.add_le_add_right
      exact Nat.le_trans (Nat.le_add_right now idleTime) (Nat.le_max_left _ woken)
    · exact h.bucket client b hold

/-- A tick leaves the buckets that may stay until the next one. -/
theorem tick (h : Tended idleTime interval woken now l) (time : Instant) :
    Tended idleTime interval woken now (l.tick time now).1 := by
  unfold Limiter.tick
  by_cases hdue : l.sweeper.due? now = some time
  · have hnext : (Sweeper.next time l.sweepInterval now).TicksBy (now + interval) := by
      rw [h.sameInterval]
      exact Sweeper.ticksBy_next (Sweeper.le_of_due? hdue)
    rw [if_pos hdue]
    refine ⟨(h.toConfigured.sweep now true).withSweeper _, hnext, ?_⟩
    intro client b hb
    have hfresh := (Controller.of_get?_sweep h.nodup hb).2
    rw [h.sameIdle] at hfresh
    apply hnext.later
    apply Nat.add_le_add_right
    exact Nat.le_trans hfresh (Nat.le_max_left _ woken)
  · rw [if_neg hdue]
    exact h

variable [Quantity α]

/-- **Whatever happens to a limiter, its buckets stay looked after.** -/
theorem turns (h : Tended idleTime interval woken now l) (ht : l.Turns now m l') :
    Tended idleTime interval woken now l' := by
  have hconfigured := h.toConfigured.turns ht
  have hused := ht.used h.nodup
  cases ht with
  | nothing => exact h
  | arrived r p client => exact h.keep hconfigured (Sweeper.start_of_ticksBy h.ahead) hused
  | loaded _ x => exact h.keep hconfigured rfl hused
  | swept => exact h.keep hconfigured rfl hused
  | woken => exact h.keep hconfigured (Sweeper.wake_of_ticksBy h.ahead _ now) hused
  | ticked time => exact h.tick time

end Tended

/-! ### Until the sweeper is at work -/

namespace Limiter

variable [Quantity α] {idleTime interval : Duration} {now : Instant} {l l' : Limiter α}
  {m : Move π η}

/-- As long as nobody has made a request there are no buckets. -/
theorem Turns.of_idle (ht : l.Turns now m l') (nodup : l.controller.buckets.keys.Nodup)
    (hidle : l.sweeper = .idle) (hnone : ∀ client, l.controller.buckets.get? client = none) :
    (l'.sweeper = .idle ∧ ∀ client, l'.controller.buckets.get? client = none) ∨
      (∃ r p, m = .call r p) ∧ l'.sweeper = .started ∧ l'.UsedSince now now := by
  have hused := ht.used nodup
  cases ht with
  | nothing => exact .inl ⟨hidle, hnone⟩
  | arrived r p client =>
    refine .inr ⟨⟨r, p, rfl⟩, ?_, Nat.le_refl now, ?_⟩
    · show l.sweeper.start = .started
      rw [hidle]
      rfl
    · intro other b hb
      rcases hused other b hb with hnew | hold
      · exact Nat.le_of_eq hnew.symm
      · rw [hnone] at hold
        cases hold
  | loaded _ x => exact .inl ⟨hidle, hnone⟩
  | swept =>
    refine .inl ⟨hidle, ?_⟩
    intro client
    apply Option.eq_none_iff_forall_ne_some.mpr
    intro b hb
    have hold := (Controller.of_get?_sweep nodup hb).1
    rw [hnone] at hold
    cases hold
  | woken =>
    refine .inl ⟨?_, hnone⟩
    show l.sweeper.wake l.sweepInterval now = .idle
    rw [hidle]
    rfl
  | ticked time =>
    have hdue : l.sweeper.due? now = none := by
      rw [hidle]
      rfl
    rw [tick_of_not_due hdue]
    exact .inl ⟨hidle, hnone⟩

/-- A sweeper that has been started waits for its first turn, and then looks after the buckets. -/
theorem Turns.of_started (ht : l.Turns now m l') (hinterval : interval ≠ 0)
    (hl : l.Configured idleTime interval) (hstarted : l.sweeper = .started) :
    l'.sweeper = .started ∨ m = .order .wake ∧ Tended idleTime interval now now l' := by
  have hconfigured := hl.turns ht
  cases ht with
  | nothing => exact .inl hstarted
  | arrived r p client =>
    left
    show l.sweeper.start = .started
    rw [hstarted]
    rfl
  | loaded _ x => exact .inl hstarted
  | swept => exact .inl hstarted
  | woken =>
    have hticks : (l.wake now).sweeper.TicksBy (now + interval) := by
      show (l.sweeper.wake l.sweepInterval now).TicksBy (now + interval)
      rw [hstarted, hl.sameInterval]
      exact Sweeper.ticksBy_wake hinterval now
    refine .inr ⟨rfl, hconfigured, hticks, ?_⟩
    intro client b _
    exact hticks.later (Nat.add_le_add_right (Nat.le_max_right _ now) interval)
  | ticked time =>
    have hdue : l.sweeper.due? now = none := by
      rw [hstarted]
      rfl
    rw [tick_of_not_due hdue]
    exact .inl hstarted

end Limiter

/-! ### Under traffic -/

/-- **What a move comes to at the limiter.** -/
theorem Limited.turns_step (o : LimiterOptions) (P : Pipeline π η) (t : (P.limited o).Callers)
    (m : Move π η) :
    t.state.own.Turns t.now m ((P.limited o).step t m).state.own := by
  cases m with
  | ready => exact .nothing _
  | call r p =>
    show t.state.own.Turns t.now (.call r p) (start o P.toService t.now r p t.state).state.own
    unfold start
    split
    · dsimp only
      split
      · exact .arrived r p _
      · exact .arrived r p _
    · exact .nothing _
  | skip => exact .nothing _
  | poll n =>
    show t.state.own.Turns t.now (.poll n) ((P.limited o).stepPoll t n).state.own
    rcases (P.limited o).stepPoll_cases t n with ⟨_, hidle⟩ | ⟨call, _, hpoll⟩
    · rw [hidle]
      exact .nothing _
    · rw [hpoll]
      cases call with
      | rejected f => exact .nothing _
      | admitted inner => exact .nothing _
  | drop n =>
    show t.state.own.Turns t.now (.drop n) ((P.limited o).stepDrop t n).state.own
    rcases (P.limited o).stepDrop_cases t n with
      ⟨_, hidle⟩ | ⟨call, _, hdrop⟩ | ⟨body, _, hdrop⟩
    · rw [hidle]
      exact .nothing _
    · rw [hdrop]
      cases call with
      | rejected f => exact .nothing _
      | admitted inner => exact .nothing _
    · rw [hdrop]
      exact .nothing _
  | pull n =>
    show t.state.own.Turns t.now (.pull n) ((P.limited o).stepPull t n).state.own
    rcases (P.limited o).stepPull_cases t n with ⟨_, hidle⟩ | ⟨body, _, hpull⟩
    · rw [hidle]
      exact .nothing _
    · rw [hpull]
      exact .nothing _
  | advance d => exact .nothing _
  | core change => exact .nothing _
  | order order =>
    cases order with
    | load x => exact .loaded _ x
    | sweep => exact .swept
    | wake => exact .woken
    | tick time => exact .ticked time
    | clone => exact .nothing _
    | circuit asked => exact .nothing _

namespace Deployment

variable (d : Deployment π η) (spec : LimiterSpec) (start : Instant) (moves : List (Move π η))

/-- Admission control around a pipeline, after a run of its callers. -/
def limitedAfter : (d.pipeline.limited spec.options).Callers :=
  (d.limited spec start).pipeline.run ((d.limited spec start).opened start) moves

/-- The sweeper was started by a request that was made at `asked`. -/
def StartsSweeper (asked : Instant) : Prop :=
  ∃ before r p after, moves = before ++ .call r p :: after ∧
    (d.limitedAfter spec start before).state.own.sweeper = .idle ∧
    (d.limitedAfter spec start before).now = asked ∧
    (d.limitedAfter spec start (before ++ [.call r p])).state.own.sweeper = .started

/-- The sweeper was started at `asked` and had its first turn at `woken`. -/
def WakesSweeper (asked woken : Instant) : Prop :=
  ∃ before after, moves = before ++ .order .wake :: after ∧
    d.StartsSweeper spec start before asked ∧
    (d.limitedAfter spec start before).state.own.sweeper = .started ∧
    (d.limitedAfter spec start before).now = woken

/-- How far the sweeper has got. -/
inductive SweeperPhase : Prop where
  | idle (hidle : (d.limitedAfter spec start moves).state.own.sweeper = .idle)
    (hnone : ∀ client,
      (d.limitedAfter spec start moves).state.own.controller.buckets.get? client = none) :
    SweeperPhase
  | started (asked : Instant) (hstarts : d.StartsSweeper spec start moves asked)
    (hstarted : (d.limitedAfter spec start moves).state.own.sweeper = .started)
    (hused : (d.limitedAfter spec start moves).state.own.UsedSince asked
      (d.limitedAfter spec start moves).now) : SweeperPhase
  | working (asked woken : Instant) (hwakes : d.WakesSweeper spec start moves asked woken)
    (hused : (d.limitedAfter spec start moves).state.own.UsedSince asked
      (d.limitedAfter spec start moves).now)
    (htended : Tended spec.idleTime spec.sweepInterval woken
      (d.limitedAfter spec start moves).now (d.limitedAfter spec start moves).state.own) :
    SweeperPhase

variable {d spec start moves} {asked woken : Instant}

theorem limitedAfter_concat (m : Move π η) :
    d.limitedAfter spec start (moves ++ [m]) =
      (d.pipeline.limited spec.options).step (d.limitedAfter spec start moves) m :=
  Pipeline.run_concat _ moves m

theorem StartsSweeper.concat (h : d.StartsSweeper spec start moves asked) (m : Move π η) :
    d.StartsSweeper spec start (moves ++ [m]) asked := by
  obtain ⟨before, r, p, after, rfl, hstate⟩ := h
  exact ⟨before, r, p, after ++ [m], by simp, hstate⟩

theorem WakesSweeper.concat (h : d.WakesSweeper spec start moves asked woken) (m : Move π η) :
    d.WakesSweeper spec start (moves ++ [m]) asked woken := by
  obtain ⟨before, after, rfl, hstate⟩ := h
  exact ⟨before, after ++ [m], by simp, hstate⟩

theorem configured_limitedAfter (d : Deployment π η) (spec : LimiterSpec) (start : Instant)
    (moves : List (Move π η)) :
    (d.limitedAfter spec start moves).state.own.Configured spec.idleTime spec.sweepInterval := by
  let Inv (t : (d.pipeline.limited spec.options).Callers) : Prop :=
    t.state.own.Configured spec.idleTime spec.sweepInterval
  have hstep : ∀ (t : (d.pipeline.limited spec.options).Callers) (m : Move π η), True → Inv t →
      Inv ((d.pipeline.limited spec.options).step t m) := by
    intro t m _ ht
    exact ht.turns (Limited.turns_step spec.options d.pipeline t m)
  have hfresh : Inv ((d.limited spec start).opened start) := ⟨rfl, rfl, List.nodup_nil⟩
  exact Pipeline.run_invariant (P := d.pipeline.limited spec.options) (I := Inv) hstep
    hfresh moves fun _ _ => trivial

theorem SweeperPhase.concat (h : d.SweeperPhase spec start moves)
    (hinterval : spec.sweepInterval ≠ 0) (m : Move π η) :
    d.SweeperPhase spec start (moves ++ [m]) := by
  have hconfigured := d.configured_limitedAfter spec start moves
  have hturns := Limited.turns_step spec.options d.pipeline (d.limitedAfter spec start moves) m
  have hnow : (d.limitedAfter spec start moves).now ≤
      (d.limitedAfter spec start (moves ++ [m])).now := by
    rw [limitedAfter_concat]
    exact Pipeline.now_le_step _ m
  rw [← limitedAfter_concat] at hturns
  -- only a request ends the first phase, and only a turn of the sweeper the second
  rcases h with ⟨hidle, hnone⟩ | ⟨asked, hstarts, hstarted, hused⟩ |
    ⟨asked, woken, hwakes, hused, htended⟩
  · rcases hturns.of_idle hconfigured.nodup hidle hnone with
      ⟨hidle', hnone'⟩ | ⟨⟨r, p, rfl⟩, hstarted, hused⟩
    · exact .idle hidle' hnone'
    · exact .started _ ⟨moves, r, p, [], rfl, hidle, rfl, hstarted⟩ hstarted (hused.later hnow)
  · have hused' := (hused.turns hconfigured.nodup hturns).later hnow
    rcases hturns.of_started hinterval hconfigured hstarted with hstarted' | ⟨rfl, htended⟩
    · exact .started asked (hstarts.concat m) hstarted' hused'
    · exact .working asked _ ⟨moves, [], rfl, hstarts, hstarted, rfl⟩ hused' (htended.later hnow)
  · have hused' := (hused.turns hconfigured.nodup hturns).later hnow
    exact .working asked woken (hwakes.concat m) hused' ((htended.turns hturns).later hnow)

/-- **Once the sweeper has had its first turn the buckets are looked after**, if its interval is
    not zero. -/
theorem sweeperPhase (d : Deployment π η) {spec : LimiterSpec}
    (hinterval : spec.sweepInterval ≠ 0) (start : Instant) (moves : List (Move π η)) :
    d.SweeperPhase spec start moves := by
  induction moves using List.reverseRecOn with
  | nil => exact .idle rfl (fun _ => rfl)
  | append_singleton moves m ih => exact ih.concat hinterval m

/-- A bucket that is there when the sweeper has had its first turn has been used since the sweeper
    was started, and is going to be looked at. -/
theorem SweeperPhase.of_bucket (h : d.SweeperPhase spec start moves) {client : String}
    {b : Bucket Float}
    (hb : (d.limitedAfter spec start moves).state.own.controller.buckets.get? client = some b)
    (hturn : (d.limitedAfter spec start moves).state.own.sweeper ≠ .started) :
    ∃ asked woken, d.WakesSweeper spec start moves asked woken ∧ asked ≤ b.seenAt ∧
      (d.limitedAfter spec start moves).state.own.sweeper.TicksBy
        (max (b.seenAt + spec.idleTime) woken + spec.sweepInterval) := by
  rcases h with ⟨_, hnone⟩ | ⟨_, _, hstarted, _⟩ | ⟨asked, woken, hwakes, hused, htended⟩
  · rw [hnone] at hb
    cases hb
  · exact absurd hstarted hturn
  · exact ⟨asked, woken, hwakes, hused.bucket client b hb, htended.bucket client b hb⟩

end Deployment

/-- What has not lasted for an interval since the end of an idle time, or since the first turn if
    that was later. -/
theorem age_le_of_lt {now seenAt idleTime woken interval : Nat}
    (h : now < max (seenAt + idleTime) woken + interval) :
    now - seenAt ≤ max idleTime (woken - seenAt) + interval := by
  omega

/-- **Idle clients are forgotten in time.**  Suppose the sweep interval is not zero.  Once the
    sweeper has had its first turn, every bucket was last used at most the idle time and an
    interval ago, at every instant of the clock at which no tick's time has come that has not
    been handled.  Where the sweeper has handled the ticks for which timers have gone off, that
    is so as of the last whole millisecond.

    That is if the first turn comes as soon as the sweeper is started.  If it comes late, a
    bucket may be idle for longer than the idle time until then, and is there for an interval
    more.

    The sweeper is up to date as soon as it has had its first turn, and whenever it has handled
    the tick that is due. -/
theorem idle_clients_forgotten (d : Deployment π η) (e : EdgeSpec)
    (ticks : e.settings.rate.sweepSeconds ≠ 0) (start : Instant) (moves : List (Move π η)) :
    let t := d.limitedAfter e.limiter start moves
    let sweeper := t.state.own.sweeper
    let idleTime := Duration.ofSeconds e.settings.rate.idleSeconds
    let interval := Duration.ofSeconds e.settings.rate.sweepSeconds
    let after (o : Order) : Sweeper :=
      ((d.pipeline.limited e.limiter.options).step t (.order o)).state.own.sweeper
    t.now < Sweeper.horizon →
    (∀ client b, t.state.own.controller.buckets.get? client = some b → sweeper ≠ .started →
      ∃ asked woken, d.WakesSweeper e.limiter start moves asked woken ∧ asked ≤ b.seenAt ∧
        let residence := max idleTime (woken - b.seenAt) + interval
        ((∀ next, sweeper = .ticking next → t.now < next) → t.now - b.seenAt ≤ residence) ∧
        (sweeper.due? t.now = none → Sweeper.lastMillisecond t.now - b.seenAt ≤ residence) ∧
        (woken = asked → residence = idleTime + interval)) ∧
    (sweeper = .started → after .wake ≠ .started ∧ (after .wake).due? t.now = none) ∧
    (∀ time, sweeper.due? t.now = some time → (after (.tick time)).due? t.now = none) := by
  intro t sweeper idleTime interval after hclock
  have hinterval : e.limiter.sweepInterval ≠ 0 := Nat.mul_ne_zero ticks (by decide)
  have hconfigured := d.configured_limitedAfter e.limiter start moves
  refine ⟨?_, ?_, ?_⟩
  · intro client b hb hturn
    obtain ⟨asked, woken, hwakes, hasked, hticks⟩ :=
      (d.sweeperPhase hinterval start moves).of_bucket hb hturn
    refine ⟨asked, woken, hwakes, hasked, ?_, ?_, ?_⟩
    · intro hnext
      exact age_le_of_lt (Sweeper.lt_of_upcoming hticks hnext hclock)
    · intro hdue
      exact age_le_of_lt (Sweeper.lastMillisecond_lt hticks hdue hclock)
    · intro hprompt
      rw [hprompt, Nat.sub_eq_zero_of_le hasked, Nat.max_zero]
  · intro hstarted
    have hwoken : after .wake = Sweeper.wake .started interval t.now := by
      show t.state.own.sweeper.wake t.state.own.sweepInterval t.now = _
      rw [hconfigured.sameInterval]
      exact congrArg (Sweeper.wake · interval t.now) hstarted
    rw [hwoken]
    exact ⟨Sweeper.wake_ne_started _ _ _, Sweeper.due?_wake hinterval t.now⟩
  · intro time hdue
    have hticked : after (.tick time) = Sweeper.next time interval t.now := by
      show (t.state.own.tick time t.now).1.sweeper = _
      rw [Limiter.sweeper_tick hdue]
      exact congrArg (Sweeper.next time · t.now) hconfigured.sameInterval
    rw [hticked]
    exact Sweeper.due?_next hinterval (Sweeper.le_of_due? hdue)

/-- The sweeper gets its first turn three seconds late, so a client that should be forgotten
    after two is remembered for nearly four.  Then a tick is handled ten milliseconds late and
    just keeps the second client.  The next one is a whole interval later, but its timer goes off
    at a whole millisecond, and before that there is a bucket that has been idle for two seconds
    and a part of a millisecond. -/
theorem late_turn_and_late_tick :
    let r (address : List Nat) : Http.Request :=
      ⟨"GET", ⟨"/", none⟩, [], some (.v4 address), none⟩
    let e : EdgeSpec := { settings := { rate := { idleSeconds := 1, sweepSeconds := 1 } } }
    let d : Deployment Errand Handler := ⟨Handler.pipeline, .fresh, []⟩
    let early : List (Move Errand Handler) :=
      [.call (r [10, 0, 0, 1]) ⟨"a", none⟩, .advance 3000000000, .order .wake, .advance 10500000,
        .call (r [10, 0, 0, 2]) ⟨"b", none⟩, .advance 989000000]
    let moves : List (Move Errand Handler) :=
      early ++ [.advance 11000000, .order (.tick 4000000000), .advance 1000300000]
    let t := d.limitedAfter e.limiter 0 moves
    let ages (moves : List (Move Errand Handler)) : List (String × Duration) :=
      let t := d.limitedAfter e.limiter 0 moves
      t.state.own.controller.buckets.map fun p => (p.1, t.now - p.2.seenAt)
    (d.limitedAfter e.limiter 0 early).state.own.sweeper = .ticking 4000000000 ∧
      ages early = [("10.0.0.1", 3999500000), ("10.0.0.2", 989000000)] ∧
      t.now < Sweeper.horizon ∧ t.state.own.sweeper ≠ .started ∧
      t.state.own.sweeper.due? t.now = none ∧ ages moves = [("10.0.0.2", 2000300000)] ∧
      ∀ client b, t.state.own.controller.buckets.get? client = some b →
        ∃ asked woken, d.WakesSweeper e.limiter 0 moves asked woken ∧ asked ≤ b.seenAt ∧
          Sweeper.lastMillisecond t.now - b.seenAt ≤
            max (Duration.ofSeconds 1) (woken - b.seenAt) + Duration.ofSeconds 1 := by
  intro r e d early moves t ages
  have hclock : t.now < Sweeper.horizon := by decide +kernel
  have hturn : t.state.own.sweeper ≠ .started := by decide +kernel
  have hdue : t.state.own.sweeper.due? t.now = none := by decide +kernel
  refine ⟨by decide +kernel, by decide +kernel, hclock, hturn, hdue, by decide +kernel, ?_⟩
  intro client b hb
  obtain ⟨asked, woken, hwakes, hasked, -, hresidence, -⟩ :=
    (idle_clients_forgotten d e (by decide) 0 moves hclock).1 client b hb hturn
  exact ⟨asked, woken, hwakes, hasked, hresidence hdue⟩

/-- Settings with a sweep interval of zero pass the check, and the sweeper dies of them: an hour
    later the client is still remembered, though it should be forgotten after a second. -/
theorem idle_client_remembered :
    let r : Http.Request := ⟨"GET", ⟨"/", none⟩, [], none, none⟩
    let e : EdgeSpec := { settings := { rate := { idleSeconds := 1, sweepSeconds := 0 } } }
    let moves : List (Move Errand Handler) :=
      [.call r ⟨"a", none⟩, .order .wake, .advance (Duration.ofSeconds 3600)]
    let t := Deployment.limitedAfter ⟨Handler.pipeline, .fresh, []⟩ e.limiter 0 moves
    e.settings.fault?.isNone = true ∧ e.settings.rate.enabled = true ∧
      t.now < Sweeper.horizon ∧ t.state.own.sweeper = .dead ∧
      t.state.own.sweeper.due? t.now = none ∧
      t.state.own.controller.buckets.map (fun p => (p.1, t.now - p.2.seenAt)) =
        [("unknown", Duration.ofSeconds 3600)] := by
  decide +kernel

end Floodgate
