/-
  Floodgate/Proofs/Admission/Reaping.lean
  =======================================
  **What reaping idle buckets does to clients.**  A swept client starts over with a
  full bucket.  That is what it would have found anyway if the bucket had time enough
  to fill up while it lay idle, and nothing in the settings of a controller says that
  it had: idle time, rate and burst are chosen independently of each other.

  The shortest time in which a bucket is swept is the idle time and a nanosecond.  If
  a whole burst comes in during that time, a controller that sweeps and one that does
  not answer alike forever: what is missing here is full there (`Agree`).  Otherwise a
  client that uses up its burst before and after the sweep gets more than a bucket
  that is kept would give it.
-/
import Floodgate.Proofs.Admission.Window

namespace Floodgate

open Quantity (seconds)

/-! ### Buckets that are never overdrawn -/

namespace Bucket

variable {b : Bucket ℚ} {now : Instant} {rate burst : ℚ}

/-- A bucket as requests up to an instant leave it. -/
structure Sound (b : Bucket ℚ) (now : Instant) : Prop where
  nonneg : 0 ≤ b.tokens
  past : b.refilledAt ≤ now
  seen : b.seenAt = b.refilledAt

theorem Sound.later (h : b.Sound now) (d : Duration) : b.Sound (now + d) :=
  ⟨h.nonneg, Nat.le_trans h.past (Nat.le_add_right _ _), h.seen⟩

theorem sound_full (hburst : 0 ≤ burst) (now : Instant) : (full burst now).Sound now :=
  ⟨hburst, Nat.le_refl _, rfl⟩

theorem tokensAt_nonneg (h : b.Sound now) (hrate : 0 ≤ rate) (hburst : 0 ≤ burst) :
    0 ≤ b.tokensAt now rate burst := by
  have hgain : 0 ≤ seconds (now - b.refilledAt) * rate :=
    mul_nonneg (Quantity.seconds_nonneg _) hrate
  apply le_min _ hburst
  linarith [h.nonneg]

theorem tokensAt_le (b : Bucket ℚ) (now : Instant) (rate burst : ℚ) :
    b.tokensAt now rate burst ≤ burst :=
  min_le_right _ _

theorem Sound.take (h : b.Sound now) (hrate : 0 ≤ rate) (hburst : 0 ≤ burst) :
    (b.take now rate burst).2.Sound now := by
  have hnonneg := tokensAt_nonneg h hrate hburst
  unfold Bucket.take
  by_cases hone : 1 ≤ b.tokensAt now rate burst
  · have hleft : 0 ≤ b.tokensAt now rate burst - 1 := by linarith
    simp only [Quantity.atLeast_exact, Quantity.ofNat_exact, Nat.cast_one, hone, decide_true,
      if_true]
    exact ⟨hleft, Nat.le_refl _, rfl⟩
  · simp only [Quantity.atLeast_exact, Quantity.ofNat_exact, Nat.cast_one, hone, decide_false,
      Bool.false_eq_true, if_false]
    exact ⟨hnonneg, Nat.le_refl _, rfl⟩

/-- A bucket that is full by an instant. -/
def IsFull (b : Bucket ℚ) (now : Instant) (rate burst : ℚ) : Prop :=
  b.tokensAt now rate burst = burst

theorem isFull_iff :
    b.IsFull now rate burst ↔ burst ≤ b.tokens + seconds (now - b.refilledAt) * rate :=
  min_eq_right_iff

theorem isFull_full (hrate : 0 ≤ rate) (now : Instant) : (full burst now).IsFull now rate burst := by
  have hgain : 0 ≤ seconds (now - (full burst now).refilledAt) * rate :=
    mul_nonneg (Quantity.seconds_nonneg _) hrate
  rw [isFull_iff]
  show burst ≤ burst + _
  linarith

/-- A bucket that is full stays so until it is used. -/
theorem IsFull.later (h : b.IsFull now rate burst) (hrate : 0 ≤ rate) (d : Duration) :
    b.IsFull (now + d) rate burst := by
  rw [isFull_iff] at h ⊢
  have hlonger : now - b.refilledAt ≤ now + d - b.refilledAt :=
    Nat.sub_le_sub_right (Nat.le_add_right _ _) _
  have hgain := mul_le_mul_of_nonneg_right (Quantity.seconds_mono hlonger) hrate
  linarith

/-- An idle bucket is full if a burst comes in while it is idle. -/
theorem Sound.isFull_of_idle (h : b.Sound now) (hrate : 0 ≤ rate) {idleTime : Duration}
    (enough : burst ≤ rate * seconds (idleTime + 1)) (idle : idleTime < now - b.seenAt) :
    b.IsFull now rate burst := by
  rw [isFull_iff]
  rw [h.seen] at idle
  have hgain := mul_le_mul_of_nonneg_right (Quantity.seconds_mono idle) hrate
  have hnonneg := h.nonneg
  rw [mul_comm] at enough
  exact le_trans enough (by simpa using add_le_add hnonneg hgain)

/-- Taking a token depends on the tokens there are. -/
theorem take_congr {b' : Bucket ℚ}
    (h : b'.tokensAt now rate burst = b.tokensAt now rate burst) :
    b'.take now rate burst = b.take now rate burst := by
  unfold Bucket.take
  rw [h]

end Bucket

namespace Desk

variable {rate : ℚ} {burst : Nat} {idleTime : Duration}

/-! ### A controller that sweeps and one that does not -/

/-- What happens to a controller apart from sweeps. -/
def unswept (visits : List (Visit ℚ)) : List (Visit ℚ) :=
  visits.filter fun
    | .sweep => false
    | _ => true

/-- A controller with settings that nothing changes. -/
structure Settled (rate : ℚ) (burst : Nat) (idleTime : Duration) (k : Desk ℚ) : Prop where
  sameRate : k.controller.effectiveRate = rate
  sameBurst : k.controller.burst = burst
  sameIdle : k.controller.idleTime = idleTime
  unloaded : k.controller.schedule = none

namespace Settled

variable {k : Desk ℚ}

theorem adjust_eq (h : Settled rate burst idleTime k) (load : ℚ) : k.step (.adjust load) = k := by
  have hsame : (k.controller.adjust k.now load).2 = k.controller := by
    simp [Controller.adjust, Controller.readsLoad, h.unloaded]
  simp only [step, hsame]

theorem step (h : Settled rate burst idleTime k) (v : Visit ℚ) :
    Settled rate burst idleTime (k.step v) := by
  cases v with
  | request client => exact ⟨h.sameRate, h.sameBurst, h.sameIdle, h.unloaded⟩
  | advance d => exact ⟨h.sameRate, h.sameBurst, h.sameIdle, h.unloaded⟩
  | sweep => exact ⟨h.sameRate, h.sameBurst, h.sameIdle, h.unloaded⟩
  | adjust load =>
    rw [h.adjust_eq]
    exact h

end Settled

/-- The tokens a client finds now. -/
def tokens (k : Desk ℚ) (client : String) : ℚ :=
  (k.controller.bucket client k.now).tokensAt k.now k.controller.effectiveRate
    k.controller.burst

/-- Two controllers that answer alike: a bucket that only the second has is full. -/
structure Agree (rate : ℚ) (burst : Nat) (idleTime : Duration) (k u : Desk ℚ) : Prop where
  left : Settled rate burst idleTime k
  right : Settled rate burst idleTime u
  sameTime : k.now = u.now
  sameRecord : k.record = u.record
  nodup : k.controller.buckets.keys.Nodup
  sound : ∀ client b, u.controller.buckets.get? client = some b → b.Sound u.now
  bucket : ∀ client, k.controller.buckets.get? client = u.controller.buckets.get? client ∨
    (k.controller.buckets.get? client = none ∧
      ∀ b, u.controller.buckets.get? client = some b → b.IsFull u.now rate burst)

namespace Agree

variable {k u : Desk ℚ}

theorem opened (rate : ℚ) (burst : Nat) (idleTime : Duration) (start : Instant) :
    Agree rate burst idleTime (opened rate burst idleTime start)
      (opened rate burst idleTime start) where
  left := ⟨rfl, rfl, rfl, rfl⟩
  right := ⟨rfl, rfl, rfl, rfl⟩
  sameTime := rfl
  sameRecord := rfl
  nodup := List.nodup_nil
  sound := by
    intro client b hb
    cases hb
  bucket := fun _ => .inl rfl

/-- A client finds as many tokens here as there. -/
theorem tokens_eq (h : Agree rate burst idleTime k u) (hrate : 0 ≤ rate) (client : String) :
    k.tokens client = u.tokens client := by
  have hnew : (Bucket.full (burst : ℚ) u.now).tokensAt u.now rate burst = burst :=
    Bucket.isFull_full hrate u.now
  unfold tokens Controller.bucket
  rw [h.sameTime, h.left.sameRate, h.right.sameRate, h.left.sameBurst, h.right.sameBurst]
  rcases h.bucket client with hsame | ⟨hnone, hfull⟩
  · rw [hsame]
  · rw [hnone]
    cases hb : u.controller.buckets.get? client with
    | none => rfl
    | some b => exact hnew.trans (hfull b hb).symm

theorem take_eq (h : Agree rate burst idleTime k u) (hrate : 0 ≤ rate) (client : String) :
    (k.controller.bucket client k.now).take k.now k.controller.effectiveRate
        (Quantity.ofNat k.controller.burst) =
      (u.controller.bucket client u.now).take u.now u.controller.effectiveRate
        (Quantity.ofNat u.controller.burst) := by
  have htokens := h.tokens_eq hrate client
  unfold tokens at htokens
  rw [h.left.sameRate, h.right.sameRate, h.left.sameBurst, h.right.sameBurst,
    h.sameTime] at htokens ⊢
  exact Bucket.take_congr htokens

/-- The bucket a client finds. -/
theorem sound_bucket (h : Agree rate burst idleTime k u) (client : String) :
    (u.controller.bucket client u.now).Sound u.now := by
  unfold Controller.bucket
  cases hb : u.controller.buckets.get? client with
  | none =>
    rw [h.right.sameBurst]
    exact Bucket.sound_full (Nat.cast_nonneg burst) u.now
  | some b => exact h.sound client b hb

theorem request (h : Agree rate burst idleTime k u) (hrate : 0 ≤ rate) (client : String) :
    Agree rate burst idleTime (k.step (.request client)) (u.step (.request client)) := by
  have htake := h.take_eq hrate client
  have hadmits : k.admits client = u.admits client := by
    simp only [admits, Controller.charge, htake]
  constructor
  · exact h.left.step _
  · exact h.right.step _
  · exact h.sameTime
  · simp only [step, h.sameTime, h.sameRecord, hadmits]
  · exact Table.nodup_keys_put h.nodup _ _
  · intro other b hb
    simp only [step, Controller.charge, Table.get?_put] at hb
    by_cases hother : client = other
    · rw [if_pos hother] at hb
      obtain rfl := Option.some.inj hb
      rw [h.right.sameRate, h.right.sameBurst]
      exact (h.sound_bucket client).take hrate (Nat.cast_nonneg burst)
    · rw [if_neg hother] at hb
      exact h.sound other b hb
  · intro other
    simp only [step, Controller.charge, Table.get?_put, htake]
    by_cases hother : client = other
    · left
      simp only [if_pos hother]
    · simp only [if_neg hother]
      exact h.bucket other

theorem advance (h : Agree rate burst idleTime k u) (hrate : 0 ≤ rate) (d : Duration) :
    Agree rate burst idleTime (k.step (.advance d)) (u.step (.advance d)) := by
  constructor
  · exact h.left.step _
  · exact h.right.step _
  · exact congrArg (· + d) h.sameTime
  · exact h.sameRecord
  · exact h.nodup
  · intro client b hb
    exact (h.sound client b hb).later d
  · intro client
    rcases h.bucket client with hsame | ⟨hnone, hfull⟩
    · exact .inl hsame
    · exact .inr ⟨hnone, fun b hb => (hfull b hb).later hrate d⟩

/-- A sweep takes away full buckets only. -/
theorem sweep (h : Agree rate burst idleTime k u) (hrate : 0 ≤ rate)
    (enough : (burst : ℚ) ≤ rate * seconds (idleTime + 1)) :
    Agree rate burst idleTime (k.step .sweep) u := by
  constructor
  · exact h.left.step _
  · exact h.right
  · exact h.sameTime
  · exact h.sameRecord
  · exact Controller.nodup_keys_sweep h.nodup k.now
  · exact h.sound
  · intro client
    show (k.controller.sweep k.now).buckets.get? client = _ ∨
      (k.controller.sweep k.now).buckets.get? client = none ∧ _
    rw [Controller.get?_sweep h.nodup]
    rcases h.bucket client with hsame | ⟨hnone, hfull⟩
    · rw [hsame]
      cases hb : u.controller.buckets.get? client with
      | none => exact .inl rfl
      | some b =>
        by_cases hidle : k.now - b.seenAt ≤ k.controller.idleTime
        · exact .inl (if_pos (decide_eq_true hidle))
        · refine .inr ⟨if_neg (by simpa using hidle), ?_⟩
          intro b' hb'
          obtain rfl := Option.some.inj hb'
          rw [h.sameTime, h.left.sameIdle] at hidle
          exact (h.sound client b hb).isFull_of_idle hrate enough (Nat.lt_of_not_le hidle)
    · rw [hnone]
      exact .inr ⟨rfl, hfull⟩

/-- Whether a sweep leaves enough alone matters only if there is one. -/
theorem run (h : Agree rate burst idleTime k u) (hrate : 0 ≤ rate) {visits : List (Visit ℚ)}
    (enough : Visit.sweep ∈ visits → (burst : ℚ) ≤ rate * seconds (idleTime + 1)) :
    Agree rate burst idleTime (k.run visits) (u.run (unswept visits)) := by
  induction visits generalizing k u with
  | nil => exact h
  | cons v visits ih =>
    have hlater : Visit.sweep ∈ visits → (burst : ℚ) ≤ rate * seconds (idleTime + 1) :=
      fun hmem => enough (List.mem_cons_of_mem v hmem)
    cases v with
    | request client => exact ih (h.request hrate client) hlater
    | advance d => exact ih (h.advance hrate d) hlater
    | sweep => exact ih (h.sweep hrate (enough List.mem_cons_self)) hlater
    | adjust load =>
      refine ih ?_ hlater
      rw [h.left.adjust_eq, h.right.adjust_eq]
      exact h

/-- The bucket of a client was last used some time ago. -/
theorem seenAt_le (h : Agree rate burst idleTime k u) {client : String} {b : Bucket ℚ}
    (hb : k.controller.buckets.get? client = some b) : b.seenAt ≤ k.now := by
  rcases h.bucket client with hsame | ⟨hnone, -⟩
  · have hsound := h.sound client b (hsame.symm.trans hb)
    rw [hsound.seen, h.sameTime]
    exact hsound.past
  · exact absurd (hnone.symm.trans hb) (by simp)

end Agree

/-! ### Buckets that are swept too soon -/

variable {k : Desk ℚ} {client : String}

theorem tokens_request (hone : 1 ≤ k.tokens client) :
    k.admits client = true ∧ (k.step (.request client)).tokens client = k.tokens client - 1 := by
  have htaken : (k.controller.bucket client k.now).take k.now k.controller.effectiveRate
      (Quantity.ofNat k.controller.burst) = (.ok (), ⟨k.tokens client - 1, k.now, k.now⟩) := by
    have hone' : 1 ≤ (k.controller.bucket client k.now).tokensAt k.now
      k.controller.effectiveRate k.controller.burst := hone
    simp [Bucket.take, tokens, hone']
  constructor
  · simp only [admits, Controller.charge, htaken]
    rfl
  · have hbucket : (k.step (.request client)).controller.bucket client k.now =
        ⟨k.tokens client - 1, k.now, k.now⟩ := by
      simp only [step, Controller.charge, Controller.bucket, Table.get?_put, if_pos]
      exact congrArg Prod.snd htaken
    have hcap : k.tokens client ≤ k.controller.burst := Bucket.tokensAt_le _ _ _ _
    show ((k.step (.request client)).controller.bucket client k.now).tokensAt k.now
      k.controller.effectiveRate k.controller.burst = _
    rw [hbucket]
    show min (k.tokens client - 1 + seconds (k.now - k.now) * _) _ = _
    rw [Nat.sub_self, Quantity.seconds_zero, zero_mul, add_zero]
    exact min_eq_left (by linarith)

/-- A client that uses up its tokens at once is admitted as long as there are any. -/
theorem record_burst (client : String) {n : Nat} (hn : (n : ℚ) ≤ k.tokens client) :
    (k.run (List.replicate n (.request client))).record =
      List.replicate n ⟨client, k.now, true⟩ ++ k.record := by
  induction n generalizing k with
  | zero => rfl
  | succ n ih =>
    rw [Nat.cast_succ] at hn
    have hnonneg : (0 : ℚ) ≤ n := Nat.cast_nonneg n
    have hone : 1 ≤ k.tokens client := by linarith
    obtain ⟨hadmits, hleft⟩ := tokens_request hone
    have hrest : (n : ℚ) ≤ (k.step (.request client)).tokens client := by linarith
    have hrecord : (k.step (.request client)).record = ⟨client, k.now, true⟩ :: k.record := by
      simp only [step, hadmits]
    calc (k.run (List.replicate (n + 1) (.request client))).record
      _ = ((k.step (.request client)).run (List.replicate n (.request client))).record := rfl
      _ = List.replicate n ⟨client, k.now, true⟩ ++ (k.step (.request client)).record := ih hrest
      _ = List.replicate (n + 1) ⟨client, k.now, true⟩ ++ k.record := by
        rw [hrecord, List.replicate_succ', List.append_assoc, List.singleton_append]

theorem now_burst (k : Desk ℚ) (client : String) (n : Nat) :
    (k.run (List.replicate n (.request client))).now = k.now := by
  induction n generalizing k with
  | zero => rfl
  | succ n ih => exact ih (k.step (.request client))

/-- A swept client finds a full bucket. -/
theorem tokens_sweep (hrate : 0 ≤ k.controller.effectiveRate)
    (nodup : k.controller.buckets.keys.Nodup)
    (idle : ∀ b, k.controller.buckets.get? client = some b →
      k.controller.idleTime < k.now - b.seenAt) :
    (k.step .sweep).tokens client = k.controller.burst := by
  have hnone : (k.step .sweep).controller.buckets.get? client = none := by
    show (k.controller.sweep k.now).buckets.get? client = none
    rw [Controller.get?_sweep nodup]
    cases hb : k.controller.buckets.get? client with
    | none => rfl
    | some b =>
      have hidle := Nat.not_le.mpr (idle b hb)
      exact if_neg (by simpa only [decide_eq_true_eq] using hidle)
  unfold tokens Controller.bucket
  rw [hnone]
  exact Bucket.isFull_full hrate k.now

/-- A client uses up its burst twice, with a sweep in between. -/
def twoBursts (burst : Nat) (gap : Duration) (client : String) : List (Visit ℚ) :=
  List.replicate burst (.request client) ++
    .advance gap :: .sweep :: List.replicate burst (.request client)

theorem record_twoBursts (hrate : 0 ≤ rate) (burst : Nat) (idleTime : Duration)
    (start : Instant) (client : String) :
    ((opened rate burst idleTime start).run (twoBursts burst (idleTime + 1) client)).record =
      List.replicate burst ⟨client, start + (idleTime + 1), true⟩ ++
        List.replicate burst ⟨client, start, true⟩ := by
  have hfull : (opened rate burst idleTime start).tokens client = burst :=
    Bucket.isFull_full hrate start
  have hfirst := record_burst client (le_of_eq hfull.symm)
  have hnow := now_burst (opened rate burst idleTime start) client burst
  have hagree : Agree rate burst idleTime
      ((opened rate burst idleTime start).run (List.replicate burst (.request client)))
      ((opened rate burst idleTime start).run
        (unswept (List.replicate burst (.request client)))) :=
    (Agree.opened rate burst idleTime start).run hrate (by simp)
  have hsplit : (opened rate burst idleTime start).run (twoBursts burst (idleTime + 1) client) =
      ((((opened rate burst idleTime start).run (List.replicate burst (.request client))).step
        (.advance (idleTime + 1))).step .sweep).run
          (List.replicate burst (.request client)) := by
    simp only [run, twoBursts, List.foldl_append, List.foldl_cons]
  rw [hsplit]
  generalize (opened rate burst idleTime start).run (List.replicate burst (.request client)) = k
    at hfirst hnow hagree
  have hidle : ∀ b, k.controller.buckets.get? client = some b →
      k.controller.idleTime < k.now + (idleTime + 1) - b.seenAt := by
    intro b hb
    have hlong : ∀ s t idle : Nat, s ≤ t → idle < t + (idle + 1) - s := by
      intro s t idle h
      omega
    rw [hagree.left.sameIdle]
    exact hlong _ _ _ (hagree.seenAt_le hb)
  have hswept : ((k.step (.advance (idleTime + 1))).step .sweep).tokens client = burst := by
    have hrate' : 0 ≤ (k.step (.advance (idleTime + 1))).controller.effectiveRate :=
      le_of_le_of_eq hrate hagree.left.sameRate.symm
    rw [tokens_sweep hrate' hagree.nodup hidle]
    exact congrArg Nat.cast hagree.left.sameBurst
  rw [record_burst client (le_of_eq hswept.symm)]
  show List.replicate burst ⟨client, k.now + (idleTime + 1), true⟩ ++ k.record = _
  rw [hfirst, hnow]
  simp [Desk.opened]

/-- Nothing takes a bucket away from a controller that is not swept. -/
theorem spared_unswept (client : String) (k : Desk ℚ) (visits : List (Visit ℚ)) :
    Spared client k (unswept visits) := by
  induction visits generalizing k with
  | nil => trivial
  | cons v visits ih =>
    cases v with
    | request other => exact ⟨nofun, ih _⟩
    | advance d => exact ⟨nofun, ih _⟩
    | sweep => exact ih k
    | adjust load => exact ⟨nofun, ih _⟩

/-! ### When a sweep goes unnoticed -/

/-- **When reaping goes unnoticed.**  Whatever clients do, a controller that sweeps its idle
    buckets gives every request the answer it would have got if no bucket were ever swept, if
    and only if the shortest time in which a bucket is swept, the idle time and a nanosecond,
    brings in a whole burst. -/
theorem reaping_unnoticed_iff (rate : ℚ) (hrate : 0 < rate) (burst : Nat) (idleTime : Duration)
    (start : Instant) :
    (∀ visits, ((opened rate burst idleTime start).run visits).record =
      ((opened rate burst idleTime start).run (unswept visits)).record) ↔
    (burst : ℚ) ≤ rate * seconds (idleTime + 1) := by
  constructor
  · intro unnoticed
    -- two bursts of one client, for which a bucket that is kept may not have room
    have hrecord := unnoticed (twoBursts burst (idleTime + 1) "")
    rw [record_twoBursts hrate.le] at hrecord
    have hadmitted : ((opened rate burst idleTime start).run
        (unswept (twoBursts burst (idleTime + 1) ""))).admissions "" =
          List.replicate burst (start + (idleTime + 1)) ++ List.replicate burst start := by
      simp [admissions, ← hrecord]
    have hlevelled := (levelled_opened rate burst idleTime start "").run hrate.le
      (spared_unswept "" _ (twoBursts burst (idleTime + 1) ""))
    have hsorted := hlevelled.sorted
    have hfunded := hlevelled.funded
    rw [hadmitted] at hsorted hfunded
    have hroom : (((List.replicate burst (start + (idleTime + 1)) ++
        List.replicate burst start).countP
          fun s => decide (start ≤ s ∧ s ≤ start + (idleTime + 1)) : ℕ) : ℚ) ≤
            burst + rate * seconds (start + (idleTime + 1) - start) :=
      countP_window_le hrate.le hsorted hfunded
    have hall : (List.replicate burst (start + (idleTime + 1)) ++
        List.replicate burst start).countP
          (fun s => decide (start ≤ s ∧ s ≤ start + (idleTime + 1))) = burst + burst := by
      simp [List.countP_replicate]
    rw [hall, Nat.add_sub_cancel_left, Nat.cast_add] at hroom
    linarith
  · intro enough visits
    exact ((Agree.opened rate burst idleTime start).run hrate.le fun _ => enough).sameRecord

/-- With room for two tokens, one token a second and two seconds of idle time, a client that
    was swept after two seconds and a half finds what it would have found anyway. -/
theorem reaping_unnoticed_after_two_seconds :
    let visits := [.request "a", .request "a", .request "a", .advance 2500000000, .sweep,
      .request "a", .request "a", .request "a"]
    ((opened (1 : ℚ) 2 (Duration.ofSeconds 2) 0).run (visits.take 5)).controller.clients = 0 ∧
      ((opened (1 : ℚ) 2 (Duration.ofSeconds 2) 0).run visits).record =
        ((opened (1 : ℚ) 2 (Duration.ofSeconds 2) 0).run (unswept visits)).record := by
  intro visits
  have henough : ((2 : ℕ) : ℚ) ≤ 1 * seconds (Duration.ofSeconds 2 + 1) := by decide +kernel
  refine ⟨by decide +kernel, ?_⟩
  exact (reaping_unnoticed_iff 1 (by norm_num) 2 (Duration.ofSeconds 2) 0).mpr henough visits

/-- With only one second of idle time, the client gets a token it has not waited for. -/
theorem reaping_noticed_after_one_second :
    let visits := [.request "a", .request "a", .advance 1500000000, .sweep, .request "a",
      .request "a"]
    ((opened (1 : ℚ) 2 (Duration.ofSeconds 1) 0).run visits).record.map Attempt.admitted =
        [true, true, true, true] ∧
      ((opened (1 : ℚ) 2 (Duration.ofSeconds 1) 0).run (unswept visits)).record.map
        Attempt.admitted = [false, true, true, true] := by
  decide +kernel

end Desk

end Floodgate
