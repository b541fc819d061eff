/-
  Floodgate/Proofs/Admission/Waiting.lean
  =======================================
  **How long a refused client has to wait.**  A client that finds no token is told how
  long the missing part takes to come in, and a client that gets its answer from the
  pipeline is told so in whole seconds.  Whether it is admitted if it does as it was
  told depends on the roundings in between.

  The time that is missing (`missing`) is a fraction of nanoseconds, and a wait is the
  nearest whole number of them: half of all waits are too short by up to half a
  nanosecond, and the client that keeps to one is refused again.  The header rounds
  what it is given up, and so makes good for that, except where the rounded wait has
  no nanoseconds left to be rounded up (`waited_enough_iff`).
-/
import Floodgate.Proofs.Admission.Isolation
import Floodgate.Proofs.Admission.Reaping
import Floodgate.Rejection

namespace Floodgate

open Quantity (seconds)

/-- A bucket without a whole token is left as it is found. -/
theorem Bucket.take_refused {b : Bucket ℚ} {now : Instant} {rate burst : ℚ}
    (h : b.tokensAt now rate burst < 1) :
    b.take now rate burst =
      (.error (wait (b.tokensAt now rate burst) rate), ⟨b.tokensAt now rate burst, now, now⟩) := by
  have hfew : ¬ 1 ≤ b.tokensAt now rate burst := not_le.mpr h
  simp [Bucket.take, hfew]

namespace Desk

variable {rate : ℚ} {burst : Nat} {idleTime : Duration} {k : Desk ℚ} {client : String}

/-- The time until a whole token is there, without rounding. -/
def missing (k : Desk ℚ) (client : String) : ℚ :=
  (1 - k.tokens client) / k.controller.effectiveRate

/-- A client that keeps silent for some time is admitted, whatever else happens meanwhile. -/
def Suffices (k : Desk ℚ) (client : String) (d : Duration) : Prop :=
  ∀ later, Visit.request client ∉ later → k.now + d ≤ (k.run later).now →
    (k.run later).admits client = true

/-! ### Refusals -/

theorem charge_refused (h : k.tokens client < 1) :
    k.reply client = .error (Quantity.toDuration (k.missing client)) ∧
      (k.step (.request client)).controller.buckets.get? client =
        some ⟨k.tokens client, k.now, k.now⟩ := by
  have htake := Bucket.take_refused h
  constructor
  · simp only [reply, Controller.charge, Quantity.ofNat_exact, htake]
    rfl
  · simp only [step, Controller.charge, Quantity.ofNat_exact, htake, Table.get?_put, if_true]
    rfl

theorem admits_iff_tokens : k.admits client = true ↔ 1 ≤ k.tokens client := by
  constructor
  · intro hadmits
    by_contra hfew
    have hrefused := (charge_refused (not_le.mp hfew)).1
    have hok : (k.reply client).isOk = true := hadmits
    rw [hrefused] at hok
    cases hok
  · exact fun hone => (tokens_request hone).1

/-- Who is refused has less than a token, and is told the time that is missing. -/
theorem reply_error {wait : Duration} (h : k.reply client = .error wait) :
    k.tokens client < 1 ∧ wait = Quantity.toDuration (k.missing client) := by
  have hfew : k.tokens client < 1 := by
    by_contra hone
    have hok : (k.reply client).isOk = true := (tokens_request (not_lt.mp hone)).1
    rw [h] at hok
    cases hok
  refine ⟨hfew, ?_⟩
  exact Except.error.inj (h.symm.trans (charge_refused hfew).1)

theorem Settled.run (h : Settled rate burst idleTime k) (visits : List (Visit ℚ)) :
    Settled rate burst idleTime (k.run visits) := by
  induction visits generalizing k with
  | nil => exact h
  | cons v visits ih => exact ih (h.step v)

theorem settled_opened (rate : ℚ) (burst : Nat) (idleTime : Duration) (start : Instant) :
    Settled rate burst idleTime (opened rate burst idleTime start) :=
  ⟨rfl, rfl, rfl, rfl⟩

theorem nodup_keys_run (rate : ℚ) (burst : Nat) (idleTime : Duration) (start : Instant)
    (visits : List (Visit ℚ)) :
    ((opened rate burst idleTime start).run visits).controller.buckets.keys.Nodup :=
  have hopened : (opened rate burst idleTime start).controller.buckets.keys.Nodup := List.nodup_nil
  (sameFor_concerning (SameFor.refl "" hopened) visits).2.left

/-! ### Keeping silent -/

/-- A client whose bucket is as its last request left it, or was swept. -/
structure LeftAlone (rate : ℚ) (burst : Nat) (idleTime : Duration) (client : String)
    (tokens : ℚ) (since : Instant) (k : Desk ℚ) : Prop where
  settled : Settled rate burst idleTime k
  nodup : k.controller.buckets.keys.Nodup
  bucket : k.controller.buckets.get? client = none ∨
    k.controller.buckets.get? client = some ⟨tokens, since, since⟩

namespace LeftAlone

variable {tokens : ℚ} {since : Instant}

/-- Whatever happens but a request of the client keeps it so. -/
theorem step (h : LeftAlone rate burst idleTime client tokens since k) {v : Visit ℚ}
    (silent : v ≠ .request client) :
    LeftAlone rate burst idleTime client tokens since (k.step v) := by
  have hsettled := h.settled.step v
  cases v with
  | request other =>
    have hother : other ≠ client := fun heq => silent (congrArg Visit.request heq)
    refine ⟨hsettled, Controller.nodup_keys_charge h.nodup other k.now, ?_⟩
    simp only [Desk.step, Controller.get?_charge_other _ _ hother]
    exact h.bucket
  | advance d => exact ⟨hsettled, h.nodup, h.bucket⟩
  | sweep =>
    refine ⟨hsettled, Controller.nodup_keys_sweep h.nodup k.now, ?_⟩
    have hswept := Controller.get?_sweep h.nodup k.now client
    simp only [Desk.step, hswept]
    rcases h.bucket with hnone | hsome
    · rw [hnone]
      exact .inl rfl
    · rw [hsome, Option.filter_some]
      split_ifs
      · exact .inr rfl
      · exact .inl rfl
  | adjust load =>
    rw [h.settled.adjust_eq] at hsettled ⊢
    exact h

theorem run (h : LeftAlone rate burst idleTime client tokens since k) {later : List (Visit ℚ)}
    (silent : Visit.request client ∉ later) :
    LeftAlone rate burst idleTime client tokens since (k.run later) := by
  induction later generalizing k with
  | nil => exact h
  | cons v later ih =>
    have hfirst : v ≠ .request client := fun heq => silent (by simp [heq])
    exact ih (h.step hfirst) fun hmem => silent (List.mem_cons_of_mem v hmem)

/-- A client that has kept silent is admitted if its bucket was swept or time enough has
    passed. -/
theorem admits_iff (h : LeftAlone rate burst idleTime client tokens since k) (hrate : 0 < rate)
    (hburst : 1 ≤ burst) :
    k.admits client = true ↔ k.controller.buckets.get? client = none ∨
      (1 - tokens) / rate ≤ seconds (k.now - since) := by
  have hroom : (1 : ℚ) ≤ burst := by exact_mod_cast hburst
  rw [admits_iff_tokens]
  rcases h.bucket with hnone | hsome
  · have hfull : k.tokens client = burst := by
      unfold Desk.tokens Controller.bucket
      rw [hnone, h.settled.sameBurst, h.settled.sameRate]
      exact Bucket.isFull_full hrate.le k.now
    rw [hfull]
    exact ⟨fun _ => .inl hnone, fun _ => hroom⟩
  · have hgained : k.tokens client = min (tokens + seconds (k.now - since) * rate) burst := by
      unfold Desk.tokens Controller.bucket
      rw [hsome, h.settled.sameBurst, h.settled.sameRate]
      rfl
    rw [hgained, le_min_iff, div_le_iff₀ hrate, hsome]
    constructor
    · rintro ⟨hone, -⟩
      exact .inr (by linarith)
    · rintro (hnone | hone)
      · cases hnone
      · exact ⟨by linarith, hroom⟩

end LeftAlone

/-- A refused client has to keep silent for the time that is missing, and no longer. -/
theorem suffices_iff (h : Settled rate burst idleTime k) (nodup : k.controller.buckets.keys.Nodup)
    (hrate : 0 < rate) (hburst : 1 ≤ burst) (hfew : k.tokens client < 1) (d : Duration) :
    (k.step (.request client)).Suffices client d ↔ k.missing client ≤ seconds d := by
  have hsome := (charge_refused hfew).2
  have halone : LeftAlone rate burst idleTime client (k.tokens client) k.now
      (k.step (.request client)) :=
    ⟨h.step _, Controller.nodup_keys_charge nodup client k.now, .inr hsome⟩
  have hmissing : k.missing client = (1 - k.tokens client) / rate := by
    unfold missing
    rw [h.sameRate]
  rw [hmissing]
  constructor
  · intro hsuffices
    -- nothing happens while the client waits, so its bucket is not swept
    have hwaited := hsuffices [.advance d] (by simp) (Nat.le_refl _)
    rw [(halone.run (by simp)).admits_iff hrate hburst] at hwaited
    rcases hwaited with hnone | henough
    · exact absurd (hsome.symm.trans hnone) (by simp)
    · have hpassed : k.now + d - k.now = d := Nat.add_sub_cancel_left _ _
      exact hpassed ▸ henough
  · intro henough later silent hlater
    have hpassed : d ≤ ((k.step (.request client)).run later).now - k.now :=
      Nat.le_sub_of_add_le (Nat.add_comm d k.now ▸ hlater)
    rw [(halone.run silent).admits_iff hrate hburst]
    exact .inr (le_trans henough (Quantity.seconds_mono hpassed))

/-! ### What a refused client is told -/

theorem values_retryAfter (client : String) (wait : Duration) :
    (Rejection.rateLimited client (some wait)).answer.head.headers.values "retry-after" =
      [Http.utf8 (toString (Rejection.retrySeconds wait))] := by
  have hname : Http.fieldName "retry-after" = "retry-after" := by decide +kernel
  simp [Rejection.answer, Http.Response.json, Http.Headers.replace, Http.Headers.remove,
    Http.Headers.append, Http.Headers.values, hname]

/-- A wait that is not a whole number of seconds is rounded up. -/
theorem lt_retrySeconds {wait : Nat} (h : wait ≤ Duration.ofSeconds Rejection.retryLimit)
    (hpart : wait = 0 ∨ Duration.subsecond wait ≠ 0) :
    wait < Duration.ofSeconds (Rejection.retrySeconds wait) := by
  rcases hpart with rfl | hpart
  · decide
  · rw [Rejection.retrySeconds, if_pos (Nat.pos_of_ne_zero hpart)]
    simp only [Rejection.retryLimit, Duration.ofSeconds, Duration.seconds, Duration.subsecond,
      Duration.second] at *
    omega

/-- A whole number of seconds is told as it is. -/
theorem retrySeconds_whole {wait : Nat} (h : wait ≤ Duration.ofSeconds Rejection.retryLimit)
    (hpos : wait ≠ 0) (hwhole : Duration.subsecond wait = 0) :
    Duration.ofSeconds (Rejection.retrySeconds wait) = wait := by
  have hparts : wait / Duration.second * Duration.second = wait :=
    Nat.div_mul_cancel (Nat.dvd_of_mod_eq_zero hwhole)
  have hroom : wait / Duration.second ≤ Rejection.retryLimit :=
    Nat.div_le_of_le_mul (Nat.mul_comm _ Duration.second ▸ h)
  have hone : 1 ≤ wait / Duration.second := by
    refine Nat.pos_of_ne_zero fun hzero => hpos ?_
    rw [← hparts, hzero, Nat.zero_mul]
  calc Duration.ofSeconds (Rejection.retrySeconds wait)
    _ = max 1 (min Rejection.retryLimit (wait / Duration.second)) * Duration.second := by
      rw [Rejection.retrySeconds, if_neg (by simp [hwhole])]
      rfl
    _ = wait := by rw [min_eq_right hroom, max_eq_right hone, hparts]

/-- **When a client that waits as long as it was told is admitted.**  A client with a bucket of
    one token or more is refused.  It is told a positive wait after which it is admitted, if it
    keeps silent meanwhile, if and only if that wait was not rounded down; a wait of one
    nanosecond more will do in any case.  The header, in whole seconds, will do if and only if
    it is no less than the time that is missing: unless it cannot express the wait, that is
    where the wait was not a whole number of seconds or not rounded down. -/
theorem waited_enough_iff (rate : ℚ) (hrate : 0 < rate) (burst : Nat) (hburst : 1 ≤ burst)
    (idleTime : Duration) (start : Instant) (visits : List (Visit ℚ)) (client : String)
    (wait : Duration)
    (refused : ((opened rate burst idleTime start).run visits).reply client = .error wait) :
    let k := (opened rate burst idleTime start).run visits
    let after := k.step (.request client)
    let told := Rejection.retrySeconds wait
    (0 < wait ∧ after.Suffices client wait ↔ k.missing client ≤ seconds wait) ∧
    (wait < Duration.longest →
      |k.missing client - seconds wait| ≤ 1 / (2 * (Duration.second : ℕ)) ∧
        after.Suffices client (wait + 1)) ∧
    (Rejection.rateLimited client (some wait)).answer.head.headers.values "retry-after" =
      [Http.utf8 (toString told)] ∧
    (after.Suffices client (Duration.ofSeconds told) ↔ k.missing client ≤ told) ∧
    (wait < Duration.longest → wait ≤ Duration.ofSeconds Rejection.retryLimit →
      (after.Suffices client (Duration.ofSeconds told) ↔
        wait = 0 ∨ Duration.subsecond wait ≠ 0 ∨ k.missing client ≤ seconds wait)) := by
  intro k after told
  have hsettled : Settled rate burst idleTime k := (settled_opened _ _ _ _).run visits
  obtain ⟨hfew, hwait⟩ := reply_error refused
  have hsuffices := suffices_iff hsettled (nodup_keys_run _ _ _ _ visits) hrate hburst hfew
  have hpositive : 0 < k.missing client := by
    have hrate' : 0 < k.controller.effectiveRate := hsettled.sameRate.symm ▸ hrate
    exact div_pos (sub_pos.mpr hfew) hrate'
  have hnext : wait < Duration.longest → k.missing client ≤ seconds (wait + 1) := by
    rw [hwait]
    exact Quantity.le_seconds_durationOfRat hpositive.le
  refine ⟨?_, ?_, values_retryAfter client wait, ?_, ?_⟩
  · rw [hsuffices]
    constructor
    · exact And.right
    · intro henough
      refine ⟨Nat.pos_of_ne_zero ?_, henough⟩
      rintro rfl
      rw [Quantity.seconds_zero] at henough
      exact absurd hpositive (not_lt.mpr henough)
  · intro hshort
    refine ⟨?_, (hsuffices _).mpr (hnext hshort)⟩
    rw [hwait] at hshort ⊢
    exact Quantity.abs_sub_durationOfRat_le hpositive.le hshort
  · rw [hsuffices, Quantity.seconds_ofSeconds]
  · intro hshort hroom
    rw [hsuffices]
    by_cases hpart : wait = 0 ∨ Duration.subsecond wait ≠ 0
    · have henough := Quantity.seconds_mono (lt_retrySeconds hroom hpart)
      exact ⟨fun _ => hpart.imp_right .inl, fun _ => le_trans (hnext hshort) henough⟩
    · obtain ⟨hpos, hwhole⟩ := not_or.mp hpart
      rw [retrySeconds_whole hroom hpos (not_not.mp hwhole), ← or_assoc]
      exact (or_iff_right hpart).symm

/-- At two tokens a second half a second is told exactly, and the header says one. -/
theorem half_a_second_is_enough :
    let k := (opened (2 : ℚ) 2 (Duration.ofSeconds 300) 0).run [.request "a", .request "a"]
    k.reply "a" = .error 500000000 ∧
      (k.step (.request "a")).Suffices "a" 500000000 ∧
      (k.step (.request "a")).Suffices "a" (Duration.ofSeconds 1) := by
  intro k
  have hrefused : k.reply "a" = .error 500000000 := by decide +kernel
  obtain ⟨hexact, -, -, hheader, -⟩ := waited_enough_iff 2 (by norm_num) 2 (by norm_num)
    (Duration.ofSeconds 300) 0 [.request "a", .request "a"] "a" 500000000 hrefused
  exact ⟨hrefused, (hexact.mpr (by decide +kernel)).2, hheader.mpr (by decide +kernel)⟩

/-- At three tokens a second a third of a second is rounded down, and the client is refused
    again; a quarter of a nanosecond is no wait at all; and where a wait is rounded down to one
    second, the header says one second and the client is refused again, too. -/
theorem short_waits :
    let k := (opened (3 : ℚ) 1 (Duration.ofSeconds 300) 0).run [.request "a"]
    let fast := (opened (4000000000 : ℚ) 1 (Duration.ofSeconds 300) 0).run [.request "a"]
    let slow := (opened (2499999999 / 2500000000 : ℚ) 1 (Duration.ofSeconds 300) 0).run
      [.request "a"]
    (k.reply "a" = .error 333333333 ∧
      ((k.step (.request "a")).run [.advance 333333333]).admits "a" = false) ∧
    fast.reply "a" = .error 0 ∧
    slow.reply "a" = .error 1000000000 ∧ Rejection.retrySeconds 1000000000 = 1 ∧
      ((slow.step (.request "a")).run [.advance (Duration.ofSeconds 1)]).admits "a" = false := by
  decide +kernel

end Desk

end Floodgate
