/-
  Floodgate/Proofs/Admission/Varying.lean
  =======================================
  **What a token bucket admits while its rate changes.**  With a load source the rate at
  which buckets fill goes down and up again.  A bucket is refilled when its client asks,
  for all the time since it asked before, at the rate in force then: time spent at one
  rate is paid for at another.  All the same no window holds more requests than a burst
  and what comes in at the highest rate that any request in it found.

  What carries the proof is a potential (`Spent`).  Once a request has been admitted in
  the window, the requests admitted since and the tokens left make up at most a burst and
  what came in until the bucket was last refilled.  Each refill adds no more to either side
  than the other, whatever the rate was in between; and the first one in a window, which
  may pay for time before it, is cut off at a burst.

  Loads come from outside and may be anything, so the numbers here are those that have
  infinities and values that are no numbers.  The first lemmas say that neither gets into
  the rate or into a bucket.
-/
import Floodgate.Proofs.Admission.Isolation
import Floodgate.Proofs.Number.Unrounded

namespace Floodgate

open Quantity (seconds)

/-! ### Rates that follow any load -/

/-- Whatever the load, the rate is reduced by a number. -/
theorem exists_rateFactor (load : Unrounded) :
    ∃ f : ℚ, 0 < f ∧ f ≤ 1 ∧ rateFactor load = .number f := by
  have hhalf : (Quantity.decimal 5 1 : Unrounded) = .number (1 / 2) := by decide +kernel
  have hmore : (Quantity.decimal 75 2 : Unrounded) = .number (3 / 4) := by decide +kernel
  unfold rateFactor
  split_ifs
  · exact ⟨1 / 2, by norm_num, by norm_num, hhalf⟩
  · exact ⟨3 / 4, by norm_num, by norm_num, hmore⟩
  · exact ⟨1, by norm_num, by norm_num, by norm_num⟩

namespace Bucket

/-- A bucket with a number of tokens in it, last refilled in the past. -/
structure Contains (b : Bucket Unrounded) (q burst : ℚ) (now : Instant) : Prop where
  tokens : b.tokens = .number q
  nonneg : 0 ≤ q
  le : q ≤ burst
  past : b.refilledAt ≤ now

variable {b : Bucket Unrounded} {q rate burst : ℚ} {now : Instant}

theorem contains_full (hburst : 0 ≤ burst) (now : Instant) :
    (full (Unrounded.number burst) now).Contains burst burst now :=
  ⟨rfl, hburst, le_refl _, Nat.le_refl _⟩

theorem Contains.tokensAt (h : b.Contains q burst now) (rate : ℚ) :
    b.tokensAt now (.number rate) (.number burst) =
      .number (min (q + seconds (now - b.refilledAt) * rate) burst) := by
  simp only [Bucket.tokensAt, h.tokens, Unrounded.seconds_number, Unrounded.mul_number,
    Unrounded.add_number, Unrounded.lesser_number]

/-- A token is taken if there is one. -/
theorem take_number {tokens : ℚ}
    (h : b.tokensAt now (.number rate) (.number burst) = .number tokens) :
    (b.take now (.number rate) (.number burst)).1.isOk = decide (1 ≤ tokens) ∧
      (b.take now (.number rate) (.number burst)).2 =
        ⟨.number (if 1 ≤ tokens then tokens - 1 else tokens), now, now⟩ := by
  by_cases hone : 1 ≤ tokens
  · simp [take, h, hone, Except.isOk, Except.toBool]
  · simp [take, h, hone, Except.isOk, Except.toBool]

end Bucket

namespace Desk

section

variable {α : Type} [Quantity α]

/-- The rates in force at the requests of a client, in order. -/
def ratesMet (client : String) (k : Desk α) : List (Visit α) → List α
  | [] => []
  | .request c :: visits =>
    if c = client then
      k.controller.effectiveRate :: ratesMet client (k.step (.request c)) visits
    else ratesMet client (k.step (.request c)) visits
  | v :: visits => ratesMet client (k.step v) visits

/-- Each of them is the rate at some point of the run. -/
theorem exists_of_mem_ratesMet {client : String} {k : Desk α} {visits : List (Visit α)} {r : α}
    (h : r ∈ ratesMet client k visits) :
    ∃ n, r = (k.run (visits.take n)).controller.effectiveRate := by
  induction visits generalizing k with
  | nil => cases h
  | cons v visits ih =>
    have hlater : r ∈ ratesMet client (k.step v) visits →
        ∃ n, r = (k.run ((v :: visits).take n)).controller.effectiveRate := by
      intro hmem
      obtain ⟨n, hn⟩ := ih hmem
      exact ⟨n + 1, hn⟩
    cases v with
    | request c =>
      by_cases hc : c = client
      · rw [ratesMet, if_pos hc] at h
        rcases List.mem_cons.mp h with hnow | hmem
        · exact ⟨0, hnow⟩
        · exact hlater hmem
      · rw [ratesMet, if_neg hc] at h
        exact hlater h
    | advance d => exact hlater h
    | sweep => exact hlater h
    | adjust load => exact hlater h

end

/-! ### Numbers all along -/

variable {rate m : ℚ} {burst n : Nat} {client other : String} {k : Desk Unrounded}

/-- The rate is a number up to the base rate, and the bucket of a client contains a number of
    tokens. -/
structure Counted (rate : ℚ) (burst : Nat) (client : String) (k : Desk Unrounded) : Prop where
  sameBase : k.controller.baseRate = .number rate
  sameBurst : k.controller.burst = burst
  inForce : ∃ r : ℚ, 0 < r ∧ r ≤ rate ∧ k.controller.effectiveRate = .number r
  nodup : k.controller.buckets.keys.Nodup
  contains : ∀ b, k.controller.buckets.get? client = some b →
    ∃ q, b.Contains q burst k.now

namespace Counted

theorem following (hrate : 0 < rate) (burst : Nat) (idleTime : Duration)
    (interval : Option Duration) (start : Instant) (client : String) :
    Counted rate burst client (following (.number rate) burst idleTime interval start) where
  sameBase := rfl
  sameBurst := rfl
  inForce := ⟨rate, hrate, le_refl _, rfl⟩
  nodup := List.nodup_nil
  contains := by
    intro b hb
    cases hb

/-- **What a request of the client comes to**, `tokens` being what it finds: a burst at most, and
    no more than what was left and has come in since. -/
theorem charge (h : Counted rate burst client k) {r : ℚ} (hr : 0 < r)
    (hforce : k.controller.effectiveRate = .number r) :
    ∃ tokens : ℚ, 0 ≤ tokens ∧ tokens ≤ burst ∧
      (∀ b q, k.controller.buckets.get? client = some b → b.tokens = .number q →
        tokens ≤ q + r * seconds (k.now - b.refilledAt)) ∧
      k.admits client = decide (1 ≤ tokens) ∧
      (k.step (.request client)).controller.buckets.get? client =
        some ⟨.number (if 1 ≤ tokens then tokens - 1 else tokens), k.now, k.now⟩ := by
  have hburst : (0 : ℚ) ≤ burst := Nat.cast_nonneg burst
  obtain ⟨q, hq⟩ : ∃ q, (k.controller.bucket client k.now).Contains q burst k.now := by
    unfold Controller.bucket
    cases hb : k.controller.buckets.get? client with
    | none =>
      rw [h.sameBurst]
      exact ⟨burst, Bucket.contains_full hburst k.now⟩
    | some b => exact h.contains b hb
  have htokens := hq.tokensAt r
  generalize hfound : min (q + seconds (k.now - (k.controller.bucket client k.now).refilledAt) * r)
    (burst : ℚ) = tokens at htokens
  obtain ⟨hok, hleft⟩ := Bucket.take_number htokens
  have hcharge : (k.controller.bucket client k.now).take k.now k.controller.effectiveRate
      (Quantity.ofNat k.controller.burst) =
        (k.controller.bucket client k.now).take k.now (.number r) (.number burst) := by
    rw [hforce, h.sameBurst, Unrounded.ofNat_number]
  refine ⟨tokens, ?_, ?_, ?_, ?_, ?_⟩
  · rw [← hfound]
    have hgain : 0 ≤ seconds (k.now - (k.controller.bucket client k.now).refilledAt) * r :=
      mul_nonneg (Quantity.seconds_nonneg _) hr.le
    exact le_min (add_nonneg hq.nonneg hgain) hburst
  · rw [← hfound]
    exact min_le_right _ _
  · intro b q' hb hq'
    have hbucket : k.controller.bucket client k.now = b := by
      rw [Controller.bucket, hb]
      rfl
    rw [hbucket] at hq hfound
    obtain rfl : q = q' := Unrounded.number.inj (hq.tokens.symm.trans hq')
    rw [← hfound, mul_comm r]
    exact min_le_left _ _
  · simp only [admits, Controller.charge, hcharge, hok]
  · simp only [Desk.step, Controller.charge, Table.get?_put, if_true, hcharge, hleft]

theorem request_self (h : Counted rate burst client k) :
    Counted rate burst client (k.step (.request client)) := by
  obtain ⟨r, hr, -, hforce⟩ := h.inForce
  obtain ⟨tokens, hnonneg, hle, -, -, hbucket⟩ := h.charge hr hforce
  refine ⟨h.sameBase, h.sameBurst, h.inForce, ?_, ?_⟩
  · exact Controller.nodup_keys_charge h.nodup client k.now
  · intro b hb
    obtain rfl := Option.some.inj (hbucket.symm.trans hb)
    refine ⟨_, rfl, ?_, ?_, Nat.le_refl _⟩
    · split_ifs with hone
      · linarith
      · exact hnonneg
    · split_ifs with hone
      · linarith
      · exact hle

theorem request_other (h : Counted rate burst client k) (hother : other ≠ client) :
    Counted rate burst client (k.step (.request other)) := by
  refine ⟨h.sameBase, h.sameBurst, h.inForce, ?_, ?_⟩
  · exact Controller.nodup_keys_charge h.nodup other k.now
  · intro b hb
    exact h.contains b ((Controller.get?_charge_other _ _ hother).symm.trans hb)

theorem advance (h : Counted rate burst client k) (d : Duration) :
    Counted rate burst client (k.step (.advance d)) := by
  refine ⟨h.sameBase, h.sameBurst, h.inForce, h.nodup, ?_⟩
  intro b hb
  obtain ⟨q, hq⟩ := h.contains b hb
  exact ⟨q, hq.tokens, hq.nonneg, hq.le, Nat.le_trans hq.past (Nat.le_add_right _ _)⟩

theorem sweep (h : Counted rate burst client k) : Counted rate burst client (k.step .sweep) := by
  refine ⟨h.sameBase, h.sameBurst, h.inForce, ?_, ?_⟩
  · exact Controller.nodup_keys_sweep h.nodup k.now
  · intro b hb
    have hkept := (Controller.get?_sweep h.nodup k.now client).symm.trans hb
    exact h.contains b (Option.filter_eq_some_iff.mp hkept).1

/-- Only the rate can change when the load is read, and it stays within the base rate. -/
theorem adjust (h : Counted rate burst client k) (hrate : 0 < rate) (load : Unrounded) :
    Counted rate burst client (k.step (.adjust load)) := by
  cases hread : k.controller.readsLoad k.now with
  | false =>
    have hsame : k.step (.adjust load) = k := by simp [Desk.step, Controller.adjust, hread]
    rw [hsame]
    exact h
  | true =>
    obtain ⟨f, hf, hf', hfactor⟩ := exists_rateFactor
      (Quantity.clamp (Quantity.ofNat 0) (Quantity.ofNat 1) load)
    simp only [Desk.step, Controller.adjust, hread, if_true]
    refine ⟨h.sameBase, h.sameBurst, ⟨rate * f, mul_pos hrate hf, ?_, ?_⟩, h.nodup, h.contains⟩
    · exact mul_le_of_le_one_right hrate.le hf'
    · simp only [h.sameBase, hfactor, Unrounded.mul_number]

theorem step (h : Counted rate burst client k) (hrate : 0 < rate) (v : Visit Unrounded) :
    Counted rate burst client (k.step v) := by
  cases v with
  | request other =>
    by_cases hother : other = client
    · subst hother
      exact h.request_self
    · exact h.request_other hother
  | advance d => exact h.advance d
  | sweep => exact h.sweep
  | adjust load => exact h.adjust hrate load

theorem run (h : Counted rate burst client k) (hrate : 0 < rate)
    (visits : List (Visit Unrounded)) : Counted rate burst client (k.run visits) := by
  induction visits generalizing k with
  | nil => exact h
  | cons v visits ih => exact ih (h.step hrate v)

end Counted

/-! ### The potential of a window -/

/-- Of the requests since an instant `n` have been admitted, and they and the tokens left make up
    at most a burst and what came in at rate `m` until the bucket was last refilled. -/
structure Spent (m : ℚ) (burst : Nat) (client : String) (first : Instant) (n : Nat)
    (k : Desk Unrounded) : Prop where
  since : first ≤ k.now
  balance : n = 0 ∨ ∃ b q, k.controller.buckets.get? client = some b ∧ b.tokens = .number q ∧
    first ≤ b.refilledAt ∧ n + q ≤ burst + m * seconds (b.refilledAt - first)

namespace Spent

variable {first : Instant}

/-- A window without requests. -/
theorem start (m : ℚ) (burst : Nat) (client : String) (k : Desk Unrounded) :
    Spent m burst client k.now 0 k :=
  ⟨Nat.le_refl _, Or.inl rfl⟩

/-- Whoever keeps the bucket keeps the balance. -/
theorem keep (h : Spent m burst client first n k) {k' : Desk Unrounded} (hnow : k.now ≤ k'.now)
    (hbucket : k'.controller.buckets.get? client = k.controller.buckets.get? client) :
    Spent m burst client first n k' := by
  refine ⟨Nat.le_trans h.since hnow, ?_⟩
  rw [hbucket]
  exact h.balance

/-- **A request keeps the balance**: what it adds to the tokens has come in since. -/
theorem request (h : Spent m burst client first n k) (hk : Counted rate burst client k)
    (hm : 0 ≤ m) (met : Quantity.atLeast (.number m) k.controller.effectiveRate = true) :
    Spent m burst client first (n + (k.admits client).toNat) (k.step (.request client)) := by
  obtain ⟨r, hr, -, hforce⟩ := hk.inForce
  obtain ⟨tokens, -, hcap, hgain, hadmits, hbucket⟩ := hk.charge hr hforce
  have hrm : r ≤ m := by
    rw [hforce] at met
    exact of_decide_eq_true met
  have hfound : n + tokens ≤ burst + m * seconds (k.now - first) := by
    rcases h.balance with rfl | ⟨b, q, hb, hq, hsince, hbalance⟩
    · -- the first admission of the window may be paid for by time before it, up to a burst
      have hwindow : 0 ≤ m * seconds (k.now - first) := mul_nonneg hm (Quantity.seconds_nonneg _)
      rw [Nat.cast_zero]
      linarith
    · obtain ⟨q', hq'⟩ := hk.contains b hb
      have hsplit : m * (seconds (k.now - first) : ℚ) =
          m * seconds (b.refilledAt - first) + m * seconds (k.now - b.refilledAt) := by
        rw [seconds_split hsince hq'.past, mul_add]
      have hslower : r * seconds (k.now - b.refilledAt) ≤ m * seconds (k.now - b.refilledAt) :=
        mul_le_mul_of_nonneg_right hrm (Quantity.seconds_nonneg _)
      have htokens := hgain b q hb hq
      linarith
  refine ⟨h.since, Or.inr ⟨_, _, hbucket, rfl, h.since, ?_⟩⟩
  rw [hadmits]
  by_cases hone : 1 ≤ tokens
  · simp only [hone, decide_true, Bool.toNat_true, if_true, Nat.cast_add, Nat.cast_one]
    linarith
  · simp only [hone, decide_false, Bool.toNat_false, if_false, Nat.add_zero]
    exact hfound

theorem run (h : Spent m burst client first n k) (hk : Counted rate burst client k)
    (hrate : 0 < rate) (hm : 0 ≤ m) {visits : List (Visit Unrounded)}
    (spared : Spared client k visits)
    (met : ∀ r ∈ k.ratesMet client visits, Quantity.atLeast (.number m) r = true) :
    Spent m burst client first (n + (k.answers client visits).count true) (k.run visits) := by
  induction visits generalizing k n with
  | nil => exact h
  | cons v visits ih =>
    have hnext := hk.step hrate v
    cases v with
    | request other =>
      by_cases hother : other = client
      · subst hother
        simp only [ratesMet, if_true, List.forall_mem_cons] at met
        have hrest := ih (h.request hk hm met.1) hnext spared.2 met.2
        have hcount : (k.admits other).toNat +
            ((k.step (.request other)).answers other visits).count true =
              (k.answers other (.request other :: visits)).count true := by
          rw [answers, if_pos rfl, List.count_cons, Nat.add_comm]
          cases k.admits other <;> rfl
        rw [← hcount, ← Nat.add_assoc]
        exact hrest
      · rw [ratesMet, if_neg hother] at met
        rw [answers, if_neg hother]
        exact ih (h.keep (Nat.le_refl _) (Controller.get?_charge_other _ _ hother)) hnext
          spared.2 met
    | advance d => exact ih (h.keep (Nat.le_add_right _ _) rfl) hnext spared.2 met
    | sweep => exact ih (h.keep (Nat.le_refl _) (spared.1 rfl)) hnext spared.2 met
    | adjust load =>
      have hbuckets : (k.step (.adjust load)).controller.buckets = k.controller.buckets := by
        cases hread : k.controller.readsLoad k.now <;> simp [Desk.step, Controller.adjust, hread]
      exact ih (h.keep (Nat.le_refl _) (by rw [hbuckets])) hnext spared.2 met

/-- So a window holds a burst and what comes in during it. -/
theorem le (h : Spent m burst client first n k) (hk : Counted rate burst client k) (hm : 0 ≤ m) :
    (n : ℚ) ≤ burst + m * seconds (k.now - first) := by
  have hwindow : 0 ≤ m * seconds (k.now - first) := mul_nonneg hm (Quantity.seconds_nonneg _)
  have hburst : (0 : ℚ) ≤ burst := Nat.cast_nonneg burst
  rcases h.balance with rfl | ⟨b, q, hb, hq, hsince, hbalance⟩
  · rw [Nat.cast_zero]
    linarith
  · obtain ⟨q', hq'⟩ := hk.contains b hb
    obtain rfl : q = q' := Unrounded.number.inj (hq.symm.trans hq'.tokens)
    have hlonger : m * (seconds (b.refilledAt - first) : ℚ) ≤ m * seconds (k.now - first) :=
      mul_le_mul_of_nonneg_left (Quantity.seconds_mono (Nat.sub_le_sub_right hq'.past first)) hm
    have hleft := hq'.nonneg
    linarith

end Spent

/-! ### Windows -/

/-- **A window admits what comes in at the highest rate in it.**  Whatever loads a controller reads,
    in a stretch of its run in which the bucket of a client is not swept it admits at most a burst
    and `m * T` requests of that client, `T` being how long the stretch takes and `m` any bound of
    the rates in force at those requests.  Those rates are positive and at most the base rate; so
    the base rate is such a bound, and while the rate does not change it is one itself. -/
theorem admitted_at_highest_rate (rate : ℚ) (hrate : 0 < rate) (burst : Nat)
    (idleTime : Duration) (interval : Option Duration) (start : Instant) (client : String)
    (before during : List (Visit Unrounded))
    (spared : Spared client
      ((following (.number rate) burst idleTime interval start).run before) during) :
    let opening := (following (.number rate) burst idleTime interval start).run before
    let admitted := (opening.answers client during).count true
    let elapsed : ℚ := seconds ((opening.run during).now - opening.now)
    (∀ x ∈ opening.ratesMet client during, ∃ r : ℚ, 0 < r ∧ r ≤ rate ∧ x = .number r) ∧
    (∀ m : ℚ, 0 ≤ m →
      (∀ r ∈ opening.ratesMet client during, Quantity.atLeast (.number m) r = true) →
        admitted ≤ burst + m * elapsed) ∧
    admitted ≤ burst + rate * elapsed ∧
    (∀ r : ℚ, (∀ n, (opening.run (during.take n)).controller.effectiveRate = .number r) →
      admitted ≤ burst + r * elapsed) := by
  intro opening admitted elapsed
  have hopening : Counted rate burst client opening :=
    (Counted.following hrate burst idleTime interval start client).run hrate before
  have hrates : ∀ x ∈ opening.ratesMet client during,
      ∃ r : ℚ, 0 < r ∧ r ≤ rate ∧ x = .number r := by
    intro x hx
    obtain ⟨n, rfl⟩ := exists_of_mem_ratesMet hx
    exact (hopening.run hrate (during.take n)).inForce
  have hbound : ∀ m : ℚ, 0 ≤ m →
      (∀ r ∈ opening.ratesMet client during, Quantity.atLeast (.number m) r = true) →
        admitted ≤ burst + m * elapsed := by
    intro m hm met
    have hspent := (Spent.start m burst client opening).run hopening hrate hm spared met
    rw [Nat.zero_add] at hspent
    exact hspent.le (hopening.run hrate during) hm
  refine ⟨hrates, hbound, ?_, ?_⟩
  · apply hbound rate hrate.le
    intro x hx
    obtain ⟨r, -, hle, rfl⟩ := hrates x hx
    exact decide_eq_true hle
  · intro r hconstant
    obtain ⟨r', hr', -, hforce⟩ := hopening.inForce
    obtain rfl : r = r' := Unrounded.number.inj ((hconstant 0).symm.trans hforce)
    apply hbound r hr'.le
    intro x hx
    obtain ⟨n, rfl⟩ := exists_of_mem_ratesMet hx
    rw [hconstant n]
    exact decide_eq_true (le_refl r)

/-- At a load of nine tenths two requests a second are cut down to one.  Three requests at once and
    two more after two seconds are all that the window has room for, whatever was read before. -/
theorem five_at_half_the_rate :
    let before : List (Visit Unrounded) := [.advance 11000000000, .adjust .nan, .request "a",
      .advance 11000000000, .adjust (.number (9 / 10))]
    let during : List (Visit Unrounded) := [.request "a", .request "a", .request "b",
      .request "a", .request "a", .sweep, .advance 2000000000, .request "a", .request "a",
      .request "a"]
    let opening := (following (Unrounded.number 2) 3 Controller.defaultIdleTime
      (some (Duration.ofSeconds 5)) 0).run before
    (0 : ℚ) < 2 ∧ Spared "a" opening during ∧
      opening.answers "a" during = [true, true, true, false, true, true, false] ∧
      (5 : ℚ) ≤ (3 : ℕ) + 1 * seconds 2000000000 := by
  intro before during opening
  have hspared : Spared "a" opening during :=
    ⟨nofun, nofun, nofun, nofun, nofun, fun _ => by decide +kernel, nofun, nofun, nofun, nofun,
      trivial⟩
  have hanswers : opening.answers "a" during = [true, true, true, false, true, true, false] := by
    decide +kernel
  have hbound := (admitted_at_highest_rate 2 (by norm_num) 3 Controller.defaultIdleTime
    (some (Duration.ofSeconds 5)) 0 "a" before during hspared).2.1 1 (by norm_num)
      (by decide +kernel)
  have helapsed : (opening.run during).now - opening.now = 2000000000 := by decide +kernel
  rw [hanswers, helapsed] at hbound
  exact ⟨by norm_num, hspared, hanswers, hbound⟩

end Desk

end Floodgate
