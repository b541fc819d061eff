/-
  Floodgate/Proofs/Admission/Window.lean
  ======================================
  **What a token bucket admits.**  A bucket is refilled only when somebody asks for a
  token, never beyond its capacity, and refused requests refill it too.  All the same
  it admits a request exactly when there is room for it in every window that ends
  with it: `burst + rate * T` requests for a window of length `T`.

  The tokens of a bucket are a function of the times at which requests of its client
  were admitted (`level`), whoever else asked for what in the meantime.  That tokens
  are capped makes this function a minimum over all those windows (`le_level_iff`).
-/
import Floodgate.Admission.Controller
import Floodgate.Proofs.Number.Exact
import Mathlib.Data.List.Chain
import Mathlib.Tactic.Ring

namespace Floodgate

open Quantity (seconds)

/-! ### Tokens as admitted requests leave them -/

/-- The tokens at an instant of a bucket that has admitted requests at some times, the
    latest first. -/
def level (burst rate : ℚ) : List Instant → Instant → ℚ
  | [], _ => burst
  | s :: past, t => min burst (level burst rate past s - 1 + rate * seconds (t - s))

variable {burst rate : ℚ} {past : List Instant} {s t : Instant}

theorem level_le_burst (burst rate : ℚ) (past : List Instant) (t : Instant) :
    level burst rate past t ≤ burst := by
  cases past with
  | nil => exact le_refl _
  | cons s past => exact min_le_left _ _

theorem seconds_split (hs : s ≤ t) {u : Instant} (ht : t ≤ u) :
    (seconds (u - s) : ℚ) = seconds (t - s) + seconds (u - t) := by
  rw [← Quantity.seconds_add, Nat.add_comm (t - s)]
  exact congrArg seconds (Nat.sub_add_sub_cancel ht hs).symm

/-- **Tokens are a minimum over windows.**  There are `y` tokens if they fit into every window
    that starts with an admitted request, beside those admitted since. -/
theorem le_level_iff {y : ℚ} (sorted : past.Pairwise (· ≥ ·)) (before : ∀ s ∈ past, s ≤ t) :
    y ≤ level burst rate past t ↔
      y ≤ burst ∧ ∀ (i : Nat) (h : i < past.length),
        y + (i + 1) ≤ burst + rate * seconds (t - past[i]) := by
  induction past generalizing y t with
  | nil => simp [level]
  | cons s past ih =>
    obtain ⟨hfirst, hsorted⟩ := List.pairwise_cons.mp sorted
    have hst : s ≤ t := before s (by simp)
    have hsplit : ∀ (i : Nat) (h : i < past.length),
        (seconds (t - past[i]) : ℚ) = seconds (s - past[i]) + seconds (t - s) := fun i h =>
      seconds_split (hfirst _ (List.getElem_mem h)) hst
    have hshift : y ≤ level burst rate past s - 1 + rate * seconds (t - s) ↔
        y + 1 - rate * seconds (t - s) ≤ level burst rate past s := by
      constructor <;> intro h <;> linarith
    rw [level, le_min_iff, hshift, ih hsorted hfirst]
    constructor
    · rintro ⟨hy, hnew, hold⟩
      refine ⟨hy, ?_⟩
      intro i h
      cases i with
      | zero =>
        simp only [List.getElem_cons_zero, Nat.cast_zero]
        linarith
      | succ i =>
        have hi := hold i (by simpa using h)
        simp only [List.getElem_cons_succ, Nat.cast_succ]
        rw [hsplit i (by simpa using h)]
        linarith
    · rintro ⟨hy, hall⟩
      have hzero := hall 0 (by simp)
      simp only [List.getElem_cons_zero, Nat.cast_zero] at hzero
      refine ⟨hy, by linarith, ?_⟩
      intro i h
      have hi := hall (i + 1) (by simpa using h)
      simp only [List.getElem_cons_succ, Nat.cast_succ] at hi
      rw [hsplit i h] at hi
      linarith

/-- Refilling in between makes no difference. -/
theorem level_later (hrate : 0 ≤ rate) (before : ∀ s ∈ past, s ≤ t) {u : Instant} (ht : t ≤ u) :
    min (level burst rate past t + rate * seconds (u - t)) burst = level burst rate past u := by
  have hgain : 0 ≤ rate * seconds (u - t) := mul_nonneg hrate (Quantity.seconds_nonneg _)
  cases past with
  | nil =>
    simp only [level]
    exact min_eq_right (by linarith)
  | cons s past =>
    have hsplit : rate * (seconds (u - s) : ℚ) =
        rate * seconds (t - s) + rate * seconds (u - t) := by
      rw [seconds_split (before s (by simp)) ht, mul_add]
    rw [level, level, hsplit, ← add_assoc]
    rcases le_total burst (level burst rate past s - 1 + rate * seconds (t - s)) with h | h
    · rw [min_eq_left h, min_eq_right (by linarith), min_eq_left (by linarith)]
    · rw [min_eq_right h, min_comm]

/-! ### Requests on record -/

/-- A request and what became of it. -/
structure Attempt where
  client : String
  time : Instant
  admitted : Bool
deriving DecidableEq, Repr

/-- A controller at work: what time it is, and the requests so far, the latest first. -/
structure Desk (α : Type) where
  now : Instant
  controller : Controller α
  record : List Attempt

/-- What happens to a controller. -/
inductive Visit (α : Type) where
  | request (client : String)
  | advance (d : Duration)
  | sweep
  /-- The rate may follow the load. -/
  | adjust (load : α)

namespace Desk

section

variable {α : Type} [Quantity α]

/-- A controller without a load source, before its first request. -/
def opened (rate : α) (burst : Nat) (idleTime : Duration) (now : Instant) : Desk α :=
  ⟨now, .new rate burst idleTime none now, []⟩

/-- A request would be admitted now. -/
def admits (k : Desk α) (client : String) : Bool :=
  (k.controller.charge client k.now).1.isOk

def step (k : Desk α) : Visit α → Desk α
  | .request client =>
    { k with
        controller := (k.controller.charge client k.now).2
        record := ⟨client, k.now, k.admits client⟩ :: k.record }
  | .advance d => { k with now := k.now + d }
  | .sweep => { k with controller := k.controller.sweep k.now }
  | .adjust load => { k with controller := (k.controller.adjust k.now load).2 }

def run (k : Desk α) (visits : List (Visit α)) : Desk α := visits.foldl step k

/-- No sweep takes the bucket of a client away. -/
def Spared (client : String) (k : Desk α) : List (Visit α) → Prop
  | [] => True
  | v :: visits =>
    (v = .sweep → (k.step v).controller.buckets.get? client = k.controller.buckets.get? client) ∧
      Spared client (k.step v) visits

/-- The answers to the requests of a client, in order. -/
def answers (client : String) (k : Desk α) : List (Visit α) → List Bool
  | [] => []
  | .request c :: visits =>
    if c = client then k.admits client :: answers client (k.step (.request c)) visits
    else answers client (k.step (.request c)) visits
  | v :: visits => answers client (k.step v) visits

/-- Times of the requests of a client, the latest first. -/
def attempts (k : Desk α) (client : String) : List Instant :=
  (k.record.filter fun a => a.client = client).map Attempt.time

/-- Times of the requests of a client that were admitted, the latest first. -/
def admissions (k : Desk α) (client : String) : List Instant :=
  (k.record.filter fun a => a.client = client ∧ a.admitted).map Attempt.time

end

/-! ### The record grows -/

variable {k : Desk ℚ} {client other : String}

theorem admissions_request_self (k : Desk ℚ) (client : String) :
    (k.step (.request client)).admissions client =
      if k.admits client then k.now :: k.admissions client else k.admissions client := by
  unfold admissions
  cases h : k.admits client <;> simp [step, h]

theorem admissions_request_other (k : Desk ℚ) (h : other ≠ client) :
    (k.step (.request other)).admissions client = k.admissions client := by
  unfold admissions
  simp [step, h]

theorem attempts_request_self (k : Desk ℚ) (client : String) :
    (k.step (.request client)).attempts client = k.now :: k.attempts client := by
  unfold attempts
  simp [step]

theorem attempts_request_other (k : Desk ℚ) (h : other ≠ client) :
    (k.step (.request other)).attempts client = k.attempts client := by
  unfold attempts
  simp [step, h]

/-! ### The bucket of a client -/

/-- Every admitted request found a token. -/
def Funded (burst rate : ℚ) : List Instant → Prop
  | [] => True
  | s :: past => 1 ≤ level burst rate past s ∧ Funded burst rate past

/-- The bucket of a client holds what the admitted requests left of it. -/
structure Levelled (rate : ℚ) (burst : Nat) (client : String) (k : Desk ℚ) : Prop where
  sameRate : k.controller.effectiveRate = rate
  sameBurst : k.controller.burst = burst
  unloaded : k.controller.schedule = none
  sorted : (k.admissions client).Pairwise (· ≥ ·)
  past : ∀ s ∈ k.admissions client, s ≤ k.now
  funded : Funded burst rate (k.admissions client)
  absent : k.controller.buckets.get? client = none → k.admissions client = []
  present : ∀ b, k.controller.buckets.get? client = some b →
    b.refilledAt ≤ k.now ∧ (∀ s ∈ k.admissions client, s ≤ b.refilledAt) ∧
      b.tokens = level burst rate (k.admissions client) b.refilledAt

namespace Levelled

variable {rate : ℚ} {burst : Nat}

theorem tokensAt_now (h : Levelled rate burst client k) (hrate : 0 ≤ rate) :
    (k.controller.bucket client k.now).tokensAt k.now rate burst =
      level burst rate (k.admissions client) k.now := by
  unfold Controller.bucket
  cases hb : k.controller.buckets.get? client with
  | none =>
    have hgain : 0 ≤ seconds (k.now - k.now) * rate :=
      mul_nonneg (Quantity.seconds_nonneg _) hrate
    rw [h.absent hb, h.sameBurst]
    show min ((burst : ℚ) + seconds (k.now - k.now) * rate) burst = burst
    exact min_eq_right (by linarith)
  | some b =>
    obtain ⟨hnow, hbefore, htokens⟩ := h.present b hb
    show min (b.tokens + seconds (k.now - b.refilledAt) * rate) burst = _
    rw [htokens, mul_comm, level_later hrate hbefore hnow]

theorem charge_eq (h : Levelled rate burst client k) (hrate : 0 ≤ rate) :
    let tokens := level burst rate (k.admissions client) k.now
    (k.admits client = true ↔ 1 ≤ tokens) ∧
      (k.controller.charge client k.now).2.buckets.get? client =
        some ⟨if k.admits client then tokens - 1 else tokens, k.now, k.now⟩ := by
  intro tokens
  have htokens : (k.controller.bucket client k.now).tokensAt k.now k.controller.effectiveRate
      (Quantity.ofNat k.controller.burst) = tokens := by
    rw [h.sameRate, h.sameBurst]
    exact h.tokensAt_now hrate
  by_cases hone : 1 ≤ tokens
  · have htaken : (k.controller.bucket client k.now).take k.now k.controller.effectiveRate
        (Quantity.ofNat k.controller.burst) = (.ok (), ⟨tokens - 1, k.now, k.now⟩) := by
      simp only [Bucket.take, htokens]
      simp [hone]
    have hadmits : k.admits client = true := by
      simp only [admits, Controller.charge, htaken]
      rfl
    refine ⟨⟨fun _ => hone, fun _ => hadmits⟩, ?_⟩
    simp only [Controller.charge, htaken, Table.get?_put, hadmits, if_true]
  · have htaken : (k.controller.bucket client k.now).take k.now k.controller.effectiveRate
        (Quantity.ofNat k.controller.burst) =
          (.error (Bucket.wait tokens k.controller.effectiveRate), ⟨tokens, k.now, k.now⟩) := by
      simp only [Bucket.take, htokens]
      simp [hone]
    have hadmits : k.admits client = false := by
      simp only [admits, Controller.charge, htaken]
      rfl
    refine ⟨⟨fun h => absurd (hadmits.symm.trans h) (by simp), fun h => absurd h hone⟩, ?_⟩
    simp only [Controller.charge, htaken, Table.get?_put, hadmits]
    simp

theorem admits_iff (h : Levelled rate burst client k) (hrate : 0 ≤ rate) :
    k.admits client = true ↔ 1 ≤ level burst rate (k.admissions client) k.now :=
  (h.charge_eq hrate).1

/-! #### What happens keeps it so -/

theorem request_self (h : Levelled rate burst client k) (hrate : 0 ≤ rate) :
    Levelled rate burst client (k.step (.request client)) := by
  obtain ⟨hadmits, hbucket⟩ := h.charge_eq hrate
  have hadmissions := admissions_request_self k client
  cases ha : k.admits client with
  | true =>
    have hone := hadmits.mp ha
    simp only [ha, if_true] at hadmissions hbucket
    refine ⟨h.sameRate, h.sameBurst, h.unloaded, ?_, ?_, ?_, ?_, ?_⟩
    · rw [hadmissions]
      exact List.pairwise_cons.mpr ⟨h.past, h.sorted⟩
    · rw [hadmissions]
      intro s hs
      rcases List.mem_cons.mp hs with heq | hold
      · exact Nat.le_of_eq heq
      · exact h.past s hold
    · rw [hadmissions]
      exact ⟨hone, h.funded⟩
    · intro hnone
      exact absurd (hbucket.symm.trans hnone) (by simp)
    · intro b hb
      obtain rfl := Option.some.inj (hbucket.symm.trans hb)
      rw [hadmissions]
      refine ⟨Nat.le_refl _, ?_, ?_⟩
      · intro s hs
        rcases List.mem_cons.mp hs with heq | hold
        · exact Nat.le_of_eq heq
        · exact h.past s hold
      · -- the token taken is the only difference to the level before
        have hcap := level_le_burst burst rate (k.admissions client) k.now
        show level burst rate (k.admissions client) k.now - 1 = min _ _
        rw [Nat.sub_self, Quantity.seconds_zero, mul_zero, add_zero]
        exact (min_eq_right (by linarith)).symm
  | false =>
    simp only [ha, Bool.false_eq_true, if_false] at hadmissions hbucket
    refine ⟨h.sameRate, h.sameBurst, h.unloaded, ?_, ?_, ?_, ?_, ?_⟩
    · rw [hadmissions]
      exact h.sorted
    · rw [hadmissions]
      exact h.past
    · rw [hadmissions]
      exact h.funded
    · intro hnone
      exact absurd (hbucket.symm.trans hnone) (by simp)
    · intro b hb
      obtain rfl := Option.some.inj (hbucket.symm.trans hb)
      rw [hadmissions]
      exact ⟨Nat.le_refl _, h.past, rfl⟩

theorem request_other (h : Levelled rate burst client k) (hother : other ≠ client) :
    Levelled rate burst client (k.step (.request other)) := by
  have hadmissions := admissions_request_other k hother
  have hbucket : (k.step (.request other)).controller.buckets.get? client =
      k.controller.buckets.get? client := Controller.get?_charge_other _ _ hother
  refine ⟨h.sameRate, h.sameBurst, h.unloaded, ?_, ?_, ?_, ?_, ?_⟩
  · rw [hadmissions]
    exact h.sorted
  · rw [hadmissions]
    exact h.past
  · rw [hadmissions]
    exact h.funded
  · rw [hadmissions, hbucket]
    exact h.absent
  · rw [hadmissions, hbucket]
    exact h.present

theorem advance (h : Levelled rate burst client k) (d : Duration) :
    Levelled rate burst client (k.step (.advance d)) := by
  have hnow : k.now ≤ k.now + d := Nat.le_add_right _ _
  refine ⟨h.sameRate, h.sameBurst, h.unloaded, h.sorted, ?_, h.funded, h.absent, ?_⟩
  · intro s hs
    exact Nat.le_trans (h.past s hs) hnow
  · intro b hb
    obtain ⟨hrefilled, hbefore, htokens⟩ := h.present b hb
    exact ⟨Nat.le_trans hrefilled hnow, hbefore, htokens⟩

theorem sweep (h : Levelled rate burst client k)
    (spared : (k.step .sweep).controller.buckets.get? client =
      k.controller.buckets.get? client) : Levelled rate burst client (k.step .sweep) := by
  refine ⟨h.sameRate, h.sameBurst, h.unloaded, h.sorted, h.past, h.funded, ?_, ?_⟩
  · rw [spared]
    exact h.absent
  · rw [spared]
    exact h.present

theorem adjust (h : Levelled rate burst client k) (load : ℚ) :
    Levelled rate burst client (k.step (.adjust load)) := by
  have hsame : (k.controller.adjust k.now load).2 = k.controller := by
    simp [Controller.adjust, Controller.readsLoad, h.unloaded]
  have hstep : k.step (.adjust load) = k := by
    simp only [step, hsame]
  rw [hstep]
  exact h

theorem step (h : Levelled rate burst client k) (hrate : 0 ≤ rate) (v : Visit ℚ)
    (spared : v = .sweep → (k.step v).controller.buckets.get? client =
      k.controller.buckets.get? client) : Levelled rate burst client (k.step v) := by
  cases v with
  | request other =>
    by_cases hother : other = client
    · subst hother
      exact h.request_self hrate
    · exact h.request_other hother
  | advance d => exact h.advance d
  | sweep => exact h.sweep (spared rfl)
  | adjust load => exact h.adjust load

theorem run (h : Levelled rate burst client k) (hrate : 0 ≤ rate) {visits : List (Visit ℚ)}
    (spared : Spared client k visits) : Levelled rate burst client (k.run visits) := by
  induction visits generalizing k with
  | nil => exact h
  | cons v visits ih => exact ih (h.step hrate v spared.1) spared.2

end Levelled

theorem levelled_opened (rate : ℚ) (burst : Nat) (idleTime : Duration) (now : Instant)
    (client : String) : Levelled rate burst client (opened rate burst idleTime now) where
  sameRate := rfl
  sameBurst := rfl
  unloaded := rfl
  sorted := List.Pairwise.nil
  past := by
    intro s hs
    cases hs
  funded := trivial
  absent := fun _ => rfl
  present := by
    intro b hb
    cases hb

/-! ### Windows -/

section

variable {rate : ℚ} {burst : Nat} {past : List Instant} {first last : Instant}

theorem le_getElem_of_lt_countP (sorted : past.Pairwise (· ≥ ·)) {n : Nat}
    (hn : n < past.countP fun s => decide (first ≤ s)) (h : n < past.length) :
    first ≤ past[n] := by
  induction past generalizing n with
  | nil => cases h
  | cons s past ih =>
    obtain ⟨hfirst, hsorted⟩ := List.pairwise_cons.mp sorted
    rw [List.countP_cons] at hn
    by_cases hs : first ≤ s
    · simp only [hs, decide_true, if_true] at hn
      cases n with
      | zero => exact hs
      | succ n => exact ih hsorted (Nat.lt_of_succ_lt_succ hn) (Nat.lt_of_succ_lt_succ h)
    · -- all that is earlier than `s` is too early as well
      have hnone : past.countP (fun s => decide (first ≤ s)) = 0 := by
        apply List.countP_eq_zero.mpr
        intro s' hs' hlate
        exact hs (Nat.le_trans (of_decide_eq_true hlate) (hfirst s' hs'))
      simp [hs, hnone] at hn

/-- **No window holds more admitted requests than it has room for.** -/
theorem countP_window_le (hrate : 0 ≤ rate) (sorted : past.Pairwise (· ≥ ·))
    (funded : Funded burst rate past) :
    ((past.countP fun s => decide (first ≤ s ∧ s ≤ last) : ℕ) : ℚ) ≤
      burst + rate * seconds (last - first) := by
  have hroom : 0 ≤ rate * seconds (last - first) :=
    mul_nonneg hrate (Quantity.seconds_nonneg _)
  induction past with
  | nil =>
    simp only [List.countP_nil, Nat.cast_zero]
    positivity
  | cons s past ih =>
    obtain ⟨hfirst, hsorted⟩ := List.pairwise_cons.mp sorted
    obtain ⟨hone, hfunded⟩ := funded
    have hold := ih hsorted hfunded
    rw [List.countP_cons]
    by_cases hs : first ≤ s ∧ s ≤ last
    · obtain ⟨hburst, hall⟩ := (le_level_iff hsorted hfirst).mp hone
      simp only [hs, and_self, decide_true, if_true, Nat.cast_add, Nat.cast_one]
      cases hcount : past.countP fun s => decide (first ≤ s ∧ s ≤ last) with
      | zero =>
        simp only [Nat.cast_zero]
        linarith
      | succ n =>
        -- the earliest request of the window, as the latest one saw it
        have hmore : past.countP (fun s => decide (first ≤ s ∧ s ≤ last)) ≤
            past.countP fun s => decide (first ≤ s) :=
          List.countP_mono_left fun s _ hs => by
            simp only [decide_eq_true_eq] at hs ⊢
            exact hs.1
        have hn : n < past.countP fun s => decide (first ≤ s) := by omega
        have hlength : n < past.length := Nat.lt_of_lt_of_le hn List.countP_le_length
        have hearliest := le_getElem_of_lt_countP hsorted hn hlength
        have hlong : (seconds (s - past[n]) : ℚ) ≤ seconds (last - first) :=
          Quantity.seconds_mono
            (Nat.le_trans (Nat.sub_le_sub_right hs.2 _) (Nat.sub_le_sub_left hearliest _))
        have hfits := hall n hlength
        have := mul_le_mul_of_nonneg_left hlong hrate
        push_cast
        linarith
    · simpa [hs] using hold

end

/-! ### Clients that keep their distance -/

/-- A client that leaves a token's time between its requests is never refused. -/
theorem Levelled.admits_paced {rate : ℚ} {burst : Nat} (h : Levelled rate burst client k)
    (hrate : 0 < rate) (hburst : 1 ≤ burst)
    (paced : ∀ s ∈ (k.admissions client).head?, 1 / rate ≤ seconds (k.now - s)) :
    k.admits client = true := by
  have hburst' : (1 : ℚ) ≤ burst := by exact_mod_cast hburst
  rw [h.admits_iff hrate.le]
  have hfunded := h.funded
  cases hpast : k.admissions client with
  | nil => exact hburst'
  | cons s past =>
    rw [hpast] at hfunded paced
    have hgap : 1 / rate ≤ seconds (k.now - s) := paced s rfl
    rw [div_le_iff₀ hrate] at hgap
    have hone := hfunded.1
    apply le_min hburst'
    linarith

theorem admissions_eq_attempts {rate : ℚ} {burst : Nat} (hrate : 0 < rate) (hburst : 1 ≤ burst)
    (h : Levelled rate burst client k) {visits : List (Visit ℚ)} (spared : Spared client k visits)
    (hpast : (k.attempts client).IsChain
      (fun later earlier => 1 / rate ≤ seconds (later - earlier)) →
      k.admissions client = k.attempts client) :
    ((k.run visits).attempts client).IsChain
        (fun later earlier => 1 / rate ≤ seconds (later - earlier)) →
      (k.run visits).admissions client = (k.run visits).attempts client := by
  induction visits generalizing k with
  | nil => exact hpast
  | cons v visits ih =>
    apply ih (h.step hrate.le v spared.1) spared.2
    cases v with
    | request other =>
      by_cases hother : other = client
      · subst hother
        rw [attempts_request_self, admissions_request_self]
        intro hchain
        have hsame := hpast hchain.of_cons
        have hadmits : k.admits other = true := by
          apply h.admits_paced hrate hburst
          intro s hs
          rw [hsame] at hs
          exact List.IsChain.rel_head? hchain hs
        rw [hadmits, if_pos rfl, hsame]
      · rw [attempts_request_other k hother, admissions_request_other k hother]
        exact hpast
    | advance d => exact hpast
    | sweep => exact hpast
    | adjust load => exact hpast

/-! ### Refused requests -/

/-- The answers to a client depend on the time and on its admitted requests alone. -/
theorem answers_congr {rate : ℚ} {burst : Nat} (hrate : 0 ≤ rate) {k' : Desk ℚ}
    (h : Levelled rate burst client k) (h' : Levelled rate burst client k')
    (hnow : k'.now = k.now) (hsame : k'.admissions client = k.admissions client)
    {visits : List (Visit ℚ)} (spared : Spared client k visits)
    (spared' : Spared client k' visits) : k'.answers client visits = k.answers client visits := by
  induction visits generalizing k k' with
  | nil => rfl
  | cons v visits ih =>
    have hnext := h.step hrate v spared.1
    have hnext' := h'.step hrate v spared'.1
    have hadmits : k'.admits client = k.admits client := by
      rw [Bool.eq_iff_iff, h'.admits_iff hrate, h.admits_iff hrate, hnow, hsame]
    cases v with
    | request other =>
      by_cases hother : other = client
      · subst hother
        have hrest := ih hnext hnext' hnow
          (by rw [admissions_request_self, admissions_request_self, hadmits, hnow, hsame])
          spared.2 spared'.2
        simp only [answers, if_true, hadmits, hrest]
      · have hrest := ih hnext hnext' hnow
          (by rw [admissions_request_other k' hother, admissions_request_other k hother, hsame])
          spared.2 spared'.2
        simp only [answers, if_neg hother, hrest]
    | advance d =>
      have hnow' : k'.now + d = k.now + d := by rw [hnow]
      exact ih hnext hnext' hnow' hsame spared.2 spared'.2
    | sweep => exact ih hnext hnext' hnow hsame spared.2 spared'.2
    | adjust load => exact ih hnext hnext' hnow hsame spared.2 spared'.2

/-! ### What a client may count on -/

/-- **A bucket admits what there is room for.**  As long as the bucket of a client is not
    swept, a request is admitted if and only if it fits into every window that starts with an
    admitted request of that client; so no window holds more than it has room for, a client
    that keeps its distance is never refused (unless nobody is ever admitted), and a refused
    request, whoever makes it, changes no later answer. -/
theorem admits_iff_room (rate : ℚ) (hrate : 0 < rate) (burst : Nat) (idleTime : Duration)
    (start : Instant) (client : String) (visits : List (Visit ℚ))
    (spared : Spared client (opened rate burst idleTime start) visits) :
    let k := (opened rate burst idleTime start).run visits
    (k.admits client = true ↔ 1 ≤ burst ∧
      ∀ (i : Nat) (h : i < (k.admissions client).length),
        ((i + 1 : ℕ) : ℚ) + 1 ≤ burst + rate * seconds (k.now - (k.admissions client)[i])) ∧
    (∀ first last,
      (((k.admissions client).countP fun s => decide (first ≤ s ∧ s ≤ last) : ℕ) : ℚ) ≤
        burst + rate * seconds (last - first)) ∧
    (1 ≤ burst →
      (k.attempts client).IsChain (fun later earlier => 1 / rate ≤ seconds (later - earlier)) →
        k.admissions client = k.attempts client) ∧
    (∀ other later, k.admits other = false → Spared client k later →
      Spared client (k.step (.request other)) later →
        (k.step (.request other)).answers client later = k.answers client later) := by
  intro k
  have hopened := levelled_opened rate burst idleTime start client
  have hlevelled : Levelled rate burst client k := hopened.run hrate.le spared
  refine ⟨?_, ?_, ?_, ?_⟩
  · rw [hlevelled.admits_iff hrate.le, le_level_iff hlevelled.sorted hlevelled.past,
      Nat.one_le_cast]
    constructor
    · rintro ⟨hburst, hall⟩
      refine ⟨hburst, ?_⟩
      intro i h
      have := hall i h
      push_cast
      linarith
    · rintro ⟨hburst, hall⟩
      refine ⟨hburst, ?_⟩
      intro i h
      have := hall i h
      push_cast at this
      linarith
  · intro first last
    exact countP_window_le hrate.le hlevelled.sorted hlevelled.funded
  · intro hburst
    exact admissions_eq_attempts hrate hburst hopened spared fun _ => rfl
  · intro other later hrefused hlater hlater'
    have hnext : Levelled rate burst client (k.step (.request other)) :=
      hlevelled.step hrate.le _ fun h => by cases h
    have hsame : (k.step (.request other)).admissions client = k.admissions client := by
      by_cases hother : other = client
      · subst hother
        rw [admissions_request_self, hrefused]
        simp
      · exact admissions_request_other k hother
    exact answers_congr hrate.le hlevelled hnext rfl hsame hlater hlater'

/-- With room for one token and two tokens a second, a request half a second after another
    is admitted, though somebody else was refused in between and a sweep went by. -/
theorem admits_after_half_a_second :
    ((opened (2 : ℚ) 1 Controller.defaultIdleTime 0).run
      [.request "a", .request "b", .sweep, .request "b", .advance 500000000]).admits "a" =
        true := by
  have hspared : Spared "a" (opened (2 : ℚ) 1 Controller.defaultIdleTime 0)
      [.request "a", .request "b", .sweep, .request "b", .advance 500000000] :=
    ⟨nofun, nofun, fun _ => by decide +kernel, nofun, nofun, trivial⟩
  have hpast : ((opened (2 : ℚ) 1 Controller.defaultIdleTime 0).run
      [.request "a", .request "b", .sweep, .request "b", .advance 500000000]).admissions "a" =
        [0] := by decide +kernel
  have hroom := (admits_iff_room 2 (by norm_num) 1 Controller.defaultIdleTime 0 "a" _ hspared).1
  apply hroom.mpr
  refine ⟨Nat.le_refl _, ?_⟩
  simp only [hpast]
  intro i h
  obtain rfl : i = 0 := by simpa using h
  have hgap : (seconds (500000000 - 0) : ℚ) = 1 / 2 := by decide +kernel
  show ((0 + 1 : ℕ) : ℚ) + 1 ≤ (1 : ℕ) + 2 * seconds (500000000 - 0)
  rw [hgap]
  norm_num

/-- Without room for a single token every request is refused, whatever distance it keeps. -/
theorem paced_refused_without_burst :
    let k := (opened (1 : ℚ) 0 Controller.defaultIdleTime 0).run [.request "steady"]
    Spared "steady" (opened (1 : ℚ) 0 Controller.defaultIdleTime 0) [.request "steady"] ∧
      (k.attempts "steady").IsChain
        (fun later earlier => 1 / (1 : ℚ) ≤ seconds (later - earlier)) ∧
      k.attempts "steady" = [0] ∧ k.admissions "steady" = [] := by
  refine ⟨?_, ?_, ?_, ?_⟩
  · simp [Spared]
  · decide +kernel
  · decide +kernel
  · decide +kernel

end Desk

end Floodgate
