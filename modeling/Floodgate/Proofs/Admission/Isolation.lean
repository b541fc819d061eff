/-
  Floodgate/Proofs/Admission/Isolation.lean
  =========================================
  **Clients do not feel each other.**  All clients of a controller share its table of
  buckets, its rate and its sweeps.  Yet what one client is answered depends on its own
  requests alone, beside what happens to the controller as a whole: time, sweeps and
  readings of the load.

  Two controllers are the same to a client (`SameFor`) if they agree on everything but
  the buckets of others.  Whatever happens keeps them so, and a request of somebody
  else does even if it is made at one of them only; so the requests of others can be
  left out of a run (`sameFor_concerning`), and two runs that differ in them alone
  answer the client alike.

  Nothing is assumed of the numbers in which tokens are counted.
-/
import Floodgate.Proofs.Admission.Window

namespace Floodgate

namespace Desk

variable {α : Type} [Quantity α]

/-- A controller before its first request; with an interval it follows a load source. -/
def following (rate : α) (burst : Nat) (idleTime : Duration) (interval : Option Duration)
    (now : Instant) : Desk α :=
  ⟨now, .new rate burst idleTime interval now, []⟩

/-- What a client would be answered now. -/
def reply (k : Desk α) (client : String) : Except Duration Unit :=
  (k.controller.charge client k.now).1

/-- The answers to the requests of a client, in order, with the waits of those refused. -/
def replies (client : String) (k : Desk α) : List (Visit α) → List (Except Duration Unit)
  | [] => []
  | .request c :: visits =>
    if c = client then k.reply client :: replies client (k.step (.request c)) visits
    else replies client (k.step (.request c)) visits
  | v :: visits => replies client (k.step v) visits

/-- What happens to a controller apart from the requests of other clients. -/
def concerning (client : String) (visits : List (Visit α)) : List (Visit α) :=
  visits.filter fun
    | .request c => decide (c = client)
    | _ => true

/-! ### Controllers that are the same to a client -/

/-- Two controllers that differ in the buckets of other clients at most. -/
structure SameFor (client : String) (k u : Desk α) : Prop where
  now : k.now = u.now
  baseRate : k.controller.baseRate = u.controller.baseRate
  burst : k.controller.burst = u.controller.burst
  idleTime : k.controller.idleTime = u.controller.idleTime
  effectiveRate : k.controller.effectiveRate = u.controller.effectiveRate
  schedule : k.controller.schedule = u.controller.schedule
  bucket : k.controller.buckets.get? client = u.controller.buckets.get? client
  /-- So a sweep treats the bucket of the client alike, wherever it stands. -/
  left : k.controller.buckets.keys.Nodup
  right : u.controller.buckets.keys.Nodup

namespace SameFor

variable {client other : String} {k u : Desk α}

omit [Quantity α] in
theorem refl (client : String) (nodup : k.controller.buckets.keys.Nodup) : SameFor client k k :=
  ⟨rfl, rfl, rfl, rfl, rfl, rfl, rfl, nodup, nodup⟩

/-- The client is charged alike: it gets the same answer and is left the same bucket. -/
theorem take_eq (h : SameFor client k u) :
    (k.controller.bucket client k.now).take k.now k.controller.effectiveRate
        (Quantity.ofNat k.controller.burst) =
      (u.controller.bucket client u.now).take u.now u.controller.effectiveRate
        (Quantity.ofNat u.controller.burst) := by
  unfold Controller.bucket
  rw [h.now, h.bucket, h.effectiveRate, h.burst]

theorem reply_eq (h : SameFor client k u) : k.reply client = u.reply client := by
  simp only [reply, Controller.charge, h.take_eq]

theorem request_self (h : SameFor client k u) :
    SameFor client (k.step (.request client)) (u.step (.request client)) := by
  constructor
  · exact h.now
  · exact h.baseRate
  · exact h.burst
  · exact h.idleTime
  · exact h.effectiveRate
  · exact h.schedule
  · simp only [step, Controller.charge, Table.get?_put, if_true, h.take_eq]
  · exact Controller.nodup_keys_charge h.left client k.now
  · exact Controller.nodup_keys_charge h.right client u.now

/-- **A request of somebody else goes unnoticed.** -/
theorem request_other (h : SameFor client k u) (hother : other ≠ client) :
    SameFor client (k.step (.request other)) u := by
  constructor
  · exact h.now
  · exact h.baseRate
  · exact h.burst
  · exact h.idleTime
  · exact h.effectiveRate
  · exact h.schedule
  · exact (Controller.get?_charge_other k.controller k.now hother).trans h.bucket
  · exact Controller.nodup_keys_charge h.left other k.now
  · exact h.right

theorem advance (h : SameFor client k u) (d : Duration) :
    SameFor client (k.step (.advance d)) (u.step (.advance d)) :=
  { h with now := congrArg (· + d) h.now }

/-- A sweep takes the client's bucket away from both or from neither. -/
theorem sweep (h : SameFor client k u) : SameFor client (k.step .sweep) (u.step .sweep) := by
  constructor
  · exact h.now
  · exact h.baseRate
  · exact h.burst
  · exact h.idleTime
  · exact h.effectiveRate
  · exact h.schedule
  · show (k.controller.sweep k.now).buckets.get? client =
      (u.controller.sweep u.now).buckets.get? client
    rw [Controller.get?_sweep h.left, Controller.get?_sweep h.right, h.bucket, h.now, h.idleTime]
  · exact Controller.nodup_keys_sweep h.left k.now
  · exact Controller.nodup_keys_sweep h.right u.now

/-- The load is read at both or at neither, and it is the same load. -/
theorem adjust (h : SameFor client k u) (load : α) :
    SameFor client (k.step (.adjust load)) (u.step (.adjust load)) := by
  have hreads : k.controller.readsLoad k.now = u.controller.readsLoad u.now := by
    unfold Controller.readsLoad
    rw [h.schedule, h.now]
  cases hread : u.controller.readsLoad u.now with
  | false =>
    have hk : k.step (.adjust load) = k := by simp [step, Controller.adjust, hreads, hread]
    have hu : u.step (.adjust load) = u := by simp [step, Controller.adjust, hread]
    rw [hk, hu]
    exact h
  | true =>
    rw [hread] at hreads
    simp only [step, Controller.adjust, hreads, hread, if_true]
    constructor
    · exact h.now
    · exact h.baseRate
    · exact h.burst
    · exact h.idleTime
    · simp only [h.baseRate]
    · simp only [h.schedule, h.now]
    · exact h.bucket
    · exact h.left
    · exact h.right

end SameFor

/-! ### Runs without the others -/

variable {client : String} {k u : Desk α}

/-- **Requests of others can be left out of a run**, and a client is answered as before. -/
theorem sameFor_concerning (h : SameFor client k u) (visits : List (Visit α)) :
    k.replies client visits = u.replies client (concerning client visits) ∧
      SameFor client (k.run visits) (u.run (concerning client visits)) := by
  induction visits generalizing k u with
  | nil => exact ⟨rfl, h⟩
  | cons v visits ih =>
    cases v with
    | request other =>
      by_cases hother : other = client
      · subst hother
        obtain ⟨hreplies, hsame⟩ := ih h.request_self
        have hkept : concerning other (.request other :: visits) =
            .request other :: concerning other visits := by
          simp [concerning]
        rw [hkept]
        refine ⟨?_, hsame⟩
        simp only [replies, if_true, h.reply_eq, hreplies]
      · obtain ⟨hreplies, hsame⟩ := ih (h.request_other hother)
        have hleft : concerning client (.request other :: visits) =
            concerning client visits := by
          simp [concerning, hother]
        rw [hleft]
        refine ⟨?_, hsame⟩
        simp only [replies, if_neg hother, hreplies]
    | advance d => exact ih (h.advance d)
    | sweep => exact ih h.sweep
    | adjust load => exact ih (h.adjust load)

/-- **No client feels another.**  Two runs of a controller in which time passes alike, sweeps
    and readings of the load are the same and a client makes the same requests give that client
    the same answers, waits included, and leave it the same bucket or none, whatever requests
    other clients make in them. -/
theorem replies_unaffected (rate : α) (burst : Nat) (idleTime : Duration)
    (interval : Option Duration) (start : Instant) (client : String)
    (visits visits' : List (Visit α))
    (same : concerning client visits = concerning client visits') :
    let k := following rate burst idleTime interval start
    k.replies client visits = k.replies client visits' ∧
      (k.run visits).controller.buckets.get? client =
        (k.run visits').controller.buckets.get? client := by
  intro k
  have hnew : SameFor client k k := SameFor.refl client List.nodup_nil
  obtain ⟨hreplies, hsame⟩ := sameFor_concerning hnew visits
  obtain ⟨hreplies', hsame'⟩ := sameFor_concerning hnew visits'
  rw [same] at hreplies hsame
  exact ⟨hreplies.trans hreplies'.symm, hsame.bucket.trans hsame'.bucket.symm⟩

/-- Whether somebody else floods the controller or nobody comes at all, the third request at once
    is told to wait for half a second, and after a sweep and a reading of the load that halves
    the rate the wait is a whole one. -/
theorem alone_or_in_a_crowd :
    let visits : List (Visit ℚ) := [.request "a", .request "b", .request "b", .request "a",
      .request "b", .request "a", .advance 11000000000, .adjust (9 / 10), .request "b", .sweep,
      .request "a", .request "a", .request "a"]
    let visits' : List (Visit ℚ) := [.request "a", .request "a", .request "a",
      .advance 11000000000, .adjust (9 / 10), .sweep, .request "a", .request "a", .request "a",
      .request "c"]
    let k : Desk ℚ := following 2 2 (Duration.ofSeconds 2) (some (Duration.ofSeconds 10)) 0
    concerning "a" visits = concerning "a" visits' ∧
      k.replies "a" visits = k.replies "a" visits' ∧
      k.replies "a" visits' = [.ok (), .ok (), .error 500000000, .ok (), .ok (),
        .error 1000000000] := by
  intro visits visits' k
  have hsame : concerning "a" visits = concerning "a" visits' := by
    simp [concerning, visits, visits']
  have halike := (replies_unaffected 2 2 (Duration.ofSeconds 2) (some (Duration.ofSeconds 10)) 0
    "a" visits visits' hsame).1
  refine ⟨hsame, halike, ?_⟩
  decide +kernel

end Desk

end Floodgate
