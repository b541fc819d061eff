/-
  Floodgate/Proofs/Pipeline/ReadAhead.lean
  ========================================
  **Bodies that are read ahead.**  Some stages read the body of a response before
  anybody asks for it: compression reads until there is enough data, and then encodes
  what it reads; coalescing captures the whole body.  Each reads frame by frame, as
  far as it goes.  If such a reading fails then the execution that the body comes from
  has failed, and what it leaves of the body comes from the same execution.  Reading ahead
  does not start anything, so the record only grows (`Executing.grows_of_drifts`).
-/
import Floodgate.Proofs.Pipeline.Shells

namespace Floodgate

open Http (Bytes Frame Head Pull)

theorem Http.Replay.pull_ne_failed (r : Http.Replay) (f : Failure) (rest : Http.Replay) :
    r.pull ≠ .failed f rest := by
  obtain ⟨data, trailers⟩ := r
  cases data with
  | nil => cases trailers <;> simp [pull]
  | cons b data => simp [pull]

variable {π η : Type} {P : Pipeline π η} (X : Executing P) {e : Nat} {l : Log}

/-- What no call notices starts no execution. -/
theorem Executing.grows_of_drifts {s s' : P.State} (h : P.Drifts s s') :
    (X.log s).Grows (X.log s') := by
  induction h with
  | refl => exact .refl _
  | ready _ ih => exact ih.trans (.of_eq (X.ready_log _))
  | abandon c _ ih => exact ih.trans (.of_eq (X.abandon_log c _))
  | pull b _ ih => exact ih.trans (X.pull_grows b _)
  | obey now o _ ih => exact ih.trans (.of_eq (X.obey_log now o _))
  | core change _ ih => exact ih.trans (.of_eq (X.core_log _ _))

/-! ### Measuring -/

namespace Compressed

/-- What measuring a body of an execution shows of it. -/
def Measured.Shows (e : Nat) (l : Log) : Measured P.Body → Prop
  | .pending _ rest => X.reads rest e
  | .enough _ rest => X.reads rest e
  | .short _ _ => True
  | .failed _ => e ∈ l.failed

theorem measure_shows (minSize fuel : Nat) (data : Bytes) {body : P.Body} (s : P.State)
    (hb : X.reads body e) :
    Measured.Shows X e (X.log (measure P.toService minSize fuel data body s).state)
      (measure P.toService minSize fuel data body s).value := by
  induction fuel generalizing data body s with
  | zero => exact hb
  | succ fuel ih =>
    by_cases henough : minSize ≤ data.length
    · simp only [measure, if_pos henough]
      exact hb
    · have hyields := X.pull_yields body s e hb
      simp only [measure, if_neg henough]
      cases hv : (P.pull body s).value with
      | pending rest =>
        rw [hv] at hyields
        exact hyields
      | frame f rest =>
        rw [hv] at hyields
        cases f with
        | data bytes => exact ih (data ++ bytes) (P.pull body s).state hyields
        | trailers fields => trivial
      | failed f rest =>
        rw [hv] at hyields
        exact hyields.2
      | ended rest => trivial

end Compressed

/-! ### Encoding -/

namespace Encoded

variable (c : Gzip.Codec)

/-- What reading a body of an execution for an encoder shows of it. -/
def Reading.Shows (e : Nat) (l : Log) : Reading c.Encoder P.Body → Prop
  | .pending _ rest => X.reads rest e
  | .chunk _ _ rest => X.reads rest e
  | .failed _ => e ∈ l.failed
  | .ended _ _ => True

theorem read_shows (fuel : Nat) (stream : Gzip.Stream c.Encoder) {body : P.Body} (s : P.State)
    (hb : X.reads body e) :
    Reading.Shows X c e (X.log (read c P.toService fuel stream body s).state)
      (read c P.toService fuel stream body s).value := by
  induction fuel generalizing stream body s with
  | zero => exact hb
  | succ fuel ih =>
    have hyields := X.pull_yields body s e hb
    simp only [read]
    cases hv : (P.pull body s).value with
    | pending rest =>
      rw [hv] at hyields
      exact hyields
    | frame f rest =>
      rw [hv] at hyields
      cases f with
      | data bytes =>
        by_cases hempty : (stream.write c bytes).1.isEmpty
        · simp only [if_pos hempty]
          exact ih _ (P.pull body s).state hyields
        · simp only [if_neg hempty]
          exact hyields
      | trailers fields => trivial
    | failed f rest =>
      rw [hv] at hyields
      exact hyields.2
    | ended rest => trivial

/-- The member comes from the execution, as far as the body inside is left to be read. -/
def Reads : Encoded c.Encoder P.Body → Nat → Prop
  | .flowing _ _ _ source, e => X.reads source e
  | .spent _, _ => True

variable {X}

/-- A member that breaks off does so because its execution has failed. -/
theorem pull_yields {b : Encoded c.Encoder P.Body} (s : P.State) (hb : Reads X c b e) :
    Yields (X.log (pull c P.toService b s).state) (Reads X c) e
      (pull c P.toService b s).value.1 := by
  cases b with
  | spent trailers => cases trailers <;> trivial
  | flowing ready stream sent source =>
    cases ready with
    | some bytes => exact hb
    | none =>
      have hshows := read_shows X c (P.size source + 1) stream s hb
      simp only [pull]
      cases hv : (read c P.toService (P.size source + 1) stream source s).value with
      | pending stream' rest =>
        rw [hv] at hshows
        exact hshows
      | chunk bytes stream' rest =>
        rw [hv] at hshows
        exact hshows
      | failed f =>
        rw [hv] at hshows
        exact ⟨trivial, hshows⟩
      | ended stream' trailers => trivial

end Encoded

/-! ### Compression -/

namespace Compressed

variable (c : Gzip.Codec)

/-- The call belongs to the execution; a body that is measured is no error's. -/
def Runs : Call P.Call P.Body → Nat → Prop
  | .passed inner, e => X.runs inner e
  | .negotiated inner, e => X.runs inner e
  | .measuring head _ rest, e => X.reads rest e ∧ head.status.isServerError = false

/-- The body comes from the execution, as far as it is left. -/
def Reads : Body c.Encoder P.Body → Nat → Prop
  | .relayed (.own _), _ => True
  | .relayed (.passed inner), e => X.reads inner e
  | .encoded encoded, e => Encoded.Reads X c encoded e

variable {X} {c}

/-- A body that is measured becomes the body of an answer that is no error. -/
theorem decide_tells (o : CompressorOptions) {head : Head} (data : Bytes) {body : P.Body}
    (s : State P.toService) (hb : X.reads body e) (hhead : head.status.isServerError = false) :
    Tells (X.log (decide c P.toService o head data body s).state.inner) (Runs X) (Reads X c) e
      (decide c P.toService o head data body s).value := by
  have hno : ∀ {p : Prop}, head.status.isServerError = true → p := by
    intro p hstatus
    rw [hhead] at hstatus
    cases hstatus
  have hshows := measure_shows X o.minSize (P.size body + 2) data s.inner hb
  simp only [decide]
  cases hv : (measure P.toService o.minSize (P.size body + 2) data body s.inner).value with
  | pending data' rest =>
    rw [hv] at hshows
    exact ⟨hshows, hhead⟩
  | enough data' rest =>
    rw [hv] at hshows
    exact ⟨hshows, hno⟩
  | short data' trailers => exact ⟨trivial, hno⟩
  | failed f =>
    rw [hv] at hshows
    exact hshows

theorem poll_grows (o : CompressorOptions) (now : Instant) (call : Call P.Call P.Body)
    (s : State P.toService) :
    (X.log s.inner).Grows (X.log (poll c P.toService o now call s).state.inner) := by
  cases call with
  | passed inner => exact X.poll_grows now inner s.inner
  | negotiated inner =>
    have hrest := X.grows_of_drifts (poll_negotiated c o now inner s).1
    exact (X.poll_grows now inner s.inner).trans hrest
  | measuring head data body => exact X.grows_of_drifts (decide_drifts c o head data body s)

theorem poll_tells (o : CompressorOptions) (now : Instant) {call : Call P.Call P.Body}
    (s : State P.toService) (hc : Runs X call e) :
    Tells (X.log (poll c P.toService o now call s).state.inner) (Runs X) (Reads X c) e
      (poll c P.toService o now call s).value := by
  cases call with
  | passed inner =>
    have htells := X.poll_tells now inner s.inner e hc
    show Tells _ (Runs X) (Reads X c) e
      ((P.poll now inner s.inner).value.map .passed fun b => .relayed (.passed b))
    exact htells.map (fun _ h => h) fun _ h => h
  | negotiated inner =>
    have htells := X.poll_tells now inner s.inner e hc
    simp only [poll]
    cases hv : (P.poll now inner s.inner).value with
    | pending j =>
      rw [hv] at htells
      exact htells
    | done answer =>
      rw [hv] at htells
      cases answer with
      | error f => exact htells
      | ok r =>
        obtain ⟨hreads, hstatus⟩ := htells
        by_cases heligible : eligible r.head
        · have hhead : r.head.status.isServerError = false := by
            simp only [eligible, Bool.and_eq_true, Bool.not_eq_true'] at heligible
            exact heligible.1.2
          simp only [if_pos heligible]
          exact decide_tells o [] ⟨s.own, (P.poll now inner s.inner).state⟩ hreads hhead
        · simp only [if_neg heligible]
          exact ⟨hreads, hstatus⟩
  | measuring head data body => exact decide_tells o data s hc.1 hc.2

theorem pull_yields (o : CompressorOptions) {b : Body c.Encoder P.Body} (s : State P.toService)
    (hb : Reads X c b e) :
    Yields (X.log (pull c P.toService o b s).state.inner) (Reads X c) e
      (pull c P.toService o b s).value := by
  cases b with
  | relayed b =>
    cases b with
    | own r =>
      show Yields (X.log s.inner) (Reads X c) e ((r.pull.map Relayed.own).map Body.relayed)
      cases hv : r.pull with
      | failed f rest => exact absurd hv (r.pull_ne_failed f rest)
      | _ => trivial
    | passed inner =>
      have hinner : Yields (X.log (P.pull inner s.inner).state)
          (fun b e => Reads X c (.relayed b) e) e
          ((P.pull inner s.inner).value.map Relayed.passed) :=
        (X.pull_yields inner s.inner e hb).map fun _ h => h
      exact hinner.map fun _ h => h
  | encoded encoded =>
    have hmember : Yields (X.log (Encoded.pull c P.toService encoded s.inner).state) (Reads X c) e
        ((Encoded.pull c P.toService encoded s.inner).value.1.map Body.encoded) :=
      (Encoded.pull_yields c s.inner hb).map fun _ h => h
    simp only [pull]
    split <;> exact hmember

end Compressed

/-- Compression keeps the record of executions. -/
def Compressed.executing (c : Gzip.Codec) (o : CompressorOptions) (X : Executing P) :
    Executing (P.compressed c o) where
  log s := X.log s.inner
  runs := Compressed.Runs X
  reads := Compressed.Reads X c
  ready_log s := X.ready_log s.inner
  abandon_log call s := by
    cases call with
    | passed inner => exact X.abandon_log inner s.inner
    | negotiated inner => exact X.abandon_log inner s.inner
    | measuring head data rest => rfl
  obey_log now order s := X.obey_log now order s.inner
  core_log h s := X.core_log h s.inner
  start_log now r p s := X.start_log now r p s.inner
  start_runs now r p s := by
    have h := X.start_runs now r p s.inner
    show Compressed.Runs X ((if o.enabled && Http.acceptsGzip r.headers then
      Compressed.Call.negotiated else .passed) (P.start now r p s.inner).value) _
    cases o.enabled && Http.acceptsGzip r.headers <;> exact h
  poll_grows now call s := Compressed.poll_grows o now call s
  poll_tells now call s e hc := Compressed.poll_tells o now s hc
  pull_grows b s := X.grows_of_drifts (Compressed.pull_drifts c o b s)
  pull_yields b s e hb := Compressed.pull_yields o s hb

/-! ### Capturing -/

namespace Coalesced

/-- What capturing a body of an execution shows of it. -/
def Capture.Shows (e : Nat) (l : Log) : Capture P.Body → Prop
  | .pending _ rest => X.reads rest e
  | .whole _ => True
  | .failed _ => e ∈ l.failed

theorem capture_grows (fuel : Nat) (data : Bytes) (body : P.Body) (s : P.State) :
    (X.log s).Grows (X.log (capture P.toService fuel data body s).state) :=
  X.grows_of_drifts (capture_drifts fuel data body s)

theorem capture_shows (fuel : Nat) (data : Bytes) {body : P.Body} (s : P.State)
    (hb : X.reads body e) :
    Capture.Shows X e (X.log (capture P.toService fuel data body s).state)
      (capture P.toService fuel data body s).value := by
  induction fuel generalizing data body s with
  | zero => exact hb
  | succ fuel ih =>
    have hyields := X.pull_yields body s e hb
    simp only [capture]
    cases hv : (P.pull body s).value with
    | pending rest =>
      rw [hv] at hyields
      exact hyields
    | frame f rest =>
      rw [hv] at hyields
      cases f with
      | data bytes => exact ih _ (P.pull body s).state hyields
      | trailers fields => exact ih _ (P.pull body s).state hyields
    | failed f rest =>
      rw [hv] at hyields
      exact hyields.2
    | ended rest => trivial

end Coalesced

end Floodgate
