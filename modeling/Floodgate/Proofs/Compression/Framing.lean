/-
  Floodgate/Proofs/Compression/Framing.lean
  =========================================
  **Compression and the framing of a body.**  The compressor reads a body until it has
  enough data, in whatever pieces the data comes (`measure_finds`), and encodes it piece by
  piece (`gives_encoded`).  Neither the decision nor the data that the member decodes to
  depends on the pieces: `negotiated_delivers` says what the answer is, in terms of all the
  data together and of what stands after it.
-/
import Floodgate.Proofs.Compression.Heads
import Floodgate.Proofs.Gzip.Pieces
import Floodgate.Proofs.Traffic.Inside

namespace Floodgate

open Gzip (Codec Stream)
open Http (Bytes Frame Head Headers Pull Request)

variable {π : Type} {c : Codec} {S : Service π} {waits : Prop}

/-! ### Encoded bodies -/

namespace Encoded

/-- What an encoded body has to give, before it the parts of the member that are settled and
    not yet given; the source has `x` to give. -/
def script (c : Codec) (ready : List Bytes) (stream : Stream c.Encoder) (x : Script) : Script :=
  let written := stream.parts c x.data
  match x.ending with
  | .ok trailers =>
    ⟨ready ++ Gzip.filled written.1 ++ [written.2.finish c], .ok trailers⟩
  | .error f => ⟨ready ++ Gzip.filled written.1, .error f⟩

theorem script_cons (ready : List Bytes) (stream : Stream c.Encoder) (bytes : Bytes)
    (data : List Bytes) (ending : Except Failure (Option Headers)) :
    script c ready stream ⟨bytes :: data, ending⟩ =
      script c (ready ++ Gzip.filled [(stream.write c bytes).1]) (stream.write c bytes).2
        ⟨data, ending⟩ := by
  have hready : ∀ pieces, ready ++ Gzip.filled ((stream.write c bytes).1 :: pieces) =
      ready ++ Gzip.filled [(stream.write c bytes).1] ++ Gzip.filled pieces := by
    intro pieces
    rw [List.append_assoc]
    exact congrArg (ready ++ ·) (List.filter_append [(stream.write c bytes).1] pieces)
  cases ending <;> simp only [script, Stream.parts] <;> rw [hready]

theorem script_ready (bytes : Bytes) (ready : List Bytes) (stream : Stream c.Encoder) (x : Script) :
    script c (bytes :: ready) stream x =
      ⟨bytes :: (script c ready stream x).data, (script c ready stream x).ending⟩ := by
  obtain ⟨data, ending⟩ := x
  cases ending <;> rfl

/-- What reading the source for an encoder comes to, in terms of what the body has to give. -/
def Reading.Goes (S : Service π) (waits : Prop) (x : Script) : Reading c.Encoder S.Body → Prop
  | .pending stream source =>
    waits ∧ ∃ y, S.Gives waits source y ∧ x = script c [] stream y
  | .chunk bytes stream source => ∃ y, S.Gives waits source y ∧ x = script c [bytes] stream y
  | .failed f => x = ⟨[], .error f⟩
  | .ended stream trailers => x = ⟨[stream.finish c], .ok trailers⟩

theorem read_goes {fuel : Nat} {source : S.Body} {y : Script} (stream : Stream c.Encoder)
    (s : S.State) (hsource : S.Gives waits source y) (hfuel : S.size source < fuel) :
    (read c S fuel stream source s).value.Goes S waits (script c [] stream y) := by
  induction fuel generalizing stream source s y with
  | zero => exact absurd hfuel (Nat.not_lt_zero _)
  | succ fuel ih =>
    obtain ⟨data, ending⟩ := y
    have hpull := hsource.pull s
    have hshrinks := S.pull_shrinks source s
    simp only [read]
    cases hv : (S.pull source s).value with
    | pending rest =>
      rw [hv] at hpull
      exact ⟨hpull.1, _, hpull.2, rfl⟩
    | frame f rest =>
      rw [hv] at hpull hshrinks
      cases f with
      | data bytes =>
        obtain ⟨data', rfl, hrest⟩ := hpull
        rw [script_cons]
        dsimp only
        split
        · next hempty =>
          have hnone : Gzip.filled [(stream.write c bytes).1] = [] := by
            simp [Gzip.filled, hempty]
          rw [hnone]
          exact ih _ _ hrest (Nat.lt_of_lt_of_le hshrinks (Nat.le_of_lt_succ hfuel))
        · next hsome =>
          have hone : Gzip.filled [(stream.write c bytes).1] = [(stream.write c bytes).1] := by
            simp [Gzip.filled, hsome]
          rw [hone]
          exact ⟨_, hrest, rfl⟩
      | trailers fields =>
        obtain ⟨hx, _⟩ := hpull
        rw [hx]
        rfl
    | failed f rest =>
      rw [hv] at hpull
      rw [show _ = _ from hpull]
      rfl
    | ended rest =>
      rw [hv] at hpull
      obtain ⟨hx, _⟩ := hpull
      rw [hx]
      rfl

/-- What an encoded body has to give, by how far it has got. -/
def Has (S : Service π) (waits : Prop) (x : Script) : Encoded c.Encoder S.Body → Prop
  | .flowing ready stream _ source =>
    ∃ y, S.Gives waits source y ∧ x = script c ready.toList stream y
  | .spent trailers => x = ⟨[], .ok trailers⟩

theorem allows_chunk {source : S.Body} {y : Script} (bytes : Bytes) (stream : Stream c.Encoder)
    (sent : Nat) (hsource : S.Gives waits source y) :
    (script c [bytes] stream y).Allows waits (fun e x => Has S waits x e)
      (.frame (.data bytes) (.flowing none stream sent source)) := by
  rw [script_ready]
  exact ⟨_, rfl, y, hsource, rfl⟩

theorem Has.pull {e : Encoded c.Encoder S.Body} {x : Script} (h : e.Has S waits x) (s : S.State) :
    x.Allows waits (fun e x => Has S waits x e) (pull c S e s).value.1 := by
  cases e with
  | spent trailers =>
    cases trailers with
    | none => exact ⟨h, rfl⟩
    | some fields => exact ⟨h, rfl⟩
  | flowing ready stream sent source =>
    obtain ⟨y, hsource, rfl⟩ := h
    cases ready with
    | some bytes => exact allows_chunk bytes stream _ hsource
    | none =>
      have hgoes := read_goes stream s hsource (Nat.lt_succ_self _)
      simp only [Encoded.pull, Option.toList_none]
      cases hv : (read c S (S.size source + 1) stream source s).value with
      | pending stream' source' =>
        rw [hv] at hgoes
        exact hgoes
      | chunk bytes stream' source' =>
        rw [hv] at hgoes
        obtain ⟨y', hsource', hx⟩ := hgoes
        rw [show script c _ _ _ = _ from hx]
        exact allows_chunk bytes stream' _ hsource'
      | failed f =>
        rw [hv] at hgoes
        exact hgoes
      | ended stream' trailers =>
        rw [hv] at hgoes
        rw [show script c _ _ _ = _ from hgoes]
        exact ⟨[], rfl, rfl⟩

end Encoded

namespace Compressed

/-- What a body has to give whose data is taken in as pieces, the first piece at once. -/
def memberScript (c : Codec) (level : Nat) (first : Bytes) (rest : Script) : Script :=
  let written := (Stream.start c level).write c first
  Encoded.script c [Gzip.header ++ written.1] written.2 rest

theorem flatten_memberScript (c : Codec) (level : Nat) (first : Bytes) (data : List Bytes)
    (trailers : Option Headers) :
    (memberScript c level first ⟨data, .ok trailers⟩).data.flatten =
      c.member level (Gzip.filled (first :: data)) := by
  rw [← Stream.parts_member]
  simp only [memberScript, Encoded.script, Stream.parts, List.flatten_append, Gzip.flatten_filled,
    List.flatten_cons, List.flatten_nil, List.append_nil, List.append_assoc]

variable {o : CompressorOptions}

theorem gives_encoded {e : Encoded c.Encoder S.Body} {x : Script} (h : e.Has S waits x) :
    (service c S o).Gives waits (.encoded e) x := by
  refine ⟨fun b x => ∃ e, b = .encoded e ∧ Encoded.Has S waits x e, ⟨e, rfl, h⟩, ?_⟩
  rintro _ x s ⟨e, rfl, he⟩
  have hpull : ((service c S o).pull (.encoded e) s).value =
      (Encoded.pull c S e s.inner).value.1.map Body.encoded := by
    show (pull c S o (.encoded e) s).value = _
    simp only [pull]
    split <;> rfl
  rw [hpull]
  exact (he.pull s.inner).map fun e' x' he' => ⟨e', rfl, he'⟩

theorem gives_own (r : Http.Replay) :
    (service c S o).Gives waits (.relayed (.own r)) r.script := by
  have hpull : ∀ (r : Http.Replay) s, ((service c S o).pull (Body.relayed (Relayed.own r)) s).value =
      r.pull.map fun r => Body.relayed (Relayed.own r) := by
    intro r s
    show ((r.pull.map Relayed.own).map Body.relayed) = _
    cases r.pull <;> rfl
  exact Service.gives_replay hpull r

/-! ### Measuring -/

/-- What measuring a body comes to that has `x` to give, after data that has been read. -/
def Measured.Finds (S : Service π) (waits : Prop) (minSize : Nat) (data : Bytes) (x : Script) :
    Measured S.Body → Prop
  | .pending data' rest => waits ∧ ∃ y, S.Gives waits rest y ∧
      data' ++ y.data.flatten = data ++ x.data.flatten ∧ y.ending = x.ending
  | .enough data' rest => minSize ≤ data'.length ∧ ∃ y, S.Gives waits rest y ∧
      data' ++ y.data.flatten = data ++ x.data.flatten ∧ y.ending = x.ending
  | .short data' trailers =>
    data' = data ++ x.data.flatten ∧ data'.length < minSize ∧ x.ending = .ok trailers
  | .failed f => (data ++ x.data.flatten).length < minSize ∧ x.ending = .error f

theorem measure_finds (minSize : Nat) {fuel : Nat} (data : Bytes) {body : S.Body} {x : Script}
    (s : S.State) (hbody : S.Gives waits body x) (hfuel : S.size body < fuel) :
    (measure S minSize fuel data body s).value.Finds S waits minSize data x := by
  induction fuel generalizing data body s x with
  | zero => exact absurd hfuel (Nat.not_lt_zero _)
  | succ fuel ih =>
    by_cases henough : minSize ≤ data.length
    · simp only [measure, if_pos henough]
      exact ⟨henough, x, hbody, rfl, rfl⟩
    · obtain ⟨pieces, ending⟩ := x
      have hpull := hbody.pull s
      have hshrinks := S.pull_shrinks body s
      simp only [measure, if_neg henough]
      cases hv : (S.pull body s).value with
      | pending rest =>
        rw [hv] at hpull
        exact ⟨hpull.1, _, hpull.2, rfl, rfl⟩
      | frame f rest =>
        rw [hv] at hpull hshrinks
        cases f with
        | data bytes =>
          obtain ⟨pieces', rfl, hrest⟩ := hpull
          have hfinds := ih (data ++ bytes) (S.pull body s).state hrest
            (Nat.lt_of_lt_of_le hshrinks (Nat.le_of_lt_succ hfuel))
          have hdata : data ++ bytes ++ pieces'.flatten = data ++ (bytes :: pieces').flatten := by
            rw [List.flatten_cons, List.append_assoc]
          unfold Measured.Finds at hfinds ⊢
          rw [← hdata]
          exact hfinds
        | trailers fields =>
          obtain ⟨hx, _⟩ := hpull
          cases hx
          exact ⟨(List.append_nil data).symm, Nat.lt_of_not_le henough, rfl⟩
      | failed f rest =>
        rw [hv] at hpull
        cases (show _ = _ from hpull)
        refine ⟨?_, rfl⟩
        rw [List.flatten_nil, List.append_nil]
        exact Nat.lt_of_not_le henough
      | ended rest =>
        rw [hv] at hpull
        obtain ⟨hx, _⟩ := hpull
        cases hx
        exact ⟨(List.append_nil data).symm, Nat.lt_of_not_le henough, rfl⟩

/-! ### Answers -/

/-- What is made of a response with this head whose body has this data and then ends so: with
    enough data it is encoded, and otherwise it stays as it is. -/
def Delivers (c : Codec) (S : Service π) (o : CompressorOptions) (waits : Prop) (head : Head)
    (data : Bytes) (ending : Except Failure (Option Headers)) (a : Answer (Body c.Encoder S.Body)) :
    Prop :=
  if o.minSize ≤ data.length then
    ∃ body level first rest, a = .ok ⟨encodedHead head, .encoded body⟩ ∧
      first ++ rest.flatten = data ∧
      (service c S o).Gives waits (.encoded body) (memberScript c level first ⟨rest, ending⟩)
  else
    match ending with
    | .ok trailers =>
      (service c S o).Responds waits head (Http.Replay.script ⟨data, trailers⟩) a
    | .error f => a = .error f

/-- The call is measuring the body of a response, and so much of it is left. -/
def Measures (S : Service π) (waits : Prop) (head : Head) (data : Bytes)
    (ending : Except Failure (Option Headers)) (call : Call S.Call S.Body) : Prop :=
  ∃ read rest y, call = .measuring head read rest ∧ S.Gives waits rest y ∧
    read ++ y.data.flatten = data ∧ y.ending = ending

theorem decide_meets (head : Head) (data : Bytes) {body : S.Body} {x : Script}
    (hbody : S.Gives waits body x) (s : State S) :
    (decide c S o head data body s).value.Meets waits
      (Measures S waits head (data ++ x.data.flatten) x.ending)
      (Delivers c S o waits head (data ++ x.data.flatten) x.ending) := by
  have hfinds := measure_finds o.minSize data s.inner hbody
    (Nat.lt_of_lt_of_le (Nat.lt_succ_self _) (Nat.le_succ _))
  simp only [decide]
  cases hv : (measure S o.minSize (S.size body + 2) data body s.inner).value with
  | pending data' rest =>
    rw [hv] at hfinds
    obtain ⟨hwaits, y, hrest, hdata, hending⟩ := hfinds
    exact ⟨hwaits, data', rest, y, rfl, hrest, hdata, hending⟩
  | failed f =>
    rw [hv] at hfinds
    obtain ⟨hshort, hending⟩ := hfinds
    simp only [Progress.Meets, Delivers, if_neg (Nat.not_le_of_lt hshort), hending]
  | short data' trailers =>
    rw [hv] at hfinds
    obtain ⟨rfl, hshort, hending⟩ := hfinds
    simp only [Progress.Meets, Delivers, plain, if_neg (Nat.not_le_of_lt hshort), hending]
    exact ⟨_, rfl, gives_own _⟩
  | enough data' rest =>
    rw [hv] at hfinds
    obtain ⟨henough, y, hrest, hdata, hending⟩ := hfinds
    have hlong : o.minSize ≤ (data ++ x.data.flatten).length := by
      rw [← hdata, List.length_append]
      exact Nat.le_add_right_of_le henough
    simp only [Progress.Meets, Delivers, if_pos hlong]
    refine ⟨_, s.own.pool.level, data', y.data, rfl, hdata, ?_⟩
    rw [← hending]
    exact gives_encoded ⟨y, hrest, rfl⟩

theorem Measures.answers {head : Head} {data : Bytes}
    {ending : Except Failure (Option Headers)} {call : Call S.Call S.Body}
    (h : Measures S waits head data ending call) :
    (service c S o).Answers waits call (Delivers c S o waits head data ending) := by
  refine ⟨Measures S waits head data ending, h, ?_⟩
  rintro _ now s ⟨read, rest, y, rfl, hrest, rfl, rfl⟩
  exact decide_meets head read hrest s

/-! ### Courses -/

section

variable {now : Instant} {r : Request} {p : π} {s : (service c S o).State}

theorem start_negotiated (henabled : o.enabled = true)
    (haccepts : Http.acceptsGzip r.headers = true) :
    ((service c S o).start now r p s).value = Call.negotiated (S.start now r p s.inner).value := by
  show (start S o now r p s).value = _
  simp only [start, henabled, haccepts, Bool.and_self, if_true]
  rfl

theorem start_passed (h : (o.enabled && Http.acceptsGzip r.headers) = false) :
    ((service c S o).start now r p s).value = Call.passed (S.start now r p s.inner).value := by
  show (start S o now r p s).value = _
  simp only [start, h, Bool.false_eq_true, if_false]
  rfl

end

theorem awaits_passed : Service.Awaits (service c S o) S Call.passed Layered.inner := by
  intro now call s next hnext
  show (poll c S o now (.passed call) s).value = _
  simp only [poll, Step.map, Step.under, Step.into, hnext]
  rfl

theorem awaits_negotiated : Service.Awaits (service c S o) S Call.negotiated Layered.inner := by
  intro now call s next hnext
  show (poll c S o now (.negotiated call) s).value = _
  simp only [poll, hnext]
  rfl

variable {moments : List (Instant × State S)} {inner : S.Call} {head : Head} {b : S.Body}
  {x : Script}

/-- A response to a request that does not accept gzip is passed on. -/
theorem passed_responds
    (hinner : S.course inner (inside Layered.inner moments) = .done (.ok ⟨head, b⟩)) :
    (service c S o).course (.passed inner) moments =
      .done (.ok ⟨head, .relayed (.passed b)⟩) := by
  refine Service.course_answered (awaits_passed (c := c) (o := o)) ?_ hinner
  intro now call s hdone
  show (poll c S o now (.passed call) s).value = _
  simp only [poll, Step.map, Step.under, Step.into, hdone]
  rfl

/-- What is encoded was asked for. -/
theorem asked_of_encoded {now : Instant} {r : Request} {p : π} {s : (service c S o).State}
    {e : Encoded c.Encoder S.Body}
    (h : (service c S o).course ((service c S o).start now r p s).value moments =
      .done (.ok ⟨head, .encoded e⟩)) :
    o.enabled = true ∧ Http.acceptsGzip r.headers = true := by
  cases hasked : o.enabled && Http.acceptsGzip r.headers with
  | true => exact (Bool.and_eq_true _ _).mp hasked
  | false =>
    rw [start_passed hasked] at h
    obtain ⟨a, hinner⟩ := Service.answered_inside awaits_passed h
    cases a with
    | ok response =>
      rw [passed_responds hinner] at h
      cases h
    | error f =>
      have hfails : (service c S o).course (.passed (S.start now r p s.inner).value) moments =
          .done (.error f) := by
        refine Service.course_answered awaits_passed ?_ hinner
        intro now call s hdone
        show (poll c S o now (.passed call) s).value = _
        simp only [poll, Step.map, Step.under, Step.into, hdone]
        rfl
      rw [hfails] at h
      cases h

/-- **What becomes of a response to a request that accepts gzip** depends on its head, its data
    and what stands after them, and not on the pieces that the data comes in. -/
theorem negotiated_delivers (heligible : eligible head = true) (hb : S.Gives waits b x)
    (hinner : S.course inner (inside Layered.inner moments) = .done (.ok ⟨head, b⟩)) :
    ((service c S o).course (.negotiated inner) moments).Meets waits (fun _ => True)
      (Delivers c S o waits head x.data.flatten x.ending) := by
  have hmeets := Service.course_after waits (Delivers c S o waits head x.data.flatten x.ending)
    (awaits_negotiated (c := c) (o := o)) ?_ hinner
  · exact hmeets.mono (fun _ _ => trivial) fun _ hJ => hJ
  · intro now call s hdone
    show (poll c S o now (.negotiated call) s).value.Meets _ _ _
    simp only [poll, hdone, heligible, if_true]
    have hdecide := decide_meets (c := c) (o := o) head [] hb
      ⟨s.own, (S.poll now call s.inner).state⟩
    exact hdecide.mono (fun _ hcall => hcall.answers) fun _ hJ => hJ

/-- The same of a request from its start: if the call has been answered, then so. -/
theorem asked_delivers {now : Instant} {r : Request} {p : π} {s : (service c S o).State}
    (henabled : o.enabled = true) (haccepts : Http.acceptsGzip r.headers = true)
    (heligible : eligible head = true) (hb : S.Gives waits b x)
    (hinner : S.course (S.start now r p s.inner).value (inside Layered.inner moments) =
      .done (.ok ⟨head, b⟩))
    {answer : Answer (Body c.Encoder S.Body)}
    (hdone : (service c S o).course ((service c S o).start now r p s).value moments =
      .done answer) :
    Delivers c S o waits head x.data.flatten x.ending answer := by
  rw [start_negotiated henabled haccepts] at hdone
  have hdelivers := negotiated_delivers (c := c) (o := o) heligible hb hinner
  rw [hdone] at hdelivers
  exact hdelivers

end Compressed

end Floodgate
