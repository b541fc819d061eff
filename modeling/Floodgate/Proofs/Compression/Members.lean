/-
  Floodgate/Proofs/Compression/Members.lean
  =========================================
  **How far a member has got.**  The body of a response that is compressed gives its member
  in frames, and its reader may fall behind, give up, or be told of a failure.  At any time
  it is in one of four places (`Encoded.Tale`): nothing has been read yet, the member is
  under way, it is complete, or it has broken off.  What was given so far is settled by
  what the body inside has given, in each of them.

  Reading goes from one place to another in few ways (`Tale.pull`); in particular a member is
  reported as finished by the very pull that gives the last of it, and by no other.

  The bodies of a run that are encoded are all at one of these places (`tale_of`).
-/
import Floodgate.Proofs.Compression.Framing
import Floodgate.Proofs.Traffic.Perusal

namespace Floodgate

open Gzip (Codec Stream)
open Http (Bytes Frame Head Headers Pull Request)

/-! ### What a reader was given -/

namespace Http.Pull

variable {β : Type}

/-- Nothing was given, or data. -/
def GoesOn : Pull β → Prop
  | .pending _ => True
  | .frame (.data _) _ => True
  | _ => False

def failure? : Pull β → Option Failure
  | .failed f _ => some f
  | _ => none

theorem GoesOn.failure?_eq {p : Pull β} (h : p.GoesOn) : p.failure? = none := by
  cases p with
  | failed f rest => exact h.elim
  | _ => rfl

end Http.Pull

/-- The failures that a reader was told of. -/
def Perusal.failures {β : Type} (q : Perusal β) : List Failure :=
  q.given.filterMap Pull.failure?

theorem filterMap_failure?_eq {given : List (Pull Unit)} (h : ∀ p ∈ given, p.GoesOn) :
    given.filterMap Pull.failure? = [] :=
  List.filterMap_eq_nil_iff.mpr fun p hp => (h p hp).failure?_eq

theorem forall_goesOn_concat {given : List (Pull Unit)} {p : Pull Unit}
    (h : ∀ p ∈ given, p.GoesOn) (hp : p.GoesOn) : ∀ p' ∈ given ++ [p], p'.GoesOn := by
  intro p' hp'
  rcases List.mem_append.mp hp' with hold | hnew
  · exact h p' hold
  · rw [List.mem_singleton.mp hnew]
    exact hp

variable {π : Type} {c : Codec} {S : Service π}

/-! ### Encoded bodies -/

namespace Encoded

/-- What reading the source comes to, by what the source has given meanwhile. -/
def Reading.Has (S : Service π) (stream : Stream c.Encoder) (source : S.Body) :
    Reading c.Encoder S.Body → Prop
  | .pending stream' next =>
    ∃ pieces, S.Yields source pieces next ∧ stream.Takes pieces [] stream'
  | .chunk bytes stream' next =>
    ∃ pieces, S.Yields source pieces next ∧ stream.Takes pieces bytes stream'
  | .failed f => ∃ pieces stream', S.Fails source pieces f ∧ stream.Takes pieces [] stream'
  | .ended stream' trailers =>
    ∃ pieces, S.Ends source pieces trailers ∧ stream.Takes pieces [] stream'

theorem Reading.Has.after {stream stream' : Stream c.Encoder} {source next : S.Body}
    {pieces : List Bytes} (hyields : S.Yields source pieces next)
    (htakes : stream.Takes pieces [] stream') {r : Reading c.Encoder S.Body}
    (h : r.Has S stream' next) : r.Has S stream source := by
  cases r with
  | pending stream'' last =>
    obtain ⟨more, hmore, htakes'⟩ := h
    exact ⟨_, hyields.trans hmore, htakes.append htakes'⟩
  | chunk bytes stream'' last =>
    obtain ⟨more, hmore, htakes'⟩ := h
    exact ⟨_, hyields.trans hmore, htakes.append htakes'⟩
  | failed f =>
    obtain ⟨more, stream'', hmore, htakes'⟩ := h
    exact ⟨_, _, hyields.fails hmore, htakes.append htakes'⟩
  | ended stream'' trailers =>
    obtain ⟨more, hmore, htakes'⟩ := h
    exact ⟨_, hyields.ends hmore, htakes.append htakes'⟩

theorem read_has (fuel : Nat) (stream : Stream c.Encoder) (source : S.Body) (s : S.State) :
    (read c S fuel stream source s).value.Has S stream source := by
  induction fuel generalizing stream source s with
  | zero => exact ⟨[], .refl source, stream.takes_nil⟩
  | succ fuel ih =>
    simp only [read]
    cases hv : (S.pull source s).value with
    | pending rest => exact ⟨[], .wait s hv (.refl rest), stream.takes_nil⟩
    | frame f rest =>
      cases f with
      | data bytes =>
        have hyields : S.Yields source [bytes] rest := .data s hv (.refl rest)
        have htakes := stream.takes_write bytes
        dsimp only
        split
        · next hempty =>
          rw [List.isEmpty_iff.mp hempty] at htakes
          exact (ih _ rest _).after hyields htakes
        · exact ⟨[bytes], hyields, htakes⟩
      | trailers fields => exact ⟨[], ⟨source, s, .refl source, rest, hv⟩, stream.takes_nil⟩
    | failed f rest => exact ⟨[], stream, ⟨source, s, rest, .refl source, hv⟩, stream.takes_nil⟩
    | ended rest => exact ⟨[], ⟨source, s, .refl source, rest, hv⟩, stream.takes_nil⟩

/-- How far a body has got that began with data `first` and reads `source` after it, and what
    its reader was given. -/
inductive Tale (c : Codec) (S : Service π) (level : Nat) (first : Bytes) (source : S.Body) :
    List (Pull Unit) → Encoded c.Encoder S.Body → Prop where
  /-- Nothing was given yet. -/
  | opening : Tale c S level first source [] (start c S level first source)
  /-- All that is settled was given. -/
  | flowing {given : List (Pull Unit)} {pieces : List Bytes} {next : S.Body} {out : Bytes}
      {stream : Stream c.Encoder} (hyields : S.Yields source pieces next)
      (htakes : (Stream.start c level).Takes (first :: pieces) out stream)
      (hdata : given.flatMap Pull.bytes = Gzip.header ++ out) (hgoes : ∀ p ∈ given, p.GoesOn) :
      Tale c S level first source given
        (.flowing none stream (Gzip.header ++ out).length next)
  /-- The body inside failed, and after this failure there was nothing more. -/
  | broken {given : List (Pull Unit)} {pieces : List Bytes} {out : Bytes}
      {stream : Stream c.Encoder} {f : Failure} (k : Nat) (hfails : S.Fails source pieces f)
      (htakes : (Stream.start c level).Takes (first :: pieces) out stream)
      (hdata : given.flatMap Pull.bytes = Gzip.header ++ out) (hgoes : ∀ p ∈ given, p.GoesOn) :
      Tale c S level first source (given ++ .failed f () :: List.replicate k (.ended ()))
        (.spent none)
  /-- The whole member was given. -/
  | complete {given : List (Pull Unit)} {pieces : List Bytes} {trailers left : Option Headers}
      (hends : S.Ends source pieces trailers)
      (hdata : given.flatMap Pull.bytes = c.member level (Gzip.filled (first :: pieces)))
      (hfailures : given.filterMap Pull.failure? = []) :
      Tale c S level first source given (.spent left)

variable {level : Nat} {first : Bytes} {source : S.Body} {given : List (Pull Unit)}
  {e : Encoded c.Encoder S.Body}

/-- Nothing is left of the member, and it has not broken off. -/
def Completes {ε β : Type} (given : List (Pull Unit)) (e : Encoded ε β) : Prop :=
  (∃ left, e = .spent left) ∧ given.filterMap Pull.failure? = []

/-- The pull completes the member of all data, and reports how long data and member are. -/
def Finishes (c : Codec) (S : Service π) (level : Nat) (first : Bytes) (source : S.Body)
    (given : List (Pull Unit)) (r : Pull (Encoded c.Encoder S.Body) × Option Finished) : Prop :=
  let given' := given ++ [r.1.given]
  Completes given' (restOf r.1) ∧
    ∃ pieces trailers, S.Ends source pieces trailers ∧
      given'.flatMap Pull.bytes = c.member level (Gzip.filled (first :: pieces)) ∧
      r.2 = some ⟨(first :: pieces).flatten.length, (given'.flatMap Pull.bytes).length⟩

theorem not_completes_flowing {ε β : Type} {ready : Option Bytes} {stream : Stream ε} {sent : Nat}
    {next : β} : ¬ Completes given (.flowing ready stream sent next) := by
  rintro ⟨⟨left, h⟩, _⟩
  cases h

/-- The data that was given after one more pull. -/
theorem flatMap_bytes_concat {out : Bytes} {p : Pull Unit}
    (h : given.flatMap Pull.bytes = out) :
    (given ++ [p]).flatMap Pull.bytes = out ++ p.bytes := by
  rw [List.flatMap_append, h, List.flatMap_singleton]

/-- What a pull makes of a body: it stays one of the kind, and either the pull reports a
    finished member, and that is the pull which completes it, or it reports nothing, and the
    member is complete after it just if it was so before. -/
def Goes (c : Codec) (S : Service π) (level : Nat) (first : Bytes) (source : S.Body)
    (given : List (Pull Unit)) (e : Encoded c.Encoder S.Body)
    (r : Pull (Encoded c.Encoder S.Body) × Option Finished) : Prop :=
  Tale c S level first source (given ++ [r.1.given]) (restOf r.1) ∧
    ((r.2 = none ∧ (Completes (given ++ [r.1.given]) (restOf r.1) ↔ Completes given e)) ∨
      (¬ Completes given e ∧ Finishes c S level first source given r))

theorem goes_quiet {r : Pull (Encoded c.Encoder S.Body) × Option Finished}
    (htale : Tale c S level first source (given ++ [r.1.given]) (restOf r.1)) (hnone : r.2 = none)
    (hsame : Completes (given ++ [r.1.given]) (restOf r.1) ↔ Completes given e) :
    Goes c S level first source given e r :=
  ⟨htale, .inl ⟨hnone, hsame⟩⟩

/-- While the body inside is read, the cases are those of the reading. -/
theorem goes_flowing {pieces : List Bytes} {next : S.Body} {out : Bytes}
    {stream : Stream c.Encoder} (hyields : S.Yields source pieces next)
    (htakes : (Stream.start c level).Takes (first :: pieces) out stream)
    (hdata : given.flatMap Pull.bytes = Gzip.header ++ out) (hgoes : ∀ p ∈ given, p.GoesOn)
    (s : S.State) :
    Goes c S level first source given
      (.flowing none stream (Gzip.header ++ out).length next)
      (Encoded.pull c S (.flowing none stream (Gzip.header ++ out).length next) s).value := by
  have hhas := read_has (S.size next + 1) stream next s
  simp only [Encoded.pull]
  cases hv : (read c S (S.size next + 1) stream next s).value with
  | pending stream' last =>
    rw [hv] at hhas
    obtain ⟨more, hmore, htakes'⟩ := hhas
    refine goes_quiet ?_ rfl (iff_of_false not_completes_flowing not_completes_flowing)
    have hboth := htakes.append htakes'
    rw [List.append_nil] at hboth
    refine .flowing (hyields.trans hmore) hboth ?_ (forall_goesOn_concat hgoes trivial)
    exact (flatMap_bytes_concat hdata).trans (List.append_nil _)
  | chunk bytes stream' last =>
    rw [hv] at hhas
    obtain ⟨more, hmore, htakes'⟩ := hhas
    refine goes_quiet ?_ rfl (iff_of_false not_completes_flowing not_completes_flowing)
    have hboth := htakes.append htakes'
    have hlength : (Gzip.header ++ out).length + bytes.length =
        (Gzip.header ++ (out ++ bytes)).length := by
      simp only [List.length_append, Nat.add_assoc]
    simp only [hlength, restOf]
    refine .flowing (hyields.trans hmore) hboth ?_ (forall_goesOn_concat hgoes trivial)
    exact (flatMap_bytes_concat hdata).trans (List.append_assoc _ _ _)
  | failed f =>
    rw [hv] at hhas
    obtain ⟨more, stream', hmore, htakes'⟩ := hhas
    have hboth := htakes.append htakes'
    rw [List.append_nil] at hboth
    have hfailures : ¬ Completes (given ++ [.failed f ()])
        (.spent none : Encoded c.Encoder S.Body) := by
      rintro ⟨_, hnone⟩
      simp [Pull.failure?] at hnone
    refine goes_quiet ?_ rfl (iff_of_false hfailures not_completes_flowing)
    exact .broken 0 (hyields.fails hmore) hboth hdata hgoes
  | ended stream' trailers =>
    rw [hv] at hhas
    obtain ⟨more, hmore, htakes'⟩ := hhas
    have hends := hyields.ends hmore
    obtain ⟨hmember, hlength⟩ := (htakes.append htakes').member
    rw [List.append_nil] at hmember
    have hall : (given ++ [Pull.frame (.data (stream'.finish c)) ()]).flatMap Pull.bytes =
        c.member level (Gzip.filled (first :: (pieces ++ more))) :=
      (flatMap_bytes_concat hdata).trans hmember
    have hfailures : (given ++ [Pull.frame (.data (stream'.finish c)) ()]).filterMap
        Pull.failure? = [] :=
      filterMap_failure?_eq (forall_goesOn_concat hgoes trivial)
    refine ⟨.complete hends hall hfailures, .inr ⟨not_completes_flowing, ?_⟩⟩
    refine ⟨⟨⟨_, rfl⟩, hfailures⟩, _, _, hends, hall, ?_⟩
    have hgiven := flatMap_bytes_concat (p := .frame (.data (stream'.finish c)) ()) hdata
    simp only [Pull.given, Pull.map, hgiven, hlength, List.length_append, List.cons_append]
    rfl

/-- **What a pull makes of a body that is encoded.**  It goes on, wherever it is. -/
theorem Tale.pull (h : Tale c S level first source given e) (s : S.State) :
    Goes c S level first source given e (Encoded.pull c S e s).value := by
  cases h with
  | opening =>
    have htakes := (Stream.start c level).takes_write first
    refine goes_quiet ?_ rfl (iff_of_false not_completes_flowing not_completes_flowing)
    have hsent : ∀ n, 0 + n = n := Nat.zero_add
    simp only [Encoded.pull, start, restOf, hsent]
    refine .flowing (.refl source) htakes ?_ (forall_goesOn_concat (by simp) trivial)
    exact flatMap_bytes_concat rfl
  | flowing hyields htakes hdata hgoes => exact goes_flowing hyields htakes hdata hgoes s
  | @broken before pieces out stream f k hfails htakes hdata hgoes =>
    have hfailures : ∀ k, ¬ Completes (before ++ .failed f () :: List.replicate k (.ended ()))
        (.spent none : Encoded c.Encoder S.Body) := by
      rintro k ⟨_, hnone⟩
      simp [Pull.failure?] at hnone
    have hmore : before ++ .failed f () :: List.replicate k (.ended ()) ++ [.ended ()] =
        before ++ .failed f () :: List.replicate (k + 1) (.ended ()) := by
      rw [List.replicate_succ', List.append_assoc, List.cons_append]
    refine goes_quiet ?_ rfl (iff_of_false ?_ (hfailures k))
    · exact hmore ▸ .broken (k + 1) hfails htakes hdata hgoes
    · exact hmore ▸ hfailures (k + 1)
  | @complete _ pieces trailers left hends hdata hfailures =>
    cases left with
    | none =>
      have hnone : (given ++ [Pull.ended ()]).filterMap Pull.failure? = [] := by
        rw [List.filterMap_append, hfailures]
        rfl
      refine goes_quiet ?_ rfl (iff_of_true ⟨⟨_, rfl⟩, hnone⟩ ⟨⟨_, rfl⟩, hfailures⟩)
      exact .complete hends ((flatMap_bytes_concat hdata).trans (List.append_nil _)) hnone
    | some fields =>
      have hnone : (given ++ [Pull.frame (.trailers fields) ()]).filterMap Pull.failure? = [] := by
        rw [List.filterMap_append, hfailures]
        rfl
      refine goes_quiet ?_ rfl (iff_of_true ⟨⟨_, rfl⟩, hnone⟩ ⟨⟨_, rfl⟩, hfailures⟩)
      exact .complete hends ((flatMap_bytes_concat hdata).trans (List.append_nil _)) hnone

end Encoded

namespace Compressed

variable {o : CompressorOptions}

/-! ### Which bodies are encoded -/

/-- What measuring a body comes to, by what the body has given meanwhile. -/
def Measured.Has (S : Service π) (minSize : Nat) (data : Bytes) (body : S.Body) :
    Measured S.Body → Prop
  | .pending data' rest => ∃ pieces, S.Yields body pieces rest ∧ data' = data ++ pieces.flatten
  | .enough data' rest => minSize ≤ data'.length ∧
      ∃ pieces, S.Yields body pieces rest ∧ data' = data ++ pieces.flatten
  | _ => True

theorem Measured.Has.after {minSize : Nat} {data bytes : Bytes} {body next : S.Body}
    {s : S.State} (hv : (S.pull body s).value = .frame (.data bytes) next)
    {x : Measured S.Body} (h : x.Has S minSize (data ++ bytes) next) :
    x.Has S minSize data body := by
  have hflatten : ∀ pieces : List Bytes,
      data ++ bytes ++ pieces.flatten = data ++ (bytes :: pieces).flatten := by
    intro pieces
    rw [List.flatten_cons, List.append_assoc]
  cases x with
  | pending data' rest =>
    obtain ⟨pieces, hyields, rfl⟩ := h
    exact ⟨_, .data s hv hyields, hflatten pieces⟩
  | enough data' rest =>
    obtain ⟨henough, pieces, hyields, rfl⟩ := h
    exact ⟨henough, _, .data s hv hyields, hflatten pieces⟩
  | short data' trailers => trivial
  | failed f => trivial

theorem measure_has (minSize fuel : Nat) (data : Bytes) (body : S.Body) (s : S.State) :
    (measure S minSize fuel data body s).value.Has S minSize data body := by
  induction fuel generalizing data body s with
  | zero => exact ⟨[], .refl body, (List.append_nil data).symm⟩
  | succ fuel ih =>
    by_cases henough : minSize ≤ data.length
    · simp only [measure, if_pos henough]
      exact ⟨henough, [], .refl body, (List.append_nil data).symm⟩
    · simp only [measure, if_neg henough]
      cases hv : (S.pull body s).value with
      | pending rest => exact ⟨[], .wait s hv (.refl rest), (List.append_nil data).symm⟩
      | frame f rest =>
        cases f with
        | data bytes => exact (ih (data ++ bytes) rest _).after hv
        | trailers fields => trivial
      | failed f rest => trivial
      | ended rest => trivial

/-- An encoded body that begins with what was read of another one when it was measured. -/
def Begins (c : Codec) (S : Service π) (o : CompressorOptions) (b : S.Body)
    (e : Encoded c.Encoder S.Body) : Prop :=
  ∃ level pieces source, S.Yields b pieces source ∧ o.minSize ≤ pieces.flatten.length ∧
    e = Encoded.start c S level pieces.flatten source

/-- If the answer is encoded, then so from this response. -/
def Encodes (c : Codec) (S : Service π) (o : CompressorOptions) (head : Head) (b : S.Body)
    (a : Answer (Body c.Encoder S.Body)) : Prop :=
  ∀ head' e, a = .ok ⟨head', .encoded e⟩ →
    eligible head = true ∧ head' = encodedHead head ∧ Begins c S o b e

/-- The call measures a body and has read this much of it. -/
def HasRead (S : Service π) (head : Head) (b : S.Body) (call : Call S.Call S.Body) : Prop :=
  ∃ pieces rest, call = .measuring head pieces.flatten rest ∧ S.Yields b pieces rest

theorem decide_encodes {head : Head} (heligible : eligible head = true) {b rest : S.Body}
    {pieces : List Bytes} (hyields : S.Yields b pieces rest) (s : State S) :
    (decide c S o head pieces.flatten rest s).value.Meets True (HasRead S head b)
      (Encodes c S o head b) := by
  have hhas := measure_has o.minSize (S.size rest + 2) pieces.flatten rest s.inner
  unfold decide
  dsimp only
  cases hv : (measure S o.minSize (S.size rest + 2) pieces.flatten rest s.inner).value with
  | pending data' last =>
    rw [hv] at hhas
    obtain ⟨more, hmore, rfl⟩ := hhas
    exact ⟨trivial, pieces ++ more, last, by rw [List.flatten_append], hyields.trans hmore⟩
  | failed f => exact fun head' e h => by cases h
  | short data' trailers => exact fun head' e h => by cases h
  | enough data' last =>
    rw [hv] at hhas
    obtain ⟨henough, more, hmore, rfl⟩ := hhas
    intro head' e h
    cases h
    rw [← List.flatten_append] at henough ⊢
    exact ⟨heligible, rfl, _, _, last, hyields.trans hmore, henough, rfl⟩

theorem answers_encodes {head : Head} (heligible : eligible head = true) {b : S.Body}
    {call : Call S.Call S.Body} (h : HasRead S head b call) :
    (service c S o).Answers True call (Encodes c S o head b) := by
  refine ⟨HasRead S head b, h, ?_⟩
  rintro _ now s ⟨pieces, rest, rfl, hyields⟩
  exact decide_encodes heligible hyields s

/-- **What is encoded is an eligible response that was asked for so.** -/
theorem account_encoded {a : Account (service c S o)} {head' : Head}
    {e : Encoded c.Encoder S.Body} (h : a.progress = .done (.ok ⟨head', .encoded e⟩)) :
    o.enabled = true ∧ Http.acceptsGzip a.request.headers = true ∧
      ∃ head b, (a.within (S := S) Layered.inner).progress = .done (.ok ⟨head, b⟩) ∧
        eligible head = true ∧ head' = encodedHead head ∧ Begins c S o b e := by
  obtain ⟨henabled, haccepts⟩ := asked_of_encoded h
  refine ⟨henabled, haccepts, ?_⟩
  have hcourse : (service c S o).course
      (.negotiated (S.start a.now a.request a.payload a.state.inner).value) a.moments =
        .done (.ok ⟨head', .encoded e⟩) := by
    rw [← start_negotiated (c := c) (s := a.state) henabled haccepts]
    exact h
  obtain ⟨answer, hinner⟩ := Service.answered_inside awaits_negotiated hcourse
  cases answer with
  | error f =>
    have hpoll (now : Instant) (call : S.Call) (s : State S)
        (hdone : (S.poll now call s.inner).value = .done (.error f)) :
        (poll c S o now (.negotiated call) s).value = .done (.error f) := by
      simp only [poll, hdone]
    have hfails := Service.course_answered (awaits_negotiated (c := c) (o := o))
      hpoll hinner
    rw [hcourse] at hfails
    cases hfails
  | ok response =>
    obtain ⟨head, b⟩ := response
    have hmeets := Service.course_after True (Encodes c S o head b)
      (awaits_negotiated (c := c) (o := o)) ?_ hinner
    · rw [hcourse] at hmeets
      exact ⟨head, b, hinner, hmeets head' e rfl⟩
    · intro now call s hdone
      show (poll c S o now (.negotiated call) s).value.Meets _ _ _
      simp only [poll, hdone]
      split
      · next heligible =>
        have hdecide := decide_encodes (c := c) (o := o) heligible (.refl b)
          ⟨s.own, (S.poll now call s.inner).state⟩
        exact hdecide.mono (fun _ hread => answers_encodes heligible hread) fun _ hJ => hJ
      · exact fun head' e h => by cases h

/-! ### Perusals of encoded bodies -/

theorem pull_encoded (e : Encoded c.Encoder S.Body) (s : State S) :
    (pull c S o (.encoded e) s).value = (Encoded.pull c S e s.inner).value.1.map Body.encoded := by
  simp only [pull]
  split <;> rfl

/-- The member is complete: its stream was finished, and all of it was given. -/
def Completed (q : Perusal (Body c.Encoder S.Body)) : Prop :=
  ∃ e, q.rest = .encoded e ∧ Encoded.Completes q.given e

/-- What is told of an encoded body that is asked once more. -/
theorem asked_encoded {q : Perusal (service c S o).Body} {e : Encoded c.Encoder S.Body}
    (hrest : q.rest = .encoded e) (s : State S) :
    let p := (Encoded.pull c S e s.inner).value.1
    let q' := q.asked ((service c S o).pull q.rest s).value
    q'.given = q.given ++ [p.given] ∧ q'.rest = .encoded (restOf p) := by
  have hpull : ((service c S o).pull q.rest s).value =
      (Encoded.pull c S e s.inner).value.1.map Body.encoded := by
    rw [hrest]
    exact pull_encoded e s
  constructor
  · exact congrArg (fun p => q.given ++ [p])
      ((congrArg Pull.given hpull).trans (Pull.given_map _ _))
  · exact (congrArg restOf hpull).trans (restOf_map _ _)

theorem tale_of_begun {level : Nat} {first : Bytes} {source : S.Body}
    {q : Perusal (service c S o).Body} (h : q.Of (service c S o))
    (hbody : q.body = .encoded (Encoded.start c S level first source)) :
    ∃ e, q.rest = .encoded e ∧ Encoded.Tale c S level first source q.given e := by
  induction h with
  | begun body => exact ⟨_, hbody, .opening⟩
  | @asked q s h ih =>
    obtain ⟨e, hrest, htale⟩ := ih hbody
    obtain ⟨hgiven', hrest'⟩ := asked_encoded (o := o) hrest s
    refine ⟨_, hrest', ?_⟩
    rw [hgiven']
    exact (htale.pull s.inner).1

theorem restOf_relayed {q : Perusal (service c S o).Body} {b : Relayed S.Body}
    (hrest : q.rest = .relayed b) (s : State S) :
    restOf ((service c S o).pull q.rest s).value =
      Body.relayed (restOf (Relayed.pull S b s).value) := by
  rw [hrest]
  exact restOf_map _ _

/-- A body that is not encoded stays so. -/
theorem relayed_of_begun {b : Relayed S.Body} {q : Perusal (service c S o).Body}
    (h : q.Of (service c S o)) (hbody : q.body = .relayed b) : ∃ b', q.rest = .relayed b' := by
  induction h with
  | begun body => exact ⟨b, hbody⟩
  | @asked q s h ih =>
    obtain ⟨b', hrest⟩ := ih hbody
    exact ⟨_, restOf_relayed hrest s⟩

end Compressed

/-! ### Encoded bodies of a run -/

namespace Compressed

variable {η : Type} {P : Pipeline π η} {o : CompressorOptions}
  {t : (P.compressed c o).Callers} {as : (P.compressed c o).Accounts}
  {qs : (P.compressed c o).Perusals} {n : Nat}

/-- How a body that is encoded came about, and how far it has got. -/
structure Telling (c : Codec) (P : Pipeline π η) (o : CompressorOptions)
    (a : Account (service c P.toService o)) (q : Perusal (Body c.Encoder P.Body)) (head : Head)
    (b : P.Body) (level : Nat) (pieces : List Bytes) (source : P.Body)
    (e : Encoded c.Encoder P.Body) : Prop where
  asked : o.enabled = true ∧ Http.acceptsGzip a.request.headers = true
  inner : (a.within (S := P.toService) Layered.inner).progress = .done (.ok ⟨head, b⟩)
  eligible : eligible head = true
  answer : a.progress = .done (.ok ⟨encodedHead head, q.body⟩)
  read : P.Yields b pieces source
  enough : o.minSize ≤ pieces.flatten.length
  rest : q.rest = .encoded e
  tale : Encoded.Tale c P.toService level pieces.flatten source q.given e

/-- **A body that is encoded has been read from a response of the service inside.** -/
theorem telling_of (h : Pipeline.Perused as qs t) {q : Perusal (Body c.Encoder P.Body)}
    (hq : qs n = some q) {e : Encoded c.Encoder P.Body} (hrest : q.rest = .encoded e) :
    ∃ a, as[n]? = some (some a) ∧ ∃ head b level pieces source,
      Telling c P o a q head b level pieces source e := by
  obtain ⟨hof, a, head', ha, hdone⟩ := h.told n q hq
  refine ⟨a, ha, ?_⟩
  cases hbody : q.body with
  | relayed b =>
    obtain ⟨b', hrelayed⟩ := relayed_of_begun hof hbody
    rw [hrest] at hrelayed
    cases hrelayed
  | encoded e₀ =>
    have hencoded := hdone
    rw [hbody] at hencoded
    obtain ⟨henabled, haccepts, head, b, hinner, heligible, rfl, level, pieces, source, hread,
      henough, rfl⟩ := account_encoded hencoded
    obtain ⟨e', hrest', htale⟩ := tale_of_begun hof hbody
    rw [hrest] at hrest'
    cases hrest'
    exact ⟨head, b, level, pieces, source, ⟨henabled, haccepts⟩, hinner, heligible, hdone, hread,
      henough, hrest, htale⟩

end Compressed

end Floodgate
