/-
  Floodgate/Proofs/Pipeline/Negotiation.lean
  ==========================================
  **Who gets gzip at the edge.**  Two stages look at what a request accepts, the
  coalescer for its key and the compressor for its encoding, and the compressor sees
  only the request of the leader.  As both go by the same question the answer is right
  for everyone who shares it: a caller is given an encoded body only if it accepts gzip
  (`edge_negotiates`).
-/
import Floodgate.Proofs.Coalescing.Delivery
import Floodgate.Proofs.Compression.Response
import Floodgate.Proofs.Pipeline.Edge
import Floodgate.Proofs.Pipeline.Shells
import Floodgate.Proofs.Traffic.Survey

namespace Floodgate

open Coalesced (Booking Manifest Serves)
open Http (Bytes Head Headers Request Response)

variable {π η : Type}

/-! ### The meter -/

namespace Metered

variable {S : Service π} {o : MeterOptions} {waits : Prop}

theorem gives {b : S.Body} {x : Script} (h : S.Gives waits b x) :
    (service o S).Gives waits b x := by
  let wrap : S.Body → (service o S).Body := id
  let within : (service o S).State → S.State := Layered.inner
  have hpull : ∀ b s, ((service o S).pull (wrap b) s).value = (S.pull b (within s)).value.map wrap :=
    fun b s => pull_map_id (S.pull b s.inner).value
  exact h.passed hpull

/-- The meter answers what it measures. -/
theorem course_eq {now : Instant} {r : Request} {p : π} {s : (service o S).State}
    {moments : List (Instant × (service o S).State)} {a : Answer S.Body}
    (hinner : S.course (S.start now r p s.inner).value (inside Layered.inner moments) = .done a) :
    (service o S).course ((service o S).start now r p s).value moments = .done a := by
  apply course_done_iff.mpr
  rw [show ((service o S).start now r p s).value.inner = _ from start_passes S now r p s]
  exact hinner

end Metered

/-! ### The edge and its coalescer -/

namespace Deployment

variable (c : Gzip.Codec) (e : EdgeSpec) (now : Instant) (d : Deployment π η)

/-- What there is to tell at the coalescer of the edge. -/
def edgeSurvey :
    Survey (d.edge c e now).pipeline ((e.source c d.pipeline).coalesced e.coalescer.options) :=
  (((Rendered.front _).survey (Rendered.clear _)).trans
    (((Limited.front e.limiter.options _).survey (Limited.clear _ _)).trans
      ((Guarded.front e.breaker.options _).survey (Guarded.clear _ _)) fun _ h => h)
    fun _ h => h).unseen _

/-- The calls of a run of the edge. -/
def edgeCalls (moves : List (Move π η)) : (d.edge c e now).pipeline.Accounts :=
  (d.edge c e now).pipeline.accounts ((d.edge c e now).opened now) moves []

/-- The calls of a run of the edge that have got to its coalescer, under the same numbers. -/
def edgeBookings (moves : List (Move π η)) :
    ((e.source c d.pipeline).coalesced e.coalescer.options).Accounts :=
  (d.edgeCalls c e now moves).map fun a => a.bind (d.edgeSurvey c e now).account

/-- The call `n` of the edge is answered by the execution of the call `m`. -/
structure AnsweredBy (moves : List (Move π η)) (n : Nat)
    (a : Account (d.edge c e now).pipeline.toService) (m : Nat)
    (x : Booking e.coalescer.options (e.source c d.pipeline)) : Prop where
  told : (d.edgeCalls c e now moves)[n]? = some (some a)
  serves : ∃ b, (d.edgeSurvey c e now).account a = some b ∧
    Serves (d.edgeBookings c e now moves) n b m x

end Deployment

/-- The call of the handler in an execution at the edge. -/
def EdgeSpec.handling {c : Gzip.Codec} {e : EdgeSpec} {P : Pipeline π η}
    (x : Booking e.coalescer.options (e.source c P)) : Account P.toService :=
  Account.within (S := P.toService) Layered.inner
    (Account.within (S := Metered.service e.meter.options P.toService) Layered.inner x.execution)

variable {c : Gzip.Codec} {e : EdgeSpec} {now : Instant} {d : Deployment π η}
  {moves : List (Move π η)} {n m : Nat} {a : Account (d.edge c e now).pipeline.toService}
  {x : Booking e.coalescer.options (e.source c d.pipeline)}

theorem edge_manifest (c : Gzip.Codec) (e : EdgeSpec) (now : Instant) (d : Deployment π η)
    (moves : List (Move π η)) : ∃ f, Manifest (d.edgeBookings c e now moves) f := by
  obtain ⟨inner, _, haccounts⟩ :=
    (d.edgeSurvey c e now).accounts_behind ((d.edge c e now).opened now) moves []
  obtain ⟨hmanifest, _⟩ := Coalesced.manifest_of_run e.coalescer.options (e.source c d.pipeline) now
    ((d.metered e.meter).compressed c e.compressor).state inner
  rw [show d.edgeBookings c e now moves = _ from haccounts]
  exact ⟨_, hmanifest⟩

theorem booked {b : Booking e.coalescer.options (e.source c d.pipeline)}
    (ha : (d.edgeCalls c e now moves)[n]? = some (some a))
    (hb : (d.edgeSurvey c e now).account a = some b) :
    (d.edgeBookings c e now moves)[n]? = some (some b) := by
  unfold Deployment.edgeBookings
  rw [List.getElem?_map, ha]
  exact congrArg some hb

theorem request_eq {b : Booking e.coalescer.options (e.source c d.pipeline)}
    (hb : (d.edgeSurvey c e now).account a = some b) : b.request = a.request := by
  obtain ⟨f, hf⟩ := (d.edgeSurvey c e now).within
  rw [hf a b hb]
  rfl

/-- **Who is answered at the edge is given a copy of the response of an execution**, unless the
    edge has made the answer itself. -/
theorem answered_by {r : Response (d.edge c e now).pipeline.Body}
    (ha : (d.edgeCalls c e now moves)[n]? = some (some a)) (hdone : a.progress = .done (.ok r)) :
    Rendered.Made (.ok r) ∨ ∃ m x r₀, d.AnsweredBy c e now moves n a m x ∧
      x.execution.progress = .done (.ok r₀) ∧
      Copies (Q := (d.edge c e now).pipeline.toService)
        (S := (e.source c d.pipeline).toService) r r₀ := by
  cases hb : (d.edgeSurvey c e now).account a with
  | none => exact .inl ((d.edgeSurvey c e now).keeps a _ hb hdone)
  | some b =>
    have hshows := (d.edgeSurvey c e now).shows a b hb
    rw [hdone] at hshows
    generalize hprogress : b.progress = y at hshows
    cases hshows with
    | failed _ f hmade => exact .inl hmade
    | answered r₁ =>
      obtain ⟨f, hm⟩ := edge_manifest c e now d moves
      rcases hm.served_by (booked ha hb) hprogress with ⟨m, x, hserves⟩ | hlost
      · have hx := hserves.same_answer hm (booked ha hb) hprogress
        obtain ⟨r₀, hr₀, hcopies⟩ := Booking.copies_execution hserves.executes hx
        refine .inr ⟨m, x, r₀, ⟨ha, b, hb, hserves⟩, hr₀, ?_⟩
        refine ⟨hcopies.status, hcopies.version, hcopies.headers, ?_⟩
        intro waits pieces trailers hgives
        obtain ⟨pieces', trailers', hgives', hsame⟩ := hcopies.data waits pieces trailers hgives
        exact ⟨pieces', trailers', (d.edgeSurvey c e now).gives waits _ _ hgives', hsame⟩
      · cases hlost

/-- The requests are identical as far as the edge is concerned. -/
structure Alike (r r' : Request) : Prop where
  reads : Signature.reads r.method = true
  method : r'.method = r.method
  path : r'.target.path = r.target.path
  query : r'.target.query = r.target.query
  gzip : Http.acceptsGzip r'.headers = Http.acceptsGzip r.headers

theorem signature_of_key {r : Request} {key : CoalescingKey}
    (h : e.coalescer.options.key? r = some key) :
    Signature.reads r.method = true ∧
      key = .signature ⟨r.method, r.target.path, r.target.query, Http.acceptsGzip r.headers⟩ := by
  unfold CoalescerOptions.key? at h
  split at h
  · have hkey : (Signature.ofRequest r).map CoalescingKey.signature = some key := h
    obtain ⟨signature, hsignature, rfl⟩ := Option.map_eq_some_iff.mp hkey
    unfold Signature.ofRequest at hsignature
    split at hsignature
    · next hreads =>
      cases hsignature
      exact ⟨hreads, rfl⟩
    · cases hsignature
  · cases h

theorem alike_of_key {r r' : Request} {key : CoalescingKey}
    (h : e.coalescer.options.key? r = some key) (h' : e.coalescer.options.key? r' = some key) :
    Alike r r' := by
  obtain ⟨hreads, hkey⟩ := signature_of_key h
  obtain ⟨_, hkey'⟩ := signature_of_key h'
  rw [hkey] at hkey'
  injection hkey' with hsignature
  injection hsignature with hmethod hpath hquery hgzip
  exact ⟨hreads, hmethod.symm, hpath.symm, hquery.symm, hgzip.symm⟩

/-- **What an execution makes of a response that the handler has given**, if the request that is
    executed accepts gzip. -/
theorem execution_delivers (henabled : e.settings.compression.enabled = true)
    (haccepts : Http.acceptsGzip x.request.headers = true) {waits : Prop} {head : Head}
    {body : d.pipeline.Body} {y : Script} (heligible : Compressed.eligible head = true)
    (hbody : d.pipeline.Gives waits body y)
    (hhandled : (EdgeSpec.handling x).progress = .done (.ok ⟨head, body⟩))
    {a₀ : Answer (e.source c d.pipeline).Body} (hdone : x.execution.progress = .done a₀) :
    Compressed.Delivers c (d.metered e.meter).pipeline.toService e.compressor.options waits head
      y.data.flatten y.ending a₀ := by
  have hmetered := Metered.course_eq (o := e.meter.options) hhandled
  exact Compressed.asked_delivers (o := e.compressor.options) henabled haccepts heligible
    (Metered.gives (o := e.meter.options) hbody) hmetered hdone

namespace Deployment.AnsweredBy

variable (h : d.AnsweredBy c e now moves n a m x)

include h

/-- Executions are shared only by requests that are alike. -/
theorem alike : (m = n ∧ x.request = a.request) ∨ Alike a.request x.request := by
  obtain ⟨b, hb, hserves⟩ := h.serves
  obtain ⟨f, hm⟩ := edge_manifest c e now d moves
  rw [← request_eq hb]
  rcases hserves.same_key hm (booked h.told hb) with ⟨hn, hx⟩ | ⟨key, hkey, hkey'⟩
  · exact .inl ⟨hn, congrArg Account.request hx⟩
  · exact .inr (alike_of_key hkey hkey')

theorem same_gzip : Http.acceptsGzip x.request.headers = Http.acceptsGzip a.request.headers := by
  rcases h.alike with ⟨_, hsame⟩ | halike
  · rw [hsame]
  · exact halike.gzip

/-- Whoever is given what the compressor has encoded has asked for it. -/
theorem asked {head : Head} {enc : Encoded c.Encoder (d.metered e.meter).pipeline.Body}
    (hencoded : x.execution.progress = .done (.ok ⟨head, .encoded enc⟩)) :
    e.settings.compression.enabled = true ∧ Http.acceptsGzip a.request.headers = true := by
  obtain ⟨henabled, haccepts⟩ := Compressed.asked_of_encoded
    (S := (d.metered e.meter).pipeline.toService) (o := e.compressor.options) hencoded
  refine ⟨henabled, ?_⟩
  rw [← h.same_gzip]
  exact haccepts

/-- Whoever has asked is given the response encoded, if there is enough of it. -/
theorem encoded (henabled : e.settings.compression.enabled = true)
    (haccepts : Http.acceptsGzip a.request.headers = true)
    {answer : Answer (d.edge c e now).pipeline.Body} (hdone : a.progress = .done answer)
    {waits : Prop} {head : Head} {body : d.pipeline.Body} {data : List Bytes}
    {trailers : Option Headers} (hhandled : (EdgeSpec.handling x).progress = .done (.ok ⟨head, body⟩))
    (heligible : Compressed.eligible head = true)
    (hbody : d.pipeline.Gives waits body ⟨data, .ok trailers⟩)
    (hlong : e.settings.compression.minSize ≤ data.flatten.length) :
    ∃ r pieces trailers' level parts, answer = .ok r ∧
      r.head.headers.values "content-encoding" = [Http.utf8 "gzip"] ∧
      (d.edge c e now).pipeline.Gives waits r.body ⟨pieces, .ok trailers'⟩ ∧
      pieces.flatten = c.member level parts ∧ parts.flatten = data.flatten := by
  obtain ⟨b, hb, hserves⟩ := h.serves
  obtain ⟨f, hm⟩ := edge_manifest c e now d moves
  -- the call at the coalescer has ended with the caller's
  have hshows := (d.edgeSurvey c e now).shows a b hb
  rw [hdone] at hshows
  obtain ⟨answer', hanswer'⟩ := hshows.ended
  have hx := hserves.same_answer hm (booked h.told hb) hanswer'
  obtain ⟨a₀, ha₀⟩ := Booking.executed hserves.executes hx
  have hdelivers := execution_delivers henabled (h.same_gzip.trans haccepts) heligible hbody
    hhandled ha₀
  have henough : e.compressor.options.minSize ≤
      (⟨data, .ok trailers⟩ : Script).data.flatten.length := hlong
  unfold Compressed.Delivers at hdelivers
  rw [if_pos henough] at hdelivers
  obtain ⟨enc, level, first, rest, rfl, hwhole, hgives⟩ := hdelivers
  -- so the execution has answered with a member, and the others have copies of it
  obtain ⟨r₁, rfl⟩ := Booking.answers_execution hserves.executes hx ha₀ hgives
  obtain ⟨r₀, hr₀, hcopies⟩ := Booking.copies_execution hserves.executes hx
  cases Except.ok.inj (Progress.done.inj (ha₀.symm.trans hr₀))
  obtain ⟨pieces, trailers', hgives', hsame⟩ := hcopies.data waits _ _ hgives
  rw [hanswer'] at hshows
  cases hshows with
  | answered _ =>
    refine ⟨_, pieces, trailers', level, Gzip.filled (first :: rest), rfl, ?_, ?_, ?_, ?_⟩
    · show r₁.head.headers.values "content-encoding" = _
      rw [hcopies.headers]
      exact (Compressed.announces_encodedHead head).encoding
    · exact (d.edgeSurvey c e now).gives waits _ _ hgives'
    · exact hsame.trans (Compressed.flatten_memberScript c level first rest trailers)
    · rw [Gzip.flatten_filled, List.flatten_cons, hwhole]

end Deployment.AnsweredBy

/-- **At the edge gzip is for those who accept it, whoever executes for them.**  Whoever is
    answered is given a copy of the response of an execution, unless the edge has made the
    answer itself.  What the compressor has encoded goes to those who accept gzip and to no
    others; they are given every response encoded that is eligible and long enough; and
    whoever waits for a leader shares its method, which only reads, its path and its query. -/
theorem edge_negotiates (c : Gzip.Codec) (e : EdgeSpec) (now : Instant) (d : Deployment π η)
    (moves : List (Move π η)) :
    let edge := (d.edge c e now).pipeline
    (∀ (n : Nat) (a : Account edge.toService) (r : Response edge.Body),
      (d.edgeCalls c e now moves)[n]? = some (some a) → a.progress = .done (.ok r) →
        Rendered.Made (.ok r) ∨ ∃ m x r₀, d.AnsweredBy c e now moves n a m x ∧
          x.execution.progress = .done (.ok r₀) ∧
          Copies (Q := edge.toService) (S := (e.source c d.pipeline).toService) r r₀) ∧
    ∀ (n : Nat) (a : Account edge.toService) (m : Nat)
      (x : Booking e.coalescer.options (e.source c d.pipeline)),
      d.AnsweredBy c e now moves n a m x →
        (∀ head enc, x.execution.progress = .done (.ok ⟨head, .encoded enc⟩) →
          e.settings.compression.enabled = true ∧
            Http.acceptsGzip a.request.headers = true) ∧
        (e.settings.compression.enabled = true → Http.acceptsGzip a.request.headers = true →
          ∀ answer waits head body data trailers, a.progress = .done answer →
            (EdgeSpec.handling x).progress = .done (.ok ⟨head, body⟩) →
            Compressed.eligible head = true →
            d.pipeline.Gives waits body ⟨data, .ok trailers⟩ →
            e.settings.compression.minSize ≤ data.flatten.length →
            ∃ r pieces trailers' level parts, answer = .ok r ∧
              r.head.headers.values "content-encoding" = [Http.utf8 "gzip"] ∧
              edge.Gives waits r.body ⟨pieces, .ok trailers'⟩ ∧
              pieces.flatten = c.member level parts ∧ parts.flatten = data.flatten) ∧
        (m ≠ n → Signature.reads a.request.method = true ∧
          x.request.method = a.request.method ∧
          x.request.target.path = a.request.target.path ∧
          x.request.target.query = a.request.target.query) := by
  intro edge
  refine ⟨?_, ?_⟩
  · intro n a r ha hdone
    exact answered_by ha hdone
  · intro n a m x h
    refine ⟨?_, ?_, ?_⟩
    · intro head enc hencoded
      exact h.asked hencoded
    · intro henabled haccepts answer waits head body data trailers hdone hhandled heligible hbody
        hlong
      exact h.encoded henabled haccepts hdone hhandled heligible hbody hlong
    · intro hother
      rcases h.alike with ⟨hsame, _⟩ | halike
      · exact absurd hsame hother
      · exact ⟨halike.reads, halike.method, halike.path, halike.query⟩

/-- One who waits for a leader is given what the compressor has made for both. -/
theorem waiter_is_given_gzip :
    let r : Request := ⟨"GET", ⟨"/", none⟩, [⟨"accept-encoding", Http.utf8 "gzip"⟩], none, none⟩
    let e : EdgeSpec :=
      { settings := { rate := { enabled := false }, compression := { minSize := 4, level := 0 } } }
    let d : Deployment Errand Handler := ⟨Handler.pipeline, .fresh, []⟩
    let head : Head := ⟨200, "HTTP/1.1", [], none⟩
    let reply : ScriptedAnswer := .ok ⟨head, Handler.inPieces [[1, 2], [], [3, 4]] none⟩
    let moves : List (Move Errand Handler) :=
      [.call r ⟨"a", some reply⟩, .call r ⟨"b", none⟩, .poll 0, .poll 1]
    ∃ a x response pieces trailers, d.AnsweredBy Gzip.storing e 0 moves 1 a 0 x ∧
      a.progress = .done (.ok response) ∧
      response.head.headers.values "content-encoding" = [Http.utf8 "gzip"] ∧
      (d.edge Gzip.storing e 0).pipeline.Gives False response.body ⟨pieces, .ok trailers⟩ ∧
      Gzip.IsMember Gzip.inflated? pieces.flatten [1, 2, 3, 4] := by
  intro r e d head reply moves
  let calls := d.edgeCalls Gzip.storing e 0 moves
  let bookings := d.edgeBookings Gzip.storing e 0 moves
  obtain ⟨a, ha⟩ : ∃ a, calls[1]? = some (some a) := ⟨_, rfl⟩
  obtain ⟨b, hb⟩ : ∃ b : Booking e.coalescer.options (e.source Gzip.storing d.pipeline),
    bookings[1]? = some (some b) := ⟨_, rfl⟩
  obtain ⟨x, hx⟩ : ∃ x : Booking e.coalescer.options (e.source Gzip.storing d.pipeline),
    bookings[0]? = some (some x) := ⟨_, rfl⟩
  have hbooked : (d.edgeSurvey Gzip.storing e 0).account a = some b := by
    have hmap : bookings[1]? = _ := List.getElem?_map ..
    rw [show (d.edgeCalls Gzip.storing e 0 moves)[1]? = _ from ha, hb] at hmap
    exact (Option.some.inj hmap).symm
  have hjoined : b.joined? = some x.flight := by
    have hsame : (bookings[1]?.bind id).bind Booking.joined? =
        (bookings[0]?.bind id).map Booking.flight := by decide +kernel
    rw [hb, hx] at hsame
    exact hsame
  have hkey : x.key? = some (.signature ⟨"GET", "/", none, true⟩) := by
    have hfirst : (bookings[0]?.bind id).bind Booking.key? =
      some (.signature ⟨"GET", "/", none, true⟩) := by decide +kernel
    rw [hx] at hfirst
    exact hfirst
  have hkept : x.dropped = false := by
    have hfirst : (bookings[0]?.bind id).map Account.dropped = some false := by decide +kernel
    rw [hx] at hfirst
    exact Option.some.inj hfirst
  have hserved : d.AnsweredBy Gzip.storing e 0 moves 1 a 0 x :=
    ⟨ha, b, hbooked, .shared 0 x _ hjoined ⟨hx, hkey⟩ hkept⟩
  have hrequest : a.request = r := by
    have hsecond : (calls[1]?.bind id).map Account.request = some r := rfl
    rw [ha] at hsecond
    exact Option.some.inj hsecond
  have hhandled : (EdgeSpec.handling x).progress =
      .done (.ok ⟨head, Handler.inPieces [[1, 2], [], [3, 4]] none⟩) := by
    have hfirst : (bookings[0]?.bind id).map (fun x => (EdgeSpec.handling x).progress) =
      some (.done (.ok ⟨head, Handler.inPieces [[1, 2], [], [3, 4]] none⟩)) := rfl
    rw [hx] at hfirst
    exact Option.some.inj hfirst
  have hdone : ∃ answer, a.progress = .done answer := by
    have hsecond : (calls[1]?.bind id).any (fun a => a.progress matches .done _) = true := by
      decide +kernel
    rw [ha] at hsecond
    cases hprogress : a.progress with
    | done answer => exact ⟨answer, rfl⟩
    | pending call => simp [hprogress] at hsecond
  obtain ⟨answer, hanswer⟩ := hdone
  obtain ⟨_, hencoded, _⟩ := (edge_negotiates Gzip.storing e 0 d moves).2 1 a 0 x hserved
  obtain ⟨response, pieces, trailers, level, parts, rfl, hencoding, hgives, hmember, hparts⟩ :=
    hencoded rfl (by rw [hrequest]; decide +kernel) answer False head _ [[1, 2], [], [3, 4]] none
      hanswer hhandled (by decide +kernel) (Handler.gives_inPieces _ _ _) (by decide)
  refine ⟨a, x, response, pieces, trailers, hserved, hanswer, hencoding, hgives, ?_⟩
  rw [hmember]
  have hread := Gzip.Codec.ReadBack.member Gzip.storing_decodes level parts
  rw [hparts] at hread
  exact hread

end Floodgate
