/-
  Floodgate/Proofs/Compression/Response.lean
  ==========================================
  **What compression makes of a response**, to a request that accepts gzip.  The body may
  come in any pieces, empty ones too, and with trailers or without.  Only all the data
  together counts: with enough of it the answer is one gzip member that decodes to the
  data, with the trailers after it, and otherwise the response is what it was
  (`response_whole`).  A compressor that is turned off leaves every response as it is.

  Nothing is assumed of the codec but that what it writes is read back.
-/
import Floodgate.Proofs.Compression.Framing
import Floodgate.Proofs.Gzip.Stored
import Floodgate.Session.Handler

namespace Floodgate

open Gzip (Codec)
open Http (Bytes Frame Head Headers Request)

/-- The bytes are a gzip member of the data: the header, a deflate stream that is read back
    to the data, the checksum of the data and its length. -/
def Gzip.IsMember (inflate : Bytes → Option Bytes) (bytes data : Bytes) : Prop :=
  ∃ stream, bytes = Gzip.header ++ stream ++ Gzip.ending data ∧ inflate stream = some data

/-- A codec whose streams are read back to what was written, in whatever pieces. -/
def Gzip.Codec.ReadBack (c : Codec) (inflate : Bytes → Option Bytes) : Prop :=
  ∀ level pieces, inflate (c.encode level pieces) = some pieces.flatten

theorem Gzip.Codec.ReadBack.member {c : Codec} {inflate : Bytes → Option Bytes}
    (h : c.ReadBack inflate) (level : Nat) (pieces : List Bytes) :
    IsMember inflate (c.member level pieces) pieces.flatten :=
  ⟨c.encode level pieces, rfl, h level pieces⟩

/-! ### A handler that gives pieces -/

namespace Handler

/-- A body of the handler that gives these pieces of data and then these trailers. -/
def inPieces (data : List Bytes) (trailers : Option Headers) : ScriptedBody :=
  .items ((data.map fun bytes => .frame (.data bytes)) ++
    trailers.toList.map fun fields => .frame (.trailers fields))

theorem gives_inPieces (waits : Prop) (data : List Bytes) (trailers : Option Headers) :
    service.Gives waits (inPieces data trailers) ⟨data, .ok trailers⟩ := by
  refine ⟨fun b x => ∃ data trailers, b = inPieces data trailers ∧ x = ⟨data, .ok trailers⟩,
    ⟨data, trailers, rfl, rfl⟩, ?_⟩
  rintro _ _ s ⟨data, trailers, rfl, rfl⟩
  cases data with
  | nil =>
    cases trailers with
    | none => exact ⟨rfl, [], none, rfl, rfl⟩
    | some fields => exact ⟨rfl, [], none, rfl, rfl⟩
  | cons bytes data => exact ⟨data, rfl, data, trailers, rfl, rfl⟩

end Handler

/-! ### Responses -/

namespace Compressed

variable {π : Type} {c : Codec} {S : Service π} {o : CompressorOptions} {waits : Prop}

/-- The head and the data of the answer, where the response has the other head and this
    data. -/
def Turns (inflate : Bytes → Option Bytes) (o : CompressorOptions) (head : Head) (data : Bytes)
    (head' : Head) (data' : Bytes) : Prop :=
  if o.enabled = true ∧ o.minSize ≤ data.length then
    Announces head head' ∧ Gzip.IsMember inflate data' data
  else head' = head ∧ data' = data

/-- A response whose data is `data` and which ends with these trailers, turned so. -/
def Whole (c : Codec) (S : Service π) (o : CompressorOptions) (waits : Prop)
    (inflate : Bytes → Option Bytes) (head : Head) (data : Bytes) (trailers : Option Headers)
    (a : Answer (Body c.Encoder S.Body)) : Prop :=
  ∃ head' pieces, (service c S o).Responds waits head' ⟨pieces, .ok trailers⟩ a ∧
    Turns inflate o head data head' pieces.flatten

/-- A body that is passed on gives what it gives inside. -/
theorem gives_passed {b : S.Body} {x : Script} (h : S.Gives waits b x) :
    (service c S o).Gives waits (.relayed (.passed b)) x := by
  let wrap : S.Body → Body c.Encoder S.Body := fun b => .relayed (.passed b)
  have hpull : ∀ b s, ((service c S o).pull (wrap b) s).value =
      (S.pull b s.inner).value.map wrap := by
    intro b s
    show (((S.pull b s.inner).value.map Relayed.passed).map Body.relayed) = _
    cases (S.pull b s.inner).value <;> rfl
  exact h.passed hpull

theorem whole_of_delivers {inflate : Bytes → Option Bytes} (hcodec : c.ReadBack inflate)
    (henabled : o.enabled = true) {head : Head} {data : Bytes} {trailers : Option Headers}
    {a : Answer (Body c.Encoder S.Body)} (h : Delivers c S o waits head data (.ok trailers) a) :
    Whole c S o waits inflate head data trailers a := by
  unfold Delivers at h
  by_cases hlong : o.minSize ≤ data.length
  · rw [if_pos hlong] at h
    obtain ⟨body, level, first, rest, rfl, hdata, hbody⟩ := h
    have hmember := hcodec.member level (Gzip.filled (first :: rest))
    rw [← flatten_memberScript c level first rest trailers, Gzip.flatten_filled,
      List.flatten_cons, hdata] at hmember
    refine ⟨encodedHead head, _, ⟨_, rfl, hbody⟩, ?_⟩
    rw [Turns, if_pos ⟨henabled, hlong⟩]
    exact ⟨announces_encodedHead head, hmember⟩
  · rw [if_neg hlong] at h
    refine ⟨head, _, h, ?_⟩
    rw [Turns, if_neg fun hboth => hlong hboth.2]
    exact ⟨rfl, Http.Replay.flatten_script ⟨data, trailers⟩⟩

/-- **Compression does not see the framing.**  The response to a request that accepts gzip
    is encoded if and only if the compressor is turned on and all the data together is
    long enough; the member then decodes to exactly that data, and the trailers come after
    it.  Otherwise head, data and trailers stay as they are.

    The request is polled at any moments, in whatever states; as soon as the response is
    there the call has answered, unless the body keeps it waiting. -/
theorem response_whole (c : Codec) (S : Service π) (o : CompressorOptions) (waits : Prop)
    (inflate : Bytes → Option Bytes) (hcodec : c.ReadBack inflate)
    (now : Instant) (r : Request) (p : π) (s : (service c S o).State)
    (haccepts : Http.acceptsGzip r.headers = true)
    (moments : List (Instant × (service c S o).State)) (head : Head)
    (heligible : eligible head = true) (body : S.Body) (data : List Bytes)
    (trailers : Option Headers) (hbody : S.Gives waits body ⟨data, .ok trailers⟩)
    (hinner : S.course (S.start now r p s.inner).value (inside Layered.inner moments) =
      .done (.ok ⟨head, body⟩)) :
    ((service c S o).course ((service c S o).start now r p s).value moments).Meets waits
      (fun _ => True) (Whole c S o waits inflate head data.flatten trailers) := by
  by_cases henabled : o.enabled = true
  · rw [start_negotiated henabled haccepts]
    have hmeets := negotiated_delivers (c := c) (o := o) heligible hbody hinner
    exact hmeets.mono (fun _ h => h) fun a ha => whole_of_delivers hcodec henabled ha
  · have hoff : (o.enabled && Http.acceptsGzip r.headers) = false := by
      rw [Bool.eq_false_iff.mpr henabled, Bool.false_and]
    rw [start_passed hoff, passed_responds hinner]
    refine ⟨head, data, ⟨_, rfl, gives_passed hbody⟩, ?_⟩
    rw [Turns, if_neg fun hboth => henabled hboth.1]
    exact ⟨rfl, rfl⟩

/-- Data in three pieces, one of them empty, is encoded as one, before its trailers. -/
theorem pieces_become_member :
    let o : CompressorOptions := ⟨true, 4, 0, ⟨"compressor", []⟩⟩
    let head : Head := ⟨200, "HTTP/1.1", [], none⟩
    let r : Request := ⟨"GET", ⟨"/", none⟩, [⟨"accept-encoding", Http.utf8 "gzip"⟩], none, none⟩
    let reply : ScriptedAnswer := .ok ⟨head, Handler.inPieces [[1, 2], [], [3, 4]] (some [])⟩
    let Q := service Gzip.storing Handler.service o
    let s : Q.State := ⟨⟨.new 0 1, .zero⟩, .fresh⟩
    ∃ head' body pieces,
      Q.course (Q.start 0 r ⟨"a", some reply⟩ s).value [(0, s)] = .done (.ok ⟨head', body⟩) ∧
      Q.Gives False body ⟨pieces, .ok (some [])⟩ ∧ Announces head head' ∧
      Gzip.IsMember Gzip.inflated? pieces.flatten [1, 2, 3, 4] := by
  intro o head r reply Q s
  have hwhole := response_whole Gzip.storing Handler.service o False Gzip.inflated?
    Gzip.storing_decodes 0 r ⟨"a", some reply⟩ s (by decide +kernel) [(0, s)] head
    (by decide +kernel) _ [[1, 2], [], [3, 4]] (some []) (Handler.gives_inPieces _ _ _) rfl
  cases hcourse : Q.course (Q.start 0 r ⟨"a", some reply⟩ s).value [(0, s)] with
  | pending call =>
    rw [hcourse] at hwhole
    exact hwhole.1.elim
  | done answer =>
    rw [hcourse] at hwhole
    obtain ⟨head', pieces, ⟨body, rfl, hbody⟩, hannounces, hmember⟩ := hwhole
    exact ⟨head', body, pieces, rfl, hbody, hannounces, hmember⟩

/-- With the compressor turned off the same data is not encoded. -/
theorem turned_off_stays_plain :
    let o : CompressorOptions := ⟨false, 4, 0, ⟨"compressor", []⟩⟩
    let head : Head := ⟨200, "HTTP/1.1", [], none⟩
    let r : Request := ⟨"GET", ⟨"/", none⟩, [⟨"accept-encoding", Http.utf8 "gzip"⟩], none, none⟩
    let data : List Bytes := [[1, 2], [], [3, 4]]
    let reply : ScriptedAnswer := .ok ⟨head, Handler.inPieces data (some [])⟩
    let Q := service Gzip.storing Handler.service o
    let s : Q.State := ⟨⟨.new 0 1, .zero⟩, .fresh⟩
    Http.acceptsGzip r.headers = true ∧ eligible head = true ∧ o.minSize ≤ data.flatten.length ∧
      Handler.service.Gives False (Handler.inPieces data (some [])) ⟨data, .ok (some [])⟩ ∧
      ∃ response,
        Q.course (Q.start 0 r ⟨"a", some reply⟩ s).value [(0, s)] = .done (.ok response) ∧
        response.head.headers.values "content-encoding" = [] := by
  intro o head r data reply Q s
  refine ⟨by decide +kernel, by decide +kernel, by decide, Handler.gives_inPieces _ _ _, ?_⟩
  exact ⟨_, rfl, by decide +kernel⟩

end Compressed

end Floodgate
