/-
  Floodgate/Proofs/Coalescing/Transparency.lean
  =============================================
  **What a caller sees of a response that was captured.**  A request that finds nobody at
  work on the same thing executes, and its caller gets the response as it was captured,
  whether or not others come to share it.  Captured are the status, the version, the
  headers and all the data, in one piece.  Trailers are not: a coalescer that is turned
  on keeps them from its callers, one that is turned off passes them on (`lone_request`).
-/
import Floodgate.Pipeline.Build
import Floodgate.Proofs.Coalescing.Delivery
import Floodgate.Proofs.Compression.Response

namespace Floodgate

open Http (Bytes Head Headers Replay Request Status)

/-! ### What is seen of a response -/

/-- What a client gets to see of a response. -/
structure Sight where
  status : Status
  version : String
  headers : Headers
  /-- All data together, in however many pieces it comes. -/
  data : Bytes
  trailers : Option Headers
deriving DecidableEq, Repr

/-- What is seen of a response with this head, pieces of data and trailers. -/
def Http.Head.sight (head : Head) (pieces : List Bytes) (trailers : Option Headers) : Sight :=
  ⟨head.status, head.version, head.headers, pieces.flatten, trailers⟩

/-- The answer is a response of which a client gets to see this. -/
def Service.Presents {π : Type} (S : Service π) (waits : Prop) (x : Sight)
    (a : Answer S.Body) : Prop :=
  ∃ head pieces trailers, S.Responds waits head ⟨pieces, .ok trailers⟩ a ∧
    head.sight pieces trailers = x

namespace Coalesced

variable {π K : Type} [DecidableEq K] {S : Service π} {o : CoalescerOptions K} {waits : Prop}

/-! ### Responses that were captured -/

/-- A body held in memory gives its data and its trailers and nothing else. -/
theorem script_of_gives_own {r : Replay} {x : Script} (s : State K S)
    (h : (service o S).Gives waits (.own r) x) :
    x.data.flatten = r.data ∧ x.ending = .ok r.trailers := by
  have hempty : ∀ (trailers : Option Headers) (x : Script),
      (service o S).Gives waits (.own ⟨[], trailers⟩) x → x = ⟨[], .ok trailers⟩ := by
    intro trailers x h
    have hpull := h.pull s
    cases trailers with
    | none => exact hpull.1
    | some fields => exact hpull.1
  obtain ⟨data, trailers⟩ := r
  cases data with
  | nil =>
    cases hempty trailers x h
    exact ⟨rfl, rfl⟩
  | cons b data =>
    obtain ⟨pieces, hpieces, hrest⟩ := h.pull s
    have hnothing := hempty trailers _ hrest
    injection hnothing with hnil hending
    rw [hpieces, hnil]
    exact ⟨List.append_nil _, hending⟩

/-- Of a captured response all is seen that was captured, and no trailers. -/
theorem presents_copied_iff (s : State K S) (head : Head) (pieces : List Bytes) (x : Sight) :
    (service o S).Presents waits x (copied head pieces.flatten) ↔ x = head.sight pieces none := by
  constructor
  · rintro ⟨head', pieces', trailers', ⟨b, hanswer, hb⟩, rfl⟩
    cases Except.ok.inj hanswer
    obtain ⟨hdata, htrailers⟩ := script_of_gives_own s hb
    have hnone : trailers' = none := Except.ok.inj htrailers
    rw [Head.sight, hdata, hnone]
    rfl
  · rintro rfl
    refine ⟨_, _, _, ⟨_, rfl, gives_own (.ofBytes pieces.flatten)⟩, ?_⟩
    exact congrArg (Sight.mk head.status head.version head.headers · none)
      (Replay.flatten_script (.ofBytes pieces.flatten))

variable {r : Request} {key : K} {s : State K S} {now : Instant} {p : π} {head : Head}
  {body : S.Body} {pieces : List Bytes} {trailers : Option Headers}
  {moments : List (Instant × State K S)}

/-- **A caller that leads sees what was captured.** -/
theorem leader_presents (hkey : o.key? r = some key) (hfree : s.own.current? key = none)
    (hbody : S.Gives waits body ⟨pieces, .ok trailers⟩)
    (hinner : S.course (S.start now r p s.inner).value (inside Layered.inner moments) =
      .done (.ok ⟨head, body⟩)) :
    ((service o S).course ((service o S).start now r p s).value moments).Meets waits
      (fun _ => True)
      (fun a => ∀ x, (service o S).Presents waits x a ↔ x = head.sight pieces none) := by
  have hstart : ((service o S).start now r p s).value =
      .leading key (S.start now r p s.inner).value := (start_leading hkey hfree now p).1
  rw [hstart]
  have hcopies := leading_copies (o := o) key hbody hinner
  refine hcopies.mono (fun _ h => h) ?_
  rintro _ rfl x
  exact presents_copied_iff s head pieces x

/-- A caller whose request is passed on sees the response of the inner service. -/
theorem passed_presents (hkey : o.key? r = none) (hbody : S.Gives waits body ⟨pieces, .ok trailers⟩)
    (hinner : S.course (S.start now r p s.inner).value (inside Layered.inner moments) =
      .done (.ok ⟨head, body⟩)) :
    ∃ a, (service o S).course ((service o S).start now r p s).value moments = .done a ∧
      (service o S).Presents waits (head.sight pieces trailers) a := by
  have hstart : ((service o S).start now r p s).value = .passed (S.start now r p s.inner).value :=
    (start_passed hkey now p s).1
  rw [hstart]
  refine ⟨.ok ⟨head, .passed body⟩, passed_course rfl hinner, ?_⟩
  exact ⟨head, pieces, trailers, ⟨.passed body, rfl, gives_passed hbody⟩, rfl⟩

end Coalesced

/-! ### Coalescers turned on and off -/

/-- A request that only reads has a key, whatever the rule. -/
theorem CoalescingRule.key_of_reads (rule : CoalescingRule) {r : Request}
    (h : Signature.reads r.method = true) : ∃ key, rule.key r = some key := by
  cases rule with
  | signature =>
    unfold CoalescingRule.key Signature.ofRequest
    rw [if_pos h]
    exact ⟨_, rfl⟩
  | path => exact ⟨_, rfl⟩

namespace Coalesced

/-- **What becomes of a single request.**  Where nobody is at work on the same thing, a request
    that only reads is answered alike by a coalescer that is turned on and by one that is
    turned off, but for the trailers of the response: the one never shows any, the other
    shows those that the inner service gave.

    Both are polled at any moments, in whatever states; as soon as the response is there the
    call has answered, unless a coalescer that is turned on waits for the body. -/
theorem lone_request {π : Type} (S : Service π) (spec : CoalescerSpec) (waits : Prop)
    (r : Request) (hreads : Signature.reads r.method = true) (p : π)
    (now now' : Instant) (s s' : State CoalescingKey S)
    (hfree : ∀ key, spec.rule.key r = some key → s.own.current? key = none)
    (moments moments' : List (Instant × State CoalescingKey S)) (head : Head) (body : S.Body)
    (pieces : List Bytes) (trailers : Option Headers)
    (hbody : S.Gives waits body ⟨pieces, .ok trailers⟩)
    (hinner : S.course (S.start now r p s.inner).value (inside Layered.inner moments) =
      .done (.ok ⟨head, body⟩))
    (hinner' : S.course (S.start now' r p s'.inner).value (inside Layered.inner moments') =
      .done (.ok ⟨head, body⟩)) :
    let turnedOn := service ({ spec with enabled := true } : CoalescerSpec).options S
    let turnedOff := service ({ spec with enabled := false } : CoalescerSpec).options S
    (turnedOn.course (turnedOn.start now r p s).value moments).Meets waits (fun _ => True)
        (fun a => ∀ x, turnedOn.Presents waits x a ↔ x = head.sight pieces none) ∧
      ∃ a, turnedOff.course (turnedOff.start now' r p s').value moments' = .done a ∧
        turnedOff.Presents waits (head.sight pieces trailers) a := by
  intro turnedOn turnedOff
  obtain ⟨key, hkey⟩ := spec.rule.key_of_reads hreads
  constructor
  · exact leader_presents (o := ({ spec with enabled := true } : CoalescerSpec).options) hkey
      (hfree key hkey) hbody hinner
  · exact passed_presents (o := ({ spec with enabled := false } : CoalescerSpec).options) rfl
      hbody hinner'

/-- Data in three pieces, one of them empty, is seen as one with the coalescer turned on. -/
theorem pieces_are_captured :
    let head : Head := ⟨203, "HTTP/2.0", [⟨"x-a", [49]⟩, ⟨"x-a", [50]⟩], none⟩
    let r : Request := ⟨"GET", ⟨"/", none⟩, [], none, none⟩
    let reply : ScriptedAnswer := .ok ⟨head, Handler.inPieces [[1, 2], [], [3]] none⟩
    let Q := service ({} : CoalescerSpec).options Handler.service
    let s : Q.State := ⟨.none, .fresh⟩
    ∃ a, Q.course (Q.start 0 r ⟨"a", some reply⟩ s).value [(0, s)] = .done a ∧
      Q.Presents False ⟨203, "HTTP/2.0", head.headers, [1, 2, 3], none⟩ a := by
  intro head r reply Q s
  have hlone : (Q.course (Q.start 0 r ⟨"a", some reply⟩ s).value [(0, s)]).Meets False
      (fun _ => True)
      (fun a => ∀ x, Q.Presents False x a ↔ x = head.sight [[1, 2], [], [3]] none) :=
    (lone_request Handler.service {} False r (by decide) ⟨"a", some reply⟩ 0 0 s s
      (fun _ _ => rfl) [(0, s)] [(0, s)] head _ [[1, 2], [], [3]] none
      (Handler.gives_inPieces _ _ _) rfl rfl).1
  cases hcourse : Q.course (Q.start 0 r ⟨"a", some reply⟩ s).value [(0, s)] with
  | pending call =>
    rw [hcourse] at hlone
    exact hlone.1.elim
  | done a =>
    rw [hcourse] at hlone
    exact ⟨a, rfl, (hlone _).mpr rfl⟩

/-- Trailers after the data are seen only with the coalescer turned off. -/
theorem trailers_are_not_captured :
    let fields : Headers := [⟨"x-t", [49]⟩]
    let r : Request := ⟨"GET", ⟨"/", none⟩, [], none, none⟩
    let reply : ScriptedAnswer :=
      .ok ⟨⟨200, "HTTP/1.1", [], none⟩, Handler.inPieces [[1, 2]] (some fields)⟩
    let turnedOn := service ({} : CoalescerSpec).options Handler.service
    let turnedOff := service ({ enabled := false } : CoalescerSpec).options Handler.service
    let s : turnedOn.State := ⟨.none, .fresh⟩
    (∃ a, turnedOn.course (turnedOn.start 0 r ⟨"a", some reply⟩ s).value [(0, s)] = .done a ∧
      ∀ x, turnedOn.Presents False x a ↔ x = ⟨200, "HTTP/1.1", [], [1, 2], none⟩) ∧
    ∃ a, turnedOff.course (turnedOff.start 0 r ⟨"a", some reply⟩ s).value [(0, s)] = .done a ∧
      turnedOff.Presents False ⟨200, "HTTP/1.1", [], [1, 2], some fields⟩ a := by
  intro fields r reply turnedOn turnedOff s
  constructor
  · refine ⟨copied ⟨200, "HTTP/1.1", [], none⟩ [[1, 2]].flatten, rfl, ?_⟩
    intro x
    exact presents_copied_iff s ⟨200, "HTTP/1.1", [], none⟩ [[1, 2]] x
  · refine ⟨_, rfl, ⟨200, "HTTP/1.1", [], none⟩, [[1, 2]], some fields, ?_, rfl⟩
    exact ⟨_, rfl, gives_passed (Handler.gives_inPieces False [[1, 2]] (some fields))⟩

end Coalesced

end Floodgate
