/-
  Floodgate/Proofs/Pipeline/Reach.lean
  ====================================
  **How far calls get at the edge.**  Every call of the edge gets to one of five places, and
  where it gets is settled when it is started: it is answered with a failure that was held,
  it is turned away by admission control or by the circuit, it joins a call under way, or it
  makes one call of the handler (`Reach`, `starts_cases`).

  Whoever is turned away is told so by the first poll, and leaves no trace behind the stage
  that did it: not when the call is made, and not when it is polled, read or given up later
  on (`Spares`).
-/
import Floodgate.Proofs.Pipeline.Negotiation
import Floodgate.Proofs.Pipeline.SharedFailure
import Floodgate.Proofs.Pipeline.Shells

namespace Floodgate

open Http (Request)

variable {π η : Type}

/-! ### Places -/

/-- How far a call gets at the edge. -/
inductive Reach where
  /-- Answered with a failure that was held. -/
  | held
  /-- Turned away by admission control. -/
  | limited
  /-- Turned away by the circuit. -/
  | refused
  /-- Waits for a call under way. -/
  | joined
  /-- Makes a call of the handler. -/
  | executed
deriving DecidableEq, Repr

/-- A call of the edge, through all stages that may answer it. -/
abbrev EdgeCall (K κ β : Type) :=
  Rendered.Call (Limited.Call (Guarded.Call (Coalesced.Call K κ β)))

section

variable {K κ β : Type}

def Coalesced.Call.reach : Coalesced.Call K κ β → Reach
  | .waiting _ => .joined
  | _ => .executed

def EdgeCall.reach : EdgeCall K κ β → Reach
  | .answered _ => .held
  | .passed (.rejected _) => .limited
  | .passed (.admitted .rejected) => .refused
  | .passed (.admitted (.passed call)) => call.reach
  | .passed (.admitted (.admitted _ call)) => call.reach

/-- The call at the coalescer, of a call that got there. -/
def EdgeCall.coalesced? (call : EdgeCall K κ β) : Option (Coalesced.Call K κ β) :=
  call.inner?.bind fun inner => inner.inner?.bind Guarded.Call.inner?

theorem EdgeCall.coalesced?_passed (g : Guarded.Call (Coalesced.Call K κ β)) :
    EdgeCall.coalesced? (.passed (.admitted g)) = g.inner? := rfl

theorem EdgeCall.reach_passed {g : Guarded.Call (Coalesced.Call K κ β)}
    {call : Coalesced.Call K κ β} (h : g.inner? = some call) :
    EdgeCall.reach (.passed (.admitted g)) = call.reach := by
  cases g with
  | passed inner =>
    cases h
    rfl
  | rejected => cases h
  | admitted generation inner =>
    cases h
    rfl

/-- Who gets to the coalescer is not turned away any more. -/
theorem EdgeCall.reach_passed_ne {g : Guarded.Call (Coalesced.Call K κ β)}
    {call : Coalesced.Call K κ β} (h : g.inner? = some call) :
    EdgeCall.reach (.passed (.admitted g)) ≠ .held ∧
      EdgeCall.reach (.passed (.admitted g)) ≠ .limited ∧
      EdgeCall.reach (.passed (.admitted g)) ≠ .refused := by
  rw [reach_passed h]
  cases call with
  | waiting flight => exact ⟨nofun, nofun, nofun⟩
  | _ => exact ⟨nofun, nofun, nofun⟩

end

/-! ### Starting a call -/

theorem Coalesced.reach_start {K : Type} [DecidableEq K] (o : CoalescerOptions K) (S : Service π)
    (now : Instant) (r : Request) (p : π) (s : State K S) :
    ((start o S now r p s).value.reach = .joined ∧ (start o S now r p s).value.inner? = none) ∨
    ((start o S now r p s).value.reach = .executed ∧
      (start o S now r p s).value.inner? = some (S.start now r p s.inner).value) := by
  unfold start
  split
  · exact .inr ⟨rfl, rfl⟩
  · dsimp only
    split
    · exact .inl ⟨rfl, rfl⟩
    · exact .inr ⟨rfl, rfl⟩

/-- Who executes makes a call behind compression. -/
theorem Coalesced.isSome_start {K : Type} [DecidableEq K] (o : CoalescerOptions K) (c : Gzip.Codec)
    (oc : CompressorOptions) (P : Pipeline π η) (now : Instant) (r : Request) (p : π)
    (s : ((P.compressed c oc).coalesced o).State) {κ : Type} (f : P.Call → κ) :
    let call := (start o (P.compressed c oc).toService now r p s).value
    ((call.inner?.bind Compressed.Call.inner?).bind fun inner => some (f inner)).isSome =
      (call.reach == .executed) := by
  intro call
  rcases reach_start o (P.compressed c oc).toService now r p s with
    ⟨hreach, hnone⟩ | ⟨hreach, hsome⟩
  · rw [hreach, hnone]
    rfl
  · have hinner := Compressed.start_passes oc now r p s.inner
    rw [hreach, hsome]
    show ((Compressed.start P.toService oc now r p s.inner).value.inner?.bind
      fun inner => some (f inner)).isSome = true
    rw [hinner]
    rfl

theorem Guarded.start_eq (o : BreakerOptions) (S : Service π) (now : Instant) (r : Request) (p : π)
    (s : Layered Circuit S.State) :
    ((start o S now r p s).value = .rejected ∧ (start o S now r p s).state.inner = s.inner) ∨
    (start o S now r p s).value.inner? = some (S.start now r p s.inner).value := by
  unfold start
  split
  · dsimp only
    split
    · exact .inr rfl
    · exact .inl ⟨rfl, rfl⟩
  · exact .inr rfl

theorem Limited.start_eq (o : LimiterOptions) (S : Service π) (now : Instant) (r : Request) (p : π)
    (s : Layered (Limiter Float) S.State) :
    (∃ wait, (start o S now r p s).value =
        .rejected (.rateLimited (o.key.client r) (some wait)) ∧
      (start o S now r p s).state.inner = s.inner) ∨
    ((start o S now r p s).value = .admitted (S.start now r p s.inner).value ∧
      (start o S now r p s).state.inner = (S.start now r p s.inner).state) := by
  unfold start
  split
  · dsimp only
    split
    · exact .inr ⟨rfl, rfl⟩
    · exact .inl ⟨_, rfl, rfl⟩
  · exact .inr ⟨rfl, rfl⟩

/-- Where a call gets when it is started in some state, and what is then as it was. -/
inductive Starts {K κ β σ : Type} (client : String) (behind : Coalesced.Call K κ β)
    (s s' : Layered (Option Failure) (Layered (Limiter Float) (Layered Circuit σ))) :
    EdgeCall K κ β → Prop
  | held (f : Failure) (own : s.own = some f) :
    Starts client behind s s' (.answered (Rendered.response f))
  | limited (wait : Duration) (own : s.own = none) (kept : s'.inner.inner = s.inner.inner) :
    Starts client behind s s' (.passed (.rejected (.rateLimited client (some wait))))
  | refused (own : s.own = none) (kept : s'.inner.inner.inner = s.inner.inner.inner) :
    Starts client behind s s' (.passed (.admitted .rejected))
  | passed (own : s.own = none) (g : Guarded.Call (Coalesced.Call K κ β))
    (call : g.inner? = some behind) : Starts client behind s s' (.passed (.admitted g))

section

variable {K κ β σ : Type} {client : String} {behind : Coalesced.Call K κ β}
  {s s' : Layered (Option Failure) (Layered (Limiter Float) (Layered Circuit σ))}
  {call : EdgeCall K κ β}

/-- Only a failure that was held keeps a call from being counted. -/
theorem Starts.isNone_own (h : Starts client behind s s' call) :
    s.own.isNone = !(call.reach == .held) := by
  cases h with
  | held f own =>
    rw [own]
    rfl
  | limited wait own kept =>
    rw [own]
    rfl
  | refused own kept =>
    rw [own]
    rfl
  | passed own g hg =>
    rw [own, beq_false_of_ne (EdgeCall.reach_passed_ne hg).1]
    rfl

theorem Starts.of_limited (h : Starts client behind s s' call) (hreach : call.reach = .limited) :
    (∃ wait, call = .passed (.rejected (.rateLimited client (some wait)))) ∧
      s'.inner.inner = s.inner.inner := by
  cases h with
  | held f own => cases hreach
  | limited wait own kept => exact ⟨⟨wait, rfl⟩, kept⟩
  | refused own kept => cases hreach
  | passed own g hg => exact absurd hreach (EdgeCall.reach_passed_ne hg).2.1

theorem Starts.of_refused (h : Starts client behind s s' call) (hreach : call.reach = .refused) :
    call = .passed (.admitted .rejected) ∧ s'.inner.inner.inner = s.inner.inner.inner := by
  cases h with
  | held f own => cases hreach
  | limited wait own kept => cases hreach
  | refused own kept => exact ⟨rfl, kept⟩
  | passed own g hg => exact absurd hreach (EdgeCall.reach_passed_ne hg).2.2

theorem Starts.isSome_bind {κ' : Type} (h : Starts client behind s s' call)
    (f : Coalesced.Call K κ β → Option κ')
    (hf : (f behind).isSome = (behind.reach == .executed)) :
    (call.coalesced?.bind f).isSome = (call.reach == .executed) := by
  cases h with
  | held f own => rfl
  | limited wait own kept => rfl
  | refused own kept => rfl
  | passed own g hg =>
    rw [EdgeCall.reach_passed hg, EdgeCall.coalesced?_passed, hg]
    exact hf

end

/-- There is no other way to start a call. -/
theorem starts_cases {K : Type} [DecidableEq K] (ol : LimiterOptions) (ob : BreakerOptions)
    (oc : CoalescerOptions K) (P : Pipeline π η) (now : Instant) (r : Request) (p : π)
    (s : (((P.coalesced oc).guarded ob).limited ol).rendered.State) :
    let started := (((P.coalesced oc).guarded ob).limited ol).rendered.start now r p s
    Starts (ol.key.client r) ((P.coalesced oc).start now r p s.inner.inner.inner).value s
      started.state started.value := by
  intro started
  let G := Guarded.service ob (P.coalesced oc).toService
  let L := Limited.service ol G
  obtain ⟨own, inner⟩ := s
  cases own with
  | some f => exact .held f rfl
  | none =>
    rcases Limited.start_eq ol G now r p inner with ⟨wait, hvalue, hstate⟩ | ⟨hvalue, hstate⟩
    · have hstarted : started.value =
          Rendered.Call.passed (.rejected (.rateLimited (ol.key.client r) (some wait))) :=
        congrArg Rendered.Call.passed hvalue
      rw [hstarted]
      exact .limited wait rfl hstate
    · have hstarted : started.value =
          Rendered.Call.passed (.admitted (G.start now r p inner.inner).value) :=
        congrArg Rendered.Call.passed hvalue
      have hinner : started.state.inner.inner = (G.start now r p inner.inner).state := hstate
      rw [hstarted]
      rcases Guarded.start_eq ob (P.coalesced oc).toService now r p inner.inner with
        ⟨hrejected, hkept⟩ | hpassed
      · rw [show (G.start now r p inner.inner).value = Guarded.Call.rejected from hrejected]
        exact .refused rfl (by rw [hinner]; exact hkept)
      · exact .passed rfl _ hpassed

/-- Nothing is told behind admission control of what it has turned away. -/
theorem Limited.account_of_rejected {ol : LimiterOptions} {P : Pipeline π η}
    {a : Account (P.limited ol).rendered.toService} {f : Failure}
    (h : a.opening = Rendered.Call.passed (.rejected f)) :
    ((Rendered.front (P.limited ol)).account a).bind (Limited.front ol P).account = none := by
  obtain ⟨b, hb, hopening⟩ := (Rendered.front (P.limited ol)).account_of_call
    (show (Rendered.front (P.limited ol)).call a.opening = some (Limited.Call.rejected f) by
      rw [h]
      rfl)
  rw [hb]
  apply Front.account_of_call_none
  rw [hopening]
  rfl

/-- Nothing is told behind the circuit of what it has turned away. -/
theorem Guarded.account_of_rejected {ol : LimiterOptions} {ob : BreakerOptions} {P : Pipeline π η}
    {a : Account ((P.guarded ob).limited ol).rendered.toService}
    (h : a.opening = Rendered.Call.passed (.admitted .rejected)) :
    (((Rendered.front ((P.guarded ob).limited ol)).account a).bind fun b =>
      ((Limited.front ol (P.guarded ob)).account b).bind (Guarded.front ob P).account) = none := by
  obtain ⟨b, hb, hpassed⟩ := (Rendered.front ((P.guarded ob).limited ol)).account_of_call
    (show (Rendered.front ((P.guarded ob).limited ol)).call a.opening =
        some (Limited.Call.admitted .rejected) by
      rw [h]
      rfl)
  obtain ⟨b', hb', hadmitted⟩ := (Limited.front ol (P.guarded ob)).account_of_call
    (show (Limited.front ol (P.guarded ob)).call b.opening = some Guarded.Call.rejected by
      rw [hpassed]
      rfl)
  rw [hb, Option.bind_some, hb']
  apply Front.account_of_call_none
  rw [hadmitted]
  rfl

/-! ### Calls that are turned away -/

/-- A call leaves a part of the state as it is: when it is made, and whatever is done with it at
    a later moment. -/
structure Spares (Q : Pipeline π η) {σ : Type} (part : Q.State → σ) (t : Q.Callers) (n : Nat)
    (a : Account Q.toService) : Prop where
  made : part (Q.start a.now a.request a.payload a.state).state = part a.state
  later : ∀ m : Move π η, m.On n → part (Q.step t m).state = part t.state

/-- Whatever is answered at once has been answered by the first poll. -/
theorem Account.answered_at_once {S : Service π} {a : Account S} {answer : Answer S.Body}
    (h : ∀ now s, (S.poll now a.opening s).value = .done answer) :
    a.moments = [] ∨ a.progress = .done answer := by
  unfold Account.progress
  cases a.moments with
  | nil => exact .inl rfl
  | cons m moments =>
    refine .inr ?_
    simp only [Service.course, h]

/-! ### The edge -/

namespace Deployment

variable (c : Gzip.Codec) (e : EdgeSpec) (now : Instant) (d : Deployment π η)

/-- From the edge to its meter. -/
def edgeMeter :
    Shell (d.edge c e now).pipeline (d.pipeline.metered e.meter.options e.meter.saved) :=
  ((Rendered.front _).shell.trans
    ((Limited.front e.limiter.options _).shell.trans
      ((Guarded.front e.breaker.options _).shell.trans
        ((Coalesced.shell e.coalescer.options _).trans
          (Compressed.shell c e.compressor.options _))))).unseen _

/-- From the edge to what it protects. -/
def edgeHandler : Shell (d.edge c e now).pipeline d.pipeline :=
  (d.edgeMeter c e now).trans (Metered.shell e.meter.options e.meter.saved d.pipeline)

/-- From the edge to its breaker. -/
def edgeBreaker : Survey (d.edge c e now).pipeline (e.guarded c d.pipeline) :=
  (((Rendered.front _).survey (Rendered.clear _)).trans
    ((Limited.front e.limiter.options _).survey (Limited.clear _ _)) fun _ h => h).unseen _

/-- How far a call of the edge gets. -/
def edgeReach (a : Account (d.edge c e now).pipeline.toService) : Reach :=
  EdgeCall.reach (K := CoalescingKey) a.opening

/-- The state of the edge from its breaker inwards: the circuit, the calls under way, encoders and
    totals, the recorder, and what the edge protects. -/
def fromBreaker (s : (d.edge c e now).pipeline.State) : (e.guarded c d.pipeline).State :=
  s.inner.inner

/-- The state of the edge inside its breaker. -/
def insideBreaker (s : (d.edge c e now).pipeline.State) :
    ((e.source c d.pipeline).coalesced e.coalescer.options).State :=
  s.inner.inner.inner

variable {c e now d}

theorem edge_starts (a : Account (d.edge c e now).pipeline.toService) :
    Starts (K := CoalescingKey) (e.limiter.key.client a.request)
      (((e.source c d.pipeline).coalesced e.coalescer.options).start a.now a.request a.payload
        a.state.inner.inner.inner).value
      a.state ((d.edge c e now).pipeline.start a.now a.request a.payload a.state).state
      a.opening :=
  starts_cases e.limiter.options e.breaker.options e.coalescer.options (e.source c d.pipeline) a.now
    a.request a.payload a.state

theorem edgeHandler_call (call : (d.edge c e now).pipeline.Call) :
    (d.edgeHandler c e now).call call =
      (EdgeCall.coalesced? (K := CoalescingKey) call).bind fun call =>
        (call.inner?.bind Compressed.Call.inner?).bind fun inner => some inner.inner := by
  cases call with
  | answered r => rfl
  | passed inner =>
    cases inner with
    | rejected f => rfl
    | admitted inner => cases inner <;> rfl

/-- Exactly the calls that execute make a call of the handler. -/
theorem isSome_edgeHandler (a : Account (d.edge c e now).pipeline.toService) :
    ((d.edgeHandler c e now).call a.opening).isSome = (d.edgeReach c e now a == .executed) := by
  rw [edgeHandler_call]
  apply (edge_starts a).isSome_bind
  exact Coalesced.isSome_start e.coalescer.options c e.compressor.options
    (d.pipeline.metered e.meter.options e.meter.saved) a.now a.request a.payload
    a.state.inner.inner.inner Metered.Call.inner

theorem edgeBreaker_of_limited {a : Account (d.edge c e now).pipeline.toService} {f : Failure}
    (h : a.opening = Rendered.Call.passed (.rejected f)) :
    (d.edgeBreaker c e now).account a = none :=
  Limited.account_of_rejected h

theorem edgeSurvey_of_refused {a : Account (d.edge c e now).pipeline.toService}
    (h : a.opening = Rendered.Call.passed (.admitted .rejected)) :
    (d.edgeSurvey c e now).account a = none :=
  Guarded.account_of_rejected h

variable {moves : List (Move π η)} {n : Nat}
  {a : Account (d.edge c e now).pipeline.toService}

/-- **Who is turned away by admission control** is told so, and nobody behind it notices. -/
theorem limited_spares (ha : (d.edgeCalls c e now moves)[n]? = some (some a))
    (hreach : d.edgeReach c e now a = .limited) :
    (∃ wait, a.moments = [] ∨ a.progress = .done (Rendered.answer
      (.rateLimited (e.limiter.key.client a.request) (some wait)))) ∧
    Spares (d.edge c e now).pipeline (d.fromBreaker c e now)
      ((d.edge c e now).pipeline.run ((d.edge c e now).opened now) moves) n a := by
  obtain ⟨⟨wait, hopening⟩, hkept⟩ := (edge_starts a).of_limited hreach
  refine ⟨⟨wait, Account.answered_at_once ?_⟩, hkept, ?_⟩
  · intro now s
    rw [hopening]
    rfl
  · intro m hm
    exact (d.edgeBreaker c e now).state_behind now (d.edge c e now).state moves ha
      (edgeBreaker_of_limited hopening) hm

/-- **Who is turned away by the circuit** is told so, and nobody behind it notices. -/
theorem refused_spares (ha : (d.edgeCalls c e now moves)[n]? = some (some a))
    (hreach : d.edgeReach c e now a = .refused) :
    (a.moments = [] ∨ a.progress = .done (Rendered.answer (.circuitOpen e.name))) ∧
    Spares (d.edge c e now).pipeline (d.insideBreaker c e now)
      ((d.edge c e now).pipeline.run ((d.edge c e now).opened now) moves) n a := by
  obtain ⟨hopening, hkept⟩ := (edge_starts a).of_refused hreach
  refine ⟨Account.answered_at_once ?_, hkept, ?_⟩
  · intro now s
    rw [hopening]
    rfl
  · intro m hm
    exact (d.edgeSurvey c e now).state_behind now (d.edge c e now).state moves ha
      (edgeSurvey_of_refused hopening) hm

end Deployment

end Floodgate
