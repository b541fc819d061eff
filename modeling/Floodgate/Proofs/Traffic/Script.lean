/-
  Floodgate/Proofs/Traffic/Script.lean
  ====================================
  **What bodies give and what calls come to.**  A body is read piece by piece, and between
  two pulls the state of the service changes as other callers please.  `Service.Gives` says
  what a body gives all the same: its pieces of data in their order, then trailers, or
  nothing, or a failure.  `Service.Answers` says likewise what a call comes to, whenever it
  is polled.

  Both are the largest relations that go with every pull and every poll, so a body or a call
  may keep its reader waiting for ever; whether it may wait at all is part of what is said.
-/
import Floodgate.Pipeline.Relayed
import Floodgate.Proofs.Traffic.Account

namespace Floodgate

open Http (Bytes Frame Headers Pull Replay)

/-! ### Scripts -/

/-- What is left to come of a body: pieces of data, and what stands after them. -/
structure Script where
  data : List Bytes
  ending : Except Failure (Option Headers)

namespace Script

/-- Nothing is left to come. -/
def nothing : Script := ⟨[], .ok none⟩

/-- What a body with a script may give when it is asked for a frame; what is left of it
    satisfies `R`. -/
def Allows {β : Type} (waits : Prop) (R : β → Script → Prop) (x : Script) : Pull β → Prop
  | .pending rest => waits ∧ R rest x
  | .frame (.data bytes) rest => ∃ data, x.data = bytes :: data ∧ R rest ⟨data, x.ending⟩
  | .frame (.trailers fields) rest => x = ⟨[], .ok (some fields)⟩ ∧ R rest nothing
  | .failed f _ => x = ⟨[], .error f⟩
  | .ended rest => x = nothing ∧ R rest nothing

variable {β γ : Type} {waits : Prop} {R : β → Script → Prop} {x : Script} {p : Pull β}

theorem Allows.map {R' : γ → Script → Prop} {wrap : β → γ} (h : x.Allows waits R p)
    (hR : ∀ b x, R b x → R' (wrap b) x) : x.Allows waits R' (p.map wrap) := by
  cases p with
  | pending rest => exact ⟨h.1, hR rest x h.2⟩
  | frame f rest =>
    cases f with
    | data bytes =>
      obtain ⟨data, hdata, hrest⟩ := h
      exact ⟨data, hdata, hR _ _ hrest⟩
    | trailers fields => exact ⟨h.1, hR rest nothing h.2⟩
  | failed f rest => exact h
  | ended rest => exact ⟨h.1, hR rest nothing h.2⟩

theorem Allows.mono {R' : β → Script → Prop} (h : x.Allows waits R p)
    (hR : ∀ b x, R b x → R' b x) : x.Allows waits R' p := by
  have hmap : x.Allows waits R' (p.map id) := h.map hR
  cases p <;> exact hmap

end Script

/-! ### Bodies -/

namespace Service

variable {π : Type}

/-- The body gives what the script says, however its reading is interleaved with other things. -/
def Gives (S : Service π) (waits : Prop) (b : S.Body) (x : Script) : Prop :=
  ∃ R : S.Body → Script → Prop, R b x ∧
    ∀ b x s, R b x → x.Allows waits R (S.pull b s).value

variable {S Q : Service π} {waits : Prop} {x : Script}

theorem Gives.pull {b : S.Body} (h : S.Gives waits b x) (s : S.State) :
    x.Allows waits (S.Gives waits) (S.pull b s).value := by
  obtain ⟨R, hb, hpull⟩ := h
  exact (hpull b x s hb).mono fun b' x' hb' => ⟨R, hb', hpull⟩

/-- A body that a service passes on gives what it gives inside. -/
theorem Gives.passed {wrap : S.Body → Q.Body} {inner : Q.State → S.State}
    (hpull : ∀ b s, (Q.pull (wrap b) s).value = (S.pull b (inner s)).value.map wrap)
    {b : S.Body} (h : S.Gives waits b x) : Q.Gives waits (wrap b) x := by
  refine ⟨fun b' x => ∃ b, b' = wrap b ∧ S.Gives waits b x, ⟨b, rfl, h⟩, ?_⟩
  rintro _ x s ⟨b, rfl, hb⟩
  rw [hpull]
  exact (hb.pull (inner s)).map fun b' x' hb' => ⟨b', rfl, hb'⟩

end Service

namespace Http.Replay

/-- What a body held in memory has to give. -/
def script (r : Replay) : Script := ⟨if r.data.isEmpty then [] else [r.data], .ok r.trailers⟩

theorem flatten_script (r : Replay) : r.script.data.flatten = r.data := by
  obtain ⟨data, trailers⟩ := r
  cases data <;> simp [script]

theorem allows_pull (waits : Prop) (r : Replay) :
    r.script.Allows waits (fun rest x => x = rest.script) r.pull := by
  obtain ⟨data, trailers⟩ := r
  cases data with
  | nil =>
    cases trailers with
    | none => exact ⟨rfl, rfl⟩
    | some fields => exact ⟨rfl, rfl⟩
  | cons b data => exact ⟨[], rfl, rfl⟩

end Http.Replay

/-- A body that a service holds in memory. -/
theorem Service.gives_replay {π : Type} {Q : Service π} {waits : Prop} {wrap : Replay → Q.Body}
    (hpull : ∀ r s, (Q.pull (wrap r) s).value = r.pull.map wrap) (r : Replay) :
    Q.Gives waits (wrap r) r.script := by
  refine ⟨fun b x => ∃ r, b = wrap r ∧ x = r.script, ⟨r, rfl, rfl⟩, ?_⟩
  rintro _ _ s ⟨r, rfl, rfl⟩
  rw [hpull]
  exact (r.allows_pull waits).map fun rest x hx => ⟨rest, rfl, hx⟩

/-! ### Calls -/

/-- A call that goes on satisfies `R`, and an answer satisfies `J`. -/
def Progress.Meets {κ β : Type} (waits : Prop) (R : κ → Prop) (J : Answer β → Prop) :
    Progress κ β → Prop
  | .pending call => waits ∧ R call
  | .done answer => J answer

theorem Progress.Meets.mono {κ β : Type} {waits : Prop} {R R' : κ → Prop}
    {J J' : Answer β → Prop} {p : Progress κ β} (h : p.Meets waits R J)
    (hR : ∀ call, R call → R' call) (hJ : ∀ answer, J answer → J' answer) :
    p.Meets waits R' J' := by
  cases p with
  | pending call => exact ⟨h.1, hR call h.2⟩
  | done answer => exact hJ answer h

namespace Service

variable {π : Type}

/-- The answer is a response with this head, and its body gives this. -/
def Responds (S : Service π) (waits : Prop) (head : Http.Head) (x : Script)
    (a : Answer S.Body) : Prop :=
  ∃ b, a = .ok ⟨head, b⟩ ∧ S.Gives waits b x

/-- The call comes to an answer of this kind, whenever it is polled. -/
def Answers (S : Service π) (waits : Prop) (call : S.Call) (J : Answer S.Body → Prop) : Prop :=
  ∃ R : S.Call → Prop, R call ∧ ∀ call now s, R call → (S.poll now call s).value.Meets waits R J

variable {S : Service π} {waits : Prop} {call : S.Call} {J : Answer S.Body → Prop}

theorem Answers.poll (h : S.Answers waits call J) (now : Instant) (s : S.State) :
    (S.poll now call s).value.Meets waits (fun call => S.Answers waits call J) J := by
  obtain ⟨R, hcall, hpoll⟩ := h
  exact (hpoll call now s hcall).mono (fun next hnext => ⟨R, hnext, hpoll⟩) fun _ hJ => hJ

/-- A call that was polled has come to an answer of the kind, or it is still to come to one. -/
theorem Answers.course (h : S.Answers waits call J) (moments : List (Instant × S.State)) :
    (S.course call moments).Meets (moments = [] ∨ waits)
      (fun call => S.Answers waits call J) J := by
  induction moments generalizing call with
  | nil => exact ⟨.inl rfl, h⟩
  | cons m moments ih =>
    have hmeets := h.poll m.1 m.2
    simp only [Service.course]
    cases hv : (S.poll m.1 call m.2).value with
    | pending next =>
      rw [hv] at hmeets
      have hnext := ih hmeets.2
      dsimp only
      cases hc : S.course next moments with
      | pending last =>
        rw [hc] at hnext
        exact ⟨.inr hmeets.1, hnext.2⟩
      | done answer =>
        rw [hc] at hnext
        exact hnext
    | done answer =>
      rw [hv] at hmeets
      exact hmeets

end Service

end Floodgate
