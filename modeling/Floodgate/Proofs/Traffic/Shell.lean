/-
  Floodgate/Proofs/Traffic/Shell.lean
  ===================================
  **Stages that go on by themselves.**  Compression and coalescing read bodies ahead: what a
  call has got from behind the stage it may keep for a while, and meanwhile bodies are read
  though no call is under way behind.  Such a stage does not pass moves on one by one, as a
  `Front` does; it makes the calls behind it that its own calls need, polls them when it is
  polled, and beyond that only does what no call notices (`Pipeline.Drifts`).

  A `Shell` says this of any number of stages.  It is enough to count by: what starting and
  polling the calls behind adds to a figure of the state, and nothing else changes, is the
  number of accounts that show it (`Counter.count_run`).
-/
import Floodgate.Proofs.Traffic.Front
import Floodgate.Proofs.Traffic.Inside

namespace Floodgate

variable {π η : Type}

/-! ### What no call notices -/

/-- The one state has come from the other, and no call was started or polled. -/
inductive Pipeline.Drifts (P : Pipeline π η) : P.State → P.State → Prop where
  | refl (s : P.State) : Drifts P s s
  | ready {s s' : P.State} (h : Drifts P s s') : Drifts P s (P.ready s').2
  | abandon {s s' : P.State} (c : P.Call) (h : Drifts P s s') : Drifts P s (P.abandon c s')
  | pull {s s' : P.State} (b : P.Body) (h : Drifts P s s') : Drifts P s (P.pull b s').state
  | obey {s s' : P.State} (now : Instant) (o : Order) (h : Drifts P s s') :
      Drifts P s (P.obey now o s').state
  | core {s s' : P.State} (change : η → η) (h : Drifts P s s') :
      Drifts P s (P.withCore (change (P.core s')) s')

namespace Pipeline.Drifts

variable {P : Pipeline π η} {s s' s'' : P.State}

theorem trans (h : P.Drifts s s') (h' : P.Drifts s' s'') : P.Drifts s s'' := by
  induction h' with
  | refl => exact h
  | ready _ ih => exact ih.ready
  | abandon c _ ih => exact ih.abandon c
  | pull b _ ih => exact ih.pull b
  | obey now o _ ih => exact ih.obey now o
  | core change _ ih => exact ih.core change

theorem of_eq (h : s' = s) : P.Drifts s s' := by
  rw [h]
  exact .refl s

end Pipeline.Drifts

/-- What a call and the call behind it have come to: as long as the one behind is under way
    the call waits for it, and after that it has none. -/
def Linked {κ κ' β β' : Type} (call : κ → Option κ') : Progress κ β → Progress κ' β' → Prop
  | .pending c, .pending i => call c = some i
  | .pending c, .done _ => call c = none
  | .done _, .pending _ => False
  | .done _, .done _ => True

theorem linked_done {κ κ' β β' : Type} {call : κ → Option κ'} {x : Progress κ β}
    (h : ∀ c, x = .pending c → call c = none) (answer : Answer β') :
    Linked call x (.done answer) := by
  cases x with
  | pending c => exact h c rfl
  | done answer' => trivial

theorem linked_map {κ κ' β β' : Type} (call : κ → Option κ') (wrap : κ' → κ) (wrapBody : β' → β)
    (h : ∀ i, call (wrap i) = some i) (y : Progress κ' β') :
    Linked call (y.map wrap wrapBody) y := by
  cases y with
  | pending i => exact h i
  | done answer => cases answer <;> trivial

/-- Stages `Q` around `P`. -/
structure Shell (Q P : Pipeline π η) where
  state : Q.State → P.State
  /-- The call behind that the call waits for. -/
  call : Q.Call → Option P.Call
  start_cases : ∀ now r p s,
    (call (Q.start now r p s).value = none ∧ state (Q.start now r p s).state = state s) ∨
    (call (Q.start now r p s).value = some (P.start now r p (state s)).value ∧
      state (Q.start now r p s).state = (P.start now r p (state s)).state)
  poll_none : ∀ now c s, call c = none → P.Drifts (state s) (state (Q.poll now c s).state) ∧
    ∀ c', (Q.poll now c s).value = .pending c' → call c' = none
  poll_some : ∀ now c s i, call c = some i →
    P.Drifts (P.poll now i (state s)).state (state (Q.poll now c s).state) ∧
      Linked call (Q.poll now c s).value (P.poll now i (state s)).value
  ready : ∀ s, P.Drifts (state s) (state (Q.ready s).2)
  abandon : ∀ c s, P.Drifts (state s) (state (Q.abandon c s))
  pull : ∀ b s, P.Drifts (state s) (state (Q.pull b s).state)
  obey : ∀ now o s, P.Drifts (state s) (state (Q.obey now o s).state)
  core : ∀ (change : η → η) s, P.Drifts (state s) (state (Q.withCore (change (Q.core s)) s))

namespace Shell

variable {R Q P : Pipeline π η}

theorem drifts (A : Shell Q P) {s s' : Q.State} (h : Q.Drifts s s') :
    P.Drifts (A.state s) (A.state s') := by
  induction h with
  | refl => exact .refl _
  | ready _ ih => exact ih.trans (A.ready _)
  | abandon c _ ih => exact ih.trans (A.abandon c _)
  | pull b _ ih => exact ih.trans (A.pull b _)
  | obey now o _ ih => exact ih.trans (A.obey now o _)
  | core change _ ih => exact ih.trans (A.core change _)

theorem linked_trans {κ κ' κ'' β β' β'' : Type} {f : κ → Option κ'} {g : κ' → Option κ''}
    {x : Progress κ β} {y : Progress κ' β'} {z : Progress κ'' β''} (h : Linked f x y)
    (h' : Linked g y z) : Linked (fun c => (f c).bind g) x z := by
  cases y with
  | pending i =>
    cases x with
    | done answer => exact h.elim
    | pending c =>
      have hc : f c = some i := h
      cases z with
      | pending j =>
        show (f c).bind g = some j
        rw [hc]
        exact h'
      | done answer =>
        show (f c).bind g = none
        rw [hc]
        exact h'
  | done answer =>
    cases z with
    | pending j => exact h'.elim
    | done answer' =>
      cases x with
      | done answer'' => trivial
      | pending c =>
        have hc : f c = none := h
        show (f c).bind g = none
        rw [hc]
        rfl

/-- The one shell inside the other. -/
def trans (A : Shell R Q) (B : Shell Q P) : Shell R P where
  state s := B.state (A.state s)
  call c := (A.call c).bind B.call
  start_cases now r p s := by
    rcases A.start_cases now r p s with ⟨hnone, hstate⟩ | ⟨hsome, hstate⟩
    · rw [hnone, hstate]
      exact .inl ⟨rfl, rfl⟩
    · rw [hsome, hstate]
      exact B.start_cases now r p (A.state s)
  poll_none now c s h := by
    cases hc : A.call c with
    | none =>
      obtain ⟨hdrifts, hpending⟩ := A.poll_none now c s hc
      refine ⟨B.drifts hdrifts, ?_⟩
      intro c' hc'
      rw [hpending c' hc']
      rfl
    | some i =>
      rw [hc] at h
      obtain ⟨hdrifts, hlinked⟩ := A.poll_some now c s i hc
      obtain ⟨hdrifts', hpending⟩ := B.poll_none now i (A.state s) h
      refine ⟨hdrifts'.trans (B.drifts hdrifts), ?_⟩
      intro c' hc'
      rw [hc'] at hlinked
      cases hv : (Q.poll now i (A.state s)).value with
      | pending j =>
        rw [hv] at hlinked
        have hj : A.call c' = some j := hlinked
        rw [hj]
        exact hpending j hv
      | done answer =>
        rw [hv] at hlinked
        have hnone : A.call c' = none := hlinked
        rw [hnone]
        rfl
  poll_some now c s j h := by
    obtain ⟨i, hc, hi⟩ := Option.bind_eq_some_iff.mp h
    obtain ⟨hdrifts, hlinked⟩ := A.poll_some now c s i hc
    obtain ⟨hdrifts', hlinked'⟩ := B.poll_some now i (A.state s) j hi
    exact ⟨hdrifts'.trans (B.drifts hdrifts), linked_trans hlinked hlinked'⟩
  ready s := B.drifts (A.ready s)
  abandon c s := B.drifts (A.abandon c s)
  pull b s := B.drifts (A.pull b s)
  obey now o s := B.drifts (A.obey now o s)
  core change s := B.drifts (A.core change s)

/-- What is to be seen of a pipeline does not matter to its callers. -/
def unseen (A : Shell Q P) (views : Q.State → List StageView) :
    Shell { Q with views := views } P where
  state := A.state
  call := A.call
  start_cases := A.start_cases
  poll_none := A.poll_none
  poll_some := A.poll_some
  ready := A.ready
  abandon := A.abandon
  pull := A.pull
  obey := A.obey
  core := A.core

/-! ### Courses -/

variable (A : Shell Q P) {moments : List (Instant × Q.State)} {c c' : Q.Call} {i : P.Call}

/-- A call that does not wait for one behind never does again. -/
theorem course_none (hc : A.call c = none) (h : Q.course c moments = .pending c') :
    A.call c' = none := by
  refine Service.course_keeps (I := fun c => A.call c = none) ?_ hc h
  intro now c s c' hc hv
  exact (A.poll_none now c s hc).2 c' hv

/-- **A call and the call behind it go on together.** -/
theorem course_linked (hc : A.call c = some i) :
    Linked A.call (Q.course c moments) (P.course i (inside A.state moments)) := by
  induction moments generalizing c i with
  | nil => exact hc
  | cons m moments ih =>
    have hlinked := (A.poll_some m.1 c m.2 i hc).2
    simp only [inside, List.map_cons, Service.course]
    cases hp : (P.poll m.1 i (A.state m.2)).value with
    | pending j =>
      cases hq : (Q.poll m.1 c m.2).value with
      | pending c' =>
        rw [hp, hq] at hlinked
        exact ih hlinked
      | done answer =>
        rw [hp, hq] at hlinked
        exact hlinked.elim
    | done answer =>
      cases hq : (Q.poll m.1 c m.2).value with
      | pending c' =>
        rw [hp, hq] at hlinked
        -- nothing is left behind to wait for, but the call itself may go on
        show Linked A.call (Q.course c' moments) (.done answer)
        cases hcourse : Q.course c' moments with
        | pending c'' => exact A.course_none hlinked hcourse
        | done answer' => trivial
      | done answer' => trivial

/-- The account of the call behind, of a call that has made one. -/
def account (a : Account Q.toService) : Option (Account P.toService) :=
  if (A.call a.opening).isSome then some (a.within A.state) else none

variable {A}

theorem call_opening {a : Account Q.toService} (h : (A.call a.opening).isSome = true) :
    A.call a.opening = some (Account.opening (a.within A.state)) := by
  rcases A.start_cases a.now a.request a.payload a.state with ⟨hnone, _⟩ | ⟨hsome, _⟩
  · rw [Account.opening, hnone] at h
    cases h
  · exact hsome

variable {a : Account Q.toService} {b : Account P.toService}

theorem account_of_call (h : A.call a.opening = some i) :
    A.account a = some (a.within A.state) := by
  rw [account, h]
  rfl

theorem account_of_call_none (h : A.call a.opening = none) : A.account a = none := by
  rw [account, h]
  rfl

theorem of_account (hb : A.account a = some b) :
    b = a.within A.state ∧ A.call a.opening = some b.opening := by
  unfold account at hb
  split at hb
  · next hsome =>
    obtain rfl := Option.some.inj hb
    exact ⟨rfl, call_opening hsome⟩
  · cases hb

theorem call_of_account_none (hnone : A.account a = none) : A.call a.opening = none := by
  cases hcall : A.call a.opening with
  | none => rfl
  | some i =>
    rw [account_of_call hcall] at hnone
    cases hnone

theorem account_linked (hb : A.account a = some b) : Linked A.call a.progress b.progress := by
  obtain ⟨rfl, hcall⟩ := of_account hb
  exact A.course_linked hcall

theorem account_of_opening {a' : Account Q.toService} (h : a'.opening = a.opening) :
    A.account a' = (A.account a).map fun _ => a'.within A.state := by
  unfold account
  rw [h]
  split <;> rfl

theorem account_trans (A : Shell R Q) (B : Shell Q P) (a : Account R.toService) :
    (A.trans B).account a = (A.account a).bind B.account := by
  have hwithin : (a.within A.state).within B.state = a.within (A.trans B).state := by
    simp only [Account.within, inside, List.map_map, Function.comp_def]
    rfl
  have hcall : (A.trans B).call a.opening = (A.call a.opening).bind B.call := rfl
  cases hb : A.account a with
  | none =>
    rw [call_of_account_none hb] at hcall
    exact account_of_call_none hcall
  | some b =>
    obtain ⟨rfl, hopening⟩ := of_account hb
    rw [hopening] at hcall
    show _ = B.account (a.within A.state)
    cases hinner : B.call (Account.opening (a.within A.state)) with
    | none =>
      rw [account_of_call_none hinner]
      exact account_of_call_none (hcall.trans hinner)
    | some i =>
      rw [account_of_call hinner, hwithin]
      exact account_of_call (hcall.trans hinner)

end Shell

/-- A stage that passes calls on as they are. -/
def Front.shell {Q P : Pipeline π η} (F : Front Q P) : Shell Q P where
  state := F.state
  call := F.call
  start_cases := F.start_cases
  poll_none now c s h := by
    obtain ⟨hstate, hover⟩ := F.poll_none now c s h
    refine ⟨.of_eq hstate, ?_⟩
    intro c' hc'
    rw [hc'] at hover
    cases hcall : F.call c' with
    | none => rfl
    | some i =>
      have hslot : F.slot (.calling c') = .gone := hover
      rw [F.slot_calling hcall] at hslot
      cases hslot
  poll_some now c s i h := by
    obtain ⟨hstate, hslot⟩ := F.poll_some now c s i h
    refine ⟨.of_eq hstate, ?_⟩
    cases hq : (Q.poll now c s).value with
    | pending c' =>
      rw [hq] at hslot
      have hcalling : F.slot (.calling c') = Slot.ofProgress (P.poll now i (F.state s)).value :=
        hslot
      cases hp : (P.poll now i (F.state s)).value with
      | pending j =>
        rw [hp] at hcalling
        obtain ⟨c'', hc'', hj⟩ := Slot.eq_calling_of_behind hcalling
        cases hc''
        exact hj
      | done answer =>
        show F.call c' = none
        cases hcall : F.call c' with
        | none => rfl
        | some j =>
          rw [hp, F.slot_calling hcall] at hcalling
          cases answer <;> cases hcalling
    | done answer =>
      rw [hq] at hslot
      cases hp : (P.poll now i (F.state s)).value with
      | pending j =>
        rw [hp] at hslot
        obtain ⟨c', hc', _⟩ := Slot.eq_calling_of_behind hslot
        cases answer <;> cases hc'
      | done answer' => trivial
  ready s := by
    rw [F.ready_eq s]
    split
    · exact .ready (.refl _)
    · exact .refl _
  abandon c s := by
    cases hc : F.call c with
    | none => exact .of_eq (F.abandon_none c s hc)
    | some i =>
      rw [F.abandon_some c s i hc]
      exact .abandon i (.refl _)
  pull b s := by
    cases hb : F.body b with
    | none => exact .of_eq (F.pull_none b s hb).1
    | some i =>
      rw [(F.pull_some b s i hb).1]
      exact .pull i (.refl _)
  obey now o s := by
    rw [F.obey_eq]
    exact .obey now o (.refl _)
  core change s := by
    rw [F.core_eq]
    exact .core change (.refl _)

end Floodgate
