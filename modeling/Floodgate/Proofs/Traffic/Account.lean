/-
  Floodgate/Proofs/Traffic/Account.lean
  =====================================
  **What there is to tell of a call.**  A call is started in some state of the service,
  is polled at some moments, and may be given up.  Between two polls the state changes
  as other callers please, so a moment comes with the state that the poll found.  What
  has become of the call follows from that (`Service.course`), whatever else happened.

  A run has an account of every call that was made in it (`Pipeline.accounts`).  The
  calls under way are those whose accounts are still open (`accounted_run`).  Accounts
  only grow, and one that is closed stays as it is.
-/
import Mathlib.Data.List.Basic
import Floodgate.Proofs.Traffic.Basic

namespace Floodgate

open Http (Request)

namespace Service

variable {π : Type} (S : Service π)

/-- What becomes of a call that is polled at some moments, one after the other. -/
def course (call : S.Call) : List (Instant × S.State) → Progress S.Call S.Body
  | [] => .pending call
  | m :: moments =>
    match (S.poll m.1 call m.2).value with
    | .pending call => course call moments
    | .done answer => .done answer

variable {S} {call call' : S.Call} {moments : List (Instant × S.State)}

theorem course_concat_pending (m : Instant × S.State)
    (h : S.course call moments = .pending call') :
    S.course call (moments ++ [m]) = (S.poll m.1 call' m.2).value := by
  induction moments generalizing call with
  | nil =>
    cases h
    simp only [List.nil_append, course]
    split
    · next hv => exact hv.symm
    · next hv => exact hv.symm
  | cons m' moments ih =>
    simp only [List.cons_append, course] at h ⊢
    cases hv : (S.poll m'.1 call m'.2).value with
    | pending next =>
      simp only [hv] at h
      exact ih h
    | done answer =>
      simp only [hv] at h
      cases h

theorem course_append_done (later : List (Instant × S.State)) {answer : Answer S.Body}
    (h : S.course call moments = .done answer) :
    S.course call (moments ++ later) = .done answer := by
  induction moments generalizing call with
  | nil => cases h
  | cons m moments ih =>
    simp only [List.cons_append, course] at h ⊢
    cases hv : (S.poll m.1 call m.2).value with
    | pending next =>
      simp only [hv] at h
      exact ih h
    | done answer' =>
      simp only [hv] at h
      exact h

/-- What polls that do not end a call keep is true of it as long as it is under way. -/
theorem course_keeps {I : S.Call → Prop}
    (hpoll : ∀ now c s c', I c → (S.poll now c s).value = .pending c' → I c')
    (hcall : I call) (h : S.course call moments = .pending call') : I call' := by
  induction moments generalizing call with
  | nil =>
    cases h
    exact hcall
  | cons m moments ih =>
    simp only [course] at h
    cases hv : (S.poll m.1 call m.2).value with
    | pending next =>
      simp only [hv] at h
      exact ih (hpoll m.1 call m.2 next hcall hv) h
    | done answer =>
      simp only [hv] at h
      cases h

end Service

/-! ### Accounts -/

/-- What there is to tell of a call. -/
structure Account {π : Type} (S : Service π) where
  now : Instant
  request : Request
  payload : π
  /-- The state that the call found when it was made. -/
  state : S.State
  /-- When it was polled, and the states that the polls found. -/
  moments : List (Instant × S.State)
  dropped : Bool

namespace Account

variable {π : Type} {S : Service π} (a : Account S)

/-- The call as it was started. -/
def opening : S.Call := (S.start a.now a.request a.payload a.state).value

/-- What has become of the call, unless it was given up. -/
def progress : Progress S.Call S.Body := S.course a.opening a.moments

/-- The call, while it is under way. -/
def call? : Option S.Call :=
  match a.dropped, a.progress with
  | false, .pending call => some call
  | _, _ => none

/-- The call is polled, if it is under way. -/
def polled (now : Instant) (s : S.State) : Account S :=
  if a.call?.isSome then { a with moments := a.moments ++ [(now, s)] } else a

/-- The call is given up, if it is under way. -/
def left : Account S := if a.call?.isSome then { a with dropped := true } else a

variable {a} {call : S.Call} {answer : Answer S.Body} {now : Instant} {s : S.State}

theorem call?_eq_some_iff :
    a.call? = some call ↔ a.dropped = false ∧ a.progress = .pending call := by
  unfold call?
  split
  · next hdropped hprogress => simp [hdropped, hprogress]
  · next hno =>
    constructor
    · intro h
      cases h
    · rintro ⟨hdropped, hprogress⟩
      exact absurd hprogress (hno call hdropped)

theorem call?_of_done (h : a.progress = .done answer) : a.call? = none := by
  rw [call?, h]
  cases a.dropped <;> rfl

theorem polled_of_call (h : a.call? = some call) :
    a.polled now s = { a with moments := a.moments ++ [(now, s)] } := by
  rw [polled, h]
  rfl

theorem polled_of_none (h : a.call? = none) : a.polled now s = a := by
  rw [polled, h]
  rfl

theorem left_of_call (h : a.call? = some call) : a.left = { a with dropped := true } := by
  rw [left, h]
  rfl

theorem left_of_none (h : a.call? = none) : a.left = a := by
  rw [left, h]
  rfl

theorem progress_polled (now : Instant) (s : S.State) (h : a.call? = some call) :
    (a.polled now s).progress = (S.poll now call s).value := by
  rw [polled_of_call h]
  exact Service.course_concat_pending (now, s) (call?_eq_some_iff.mp h).2

theorem call?_left : a.left.call? = none := by
  cases h : a.call? with
  | none =>
    rw [left_of_none h]
    exact h
  | some call =>
    rw [left_of_call h]
    rfl

/-- The one account has come from the other. -/
structure Extends (a a' : Account S) : Prop where
  opened : a'.now = a.now ∧ a'.request = a.request ∧ a'.payload = a.payload ∧ a'.state = a.state
  closed : a.call? = none → a' = a

theorem Extends.refl (a : Account S) : Extends a a := ⟨⟨rfl, rfl, rfl, rfl⟩, fun _ => rfl⟩

theorem Extends.opening {a a' : Account S} (h : Extends a a') : a'.opening = a.opening := by
  obtain ⟨hnow, hrequest, hpayload, hstate⟩ := h.opened
  simp only [Account.opening, hnow, hrequest, hpayload, hstate]

theorem Extends.trans {a a' a'' : Account S} (h : Extends a a') (h' : Extends a' a'') :
    Extends a a'' where
  opened := by
    obtain ⟨hnow, hrequest, hpayload, hstate⟩ := h.opened
    obtain ⟨hnow', hrequest', hpayload', hstate'⟩ := h'.opened
    exact ⟨hnow'.trans hnow, hrequest'.trans hrequest, hpayload'.trans hpayload,
      hstate'.trans hstate⟩
  closed hnone := by
    have hsame := h.closed hnone
    subst hsame
    exact h'.closed hnone

theorem extends_polled (a : Account S) (now : Instant) (s : S.State) :
    Extends a (a.polled now s) := by
  cases h : a.call? with
  | none =>
    rw [polled_of_none h]
    exact .refl a
  | some call =>
    rw [polled_of_call h]
    exact ⟨⟨rfl, rfl, rfl, rfl⟩, fun hnone => by rw [h] at hnone; cases hnone⟩

theorem extends_left (a : Account S) : Extends a a.left := by
  cases h : a.call? with
  | none =>
    rw [left_of_none h]
    exact .refl a
  | some call =>
    rw [left_of_call h]
    exact ⟨⟨rfl, rfl, rfl, rfl⟩, fun hnone => by rw [h] at hnone; cases hnone⟩

end Account

/-! ### The accounts of a run -/

namespace Pipeline

variable {π η : Type} (P : Pipeline π η)

/-- The accounts of all calls, by number; of numbers passed over there is none. -/
abbrev Accounts (P : Pipeline π η) := List (Option (Account P.toService))

/-- The accounts after a move. -/
def accountsNext (t : P.Callers) (m : Move π η) (as : P.Accounts) : P.Accounts :=
  match m with
  | .call r p => as ++ [some ⟨t.now, r, p, t.state, [], false⟩]
  | .skip => as ++ [none]
  | .poll n => as.modify n (Option.map fun a => a.polled t.now t.state)
  | .drop n => as.modify n (Option.map Account.left)
  | _ => as

/-- The accounts of a run, on top of accounts before it. -/
def accounts (t : P.Callers) : List (Move π η) → P.Accounts → P.Accounts
  | [], as => as
  | m :: moves, as => accounts (P.step t m) moves (P.accountsNext t m as)

variable {P} {t : P.Callers} {as : P.Accounts} {a : Account P.toService} {n : Nat}

theorem accounts_append (before after : List (Move π η)) :
    P.accounts t (before ++ after) as =
      P.accounts (P.run t before) after (P.accounts t before as) := by
  induction before generalizing t as with
  | nil => rfl
  | cons m before ih => exact ih

/-- What is told of a call stays told. -/
theorem accountsNext_extends (m : Move π η) (h : as[n]? = some (some a)) :
    ∃ a', (P.accountsNext t m as)[n]? = some (some a') ∧ a.Extends a' := by
  have hmodify : ∀ (k : Nat) (f : Account P.toService → Account P.toService),
      (∀ a : Account P.toService, a.Extends (f a)) →
        ∃ a', (as.modify k (Option.map f))[n]? = some (some a') ∧ a.Extends a' := by
    intro k f hf
    rw [List.getElem?_modify, h]
    by_cases hk : k = n
    · exact ⟨f a, by simp [hk], hf a⟩
    · exact ⟨a, by simp [hk], .refl a⟩
  have happend : ∀ x : Option (Account P.toService),
      ∃ a', (as ++ [x])[n]? = some (some a') ∧ a.Extends a' := by
    intro x
    obtain ⟨hn, _⟩ := List.getElem?_eq_some_iff.mp h
    exact ⟨a, by rw [List.getElem?_append_left hn, h], .refl a⟩
  cases m with
  | call r p => exact happend _
  | skip => exact happend none
  | poll k => exact hmodify k _ fun a => a.extends_polled t.now t.state
  | drop k => exact hmodify k _ Account.extends_left
  | ready => exact ⟨a, h, .refl a⟩
  | pull k => exact ⟨a, h, .refl a⟩
  | advance d => exact ⟨a, h, .refl a⟩
  | order o => exact ⟨a, h, .refl a⟩
  | core change => exact ⟨a, h, .refl a⟩

theorem accounts_extends (moves : List (Move π η)) (h : as[n]? = some (some a)) :
    ∃ a', (P.accounts t moves as)[n]? = some (some a') ∧ a.Extends a' := by
  induction moves generalizing t as a with
  | nil => exact ⟨a, h, .refl a⟩
  | cons m moves ih =>
    obtain ⟨a', ha', hext⟩ := accountsNext_extends (t := t) m h
    obtain ⟨a'', ha'', hext'⟩ := ih (t := P.step t m) ha'
    exact ⟨a'', ha'', hext.trans hext'⟩

/-! ### Accounts and slots -/

/-- The calls whose accounts are open are those under way. -/
def Accounted (as : P.Accounts) (t : P.Callers) : Prop :=
  as.map (fun a => a.bind Account.call?) = t.slots.map Slot.call?

theorem Accounted.length (h : Accounted as t) : as.length = t.slots.length := by
  have hlength := congrArg List.length h
  rwa [List.length_map, List.length_map] at hlength

theorem Accounted.getElem? (h : Accounted as t) (n : Nat) :
    as[n]?.map (fun a => a.bind Account.call?) = t.slots[n]?.map Slot.call? := by
  rw [← List.getElem?_map, ← List.getElem?_map, h]

theorem Accounted.calling_iff (h : Accounted as t) {call : P.Call} :
    t.slots[n]? = some (.calling call) ↔
      ∃ a : Account P.toService, as[n]? = some (some a) ∧ a.call? = some call := by
  have hn := h.getElem? n
  constructor
  · intro hslot
    rw [hslot] at hn
    obtain ⟨x, hx, hcall⟩ := Option.map_eq_some_iff.mp hn
    obtain ⟨a, rfl, ha⟩ := Option.bind_eq_some_iff.mp hcall
    exact ⟨a, hx, ha⟩
  · rintro ⟨a, ha, hcall⟩
    rw [ha] at hn
    obtain ⟨slot, hslot, hsame⟩ := Option.map_eq_some_iff.mp hn.symm
    rw [hslot]
    cases slot with
    | calling c =>
      have hc : some c = a.call? := hsame
      rw [hcall] at hc
      cases hc
      rfl
    | reading body =>
      have hc : none = a.call? := hsame
      rw [hcall] at hc
      cases hc
    | gone =>
      have hc : none = a.call? := hsame
      rw [hcall] at hc
      cases hc

/-- A call that is not under way has no open account. -/
theorem Accounted.call?_eq_none (h : Accounted as t) (ha : as[n]? = some (some a))
    (hidle : ∀ call, t.slots[n]? ≠ some (.calling call)) : a.call? = none := by
  cases hcall : a.call? with
  | none => rfl
  | some call => exact absurd (h.calling_iff.mpr ⟨a, ha, hcall⟩) (hidle call)

/-- Accounts that change only where slots do, and alike, go on to agree with them. -/
theorem Accounted.change (h : Accounted as t) {a' : Account P.toService}
    {slot : Slot P.Call P.Body} (n : Nat) (state : P.State) (ha : a'.call? = slot.call?) :
    Accounted (as.set n (some a')) { t with state := state, slots := t.slots.set n slot } := by
  unfold Accounted at h ⊢
  rw [List.map_set, List.map_set, h, Option.bind_some, ha]

theorem modify_some {f : Account P.toService → Account P.toService}
    (h : as[n]? = some (some a)) : as.modify n (Option.map f) = as.set n (some (f a)) := by
  rw [List.modify_eq_set_getElem?, h]
  rfl

theorem modify_eq_self {f : Account P.toService → Account P.toService}
    (hf : ∀ a, as[n]? = some (some a) → f a = a) : as.modify n (Option.map f) = as := by
  cases hn : as[n]? with
  | none => rw [List.modify_eq_set_getElem?, hn]; rfl
  | some x =>
    have hx : x.map f = x := by
      cases x with
      | none => rfl
      | some a => exact congrArg some (hf a hn)
    rw [List.modify_eq_set_getElem?, hn]
    show as.set n (x.map f) = as
    rw [hx]
    exact set_getElem?_eq_self hn

theorem getElem?_of_modify {f : Account P.toService → Account P.toService} {k : Nat}
    (h : (as.modify k (Option.map f))[n]? = some none) : as[n]? = some none := by
  rw [List.getElem?_modify] at h
  obtain ⟨x, hx, hnone⟩ := Option.map_eq_some_iff.mp h
  rw [hx]
  cases x with
  | none => rfl
  | some a =>
    split at hnone <;> cases hnone

theorem accountsNext_poll (h : as[n]? = some (some a)) :
    P.accountsNext t (.poll n) as = as.set n (some (a.polled t.now t.state)) :=
  modify_some h

theorem accountsNext_drop (h : as[n]? = some (some a)) :
    P.accountsNext t (.drop n) as = as.set n (some a.left) :=
  modify_some h

theorem Accounted.poll_idle (h : Accounted as t)
    (hidle : ∀ call, t.slots[n]? ≠ some (.calling call)) :
    P.accountsNext t (.poll n) as = as :=
  modify_eq_self fun _ ha => Account.polled_of_none (h.call?_eq_none ha hidle)

theorem Accounted.drop_idle (h : Accounted as t)
    (hidle : ∀ call, t.slots[n]? ≠ some (.calling call)) :
    P.accountsNext t (.drop n) as = as :=
  modify_eq_self fun _ ha => Account.left_of_none (h.call?_eq_none ha hidle)

theorem Accounted.poll (h : Accounted as t) (n : Nat) :
    Accounted (P.accountsNext t (.poll n) as) (P.step t (.poll n)) := by
  show Accounted _ (P.stepPoll t n)
  rcases P.stepPoll_cases t n with ⟨hidle, hpoll⟩ | ⟨call, hslot, hpoll⟩
  · rw [h.poll_idle hidle, hpoll]
    exact h
  · obtain ⟨a, ha, hcall⟩ := h.calling_iff.mp hslot
    rw [accountsNext_poll ha, hpoll]
    apply h.change
    have hprogress := Account.progress_polled t.now t.state hcall
    cases hv : (P.poll t.now call t.state).value with
    | pending next =>
      rw [hv] at hprogress
      refine Account.call?_eq_some_iff.mpr ⟨?_, hprogress⟩
      rw [Account.polled_of_call hcall]
      exact (Account.call?_eq_some_iff.mp hcall).1
    | done answer =>
      rw [hv] at hprogress
      rw [Slot.call?_ofProgress_done]
      exact Account.call?_of_done hprogress

theorem Accounted.drop (h : Accounted as t) (n : Nat) :
    Accounted (P.accountsNext t (.drop n) as) (P.step t (.drop n)) := by
  show Accounted _ (P.stepDrop t n)
  rcases P.stepDrop_cases t n with ⟨hn, hdrop⟩ | ⟨call, hslot, hdrop⟩ | ⟨body, hslot, hdrop⟩
  · rw [h.drop_idle (by rcases hn with hn | hn <;> simp [hn]), hdrop]
    exact h
  · obtain ⟨a, ha, _⟩ := h.calling_iff.mp hslot
    rw [accountsNext_drop ha, hdrop]
    exact h.change n _ Account.call?_left
  · rw [h.drop_idle (by simp [hslot]), hdrop]
    unfold Accounted
    rw [List.map_set, set_getElem?_eq_self (by rw [List.getElem?_map, hslot]; rfl)]
    exact h

theorem Accounted.pull (h : Accounted as t) (n : Nat) : Accounted as (P.step t (.pull n)) := by
  show Accounted _ (P.stepPull t n)
  rcases P.stepPull_cases t n with ⟨_, hpull⟩ | ⟨body, hslot, hpull⟩
  · rw [hpull]
    exact h
  · rw [hpull]
    unfold Accounted
    rw [List.map_set, set_getElem?_eq_self (by rw [List.getElem?_map, hslot]; rfl)]
    exact h

theorem Accounted.step (h : Accounted as t) (m : Move π η) :
    Accounted (P.accountsNext t m as) (P.step t m) := by
  have happend : ∀ (x : Option (Account P.toService)) (slot : Slot P.Call P.Body)
      (state : P.State), x.bind Account.call? = slot.call? →
        Accounted (as ++ [x]) { t with state := state, slots := t.slots ++ [slot] } := by
    intro x slot state hx
    unfold Accounted at h ⊢
    rw [List.map_append, List.map_append, h]
    simp only [List.map_cons, List.map_nil, hx]
  cases m with
  | call r p => exact happend _ _ _ rfl
  | skip => exact happend none .gone t.state rfl
  | poll n => exact h.poll n
  | drop n => exact h.drop n
  | pull n => exact h.pull n
  | ready => exact h
  | advance d => exact h
  | order o => exact h
  | core change => exact h

/-- **The accounts of a run are open for the calls under way, and for no others.** -/
theorem accounted_run (h : Accounted as t) (moves : List (Move π η)) :
    Accounted (P.accounts t moves as) (P.run t moves) := by
  induction moves generalizing t as with
  | nil => exact h
  | cons m moves ih => exact ih (h.step m)

theorem accounted_quiet (now : Instant) (s : P.State) : Accounted [] (P.quiet now s) := rfl

/-! ### Numbers that were passed over -/

/-- Under numbers that were passed over nothing is under way. -/
def Absent (as : P.Accounts) (t : P.Callers) : Prop :=
  ∀ n : Nat, as[n]? = some none → t.slots[n]? = some .gone

theorem Absent.poll (h : Absent as t) (n : Nat) :
    Absent (P.accountsNext t (.poll n) as) (P.stepPoll t n) := by
  intro k hk
  have hold : t.slots[k]? = some .gone := h k (getElem?_of_modify hk)
  rcases P.stepPoll_cases t n with ⟨_, hpoll⟩ | ⟨call, hslot, hpoll⟩
  · rw [hpoll]
    exact hold
  · have hother : n ≠ k := by
      rintro rfl
      rw [hslot] at hold
      cases hold
    rw [hpoll, List.getElem?_set_ne hother]
    exact hold

theorem Absent.drop (h : Absent as t) (n : Nat) :
    Absent (P.accountsNext t (.drop n) as) (P.stepDrop t n) := by
  intro k hk
  have hold : t.slots[k]? = some .gone := h k (getElem?_of_modify hk)
  have hother : ∀ {slot : Slot P.Call P.Body}, t.slots[n]? = some slot → slot ≠ .gone → n ≠ k := by
    rintro slot hslot hkept rfl
    rw [hslot, Option.some.injEq] at hold
    exact hkept hold
  rcases P.stepDrop_cases t n with ⟨_, hdrop⟩ | ⟨call, hslot, hdrop⟩ | ⟨body, hslot, hdrop⟩
  · rw [hdrop]
    exact hold
  · rw [hdrop, List.getElem?_set_ne (hother hslot nofun)]
    exact hold
  · rw [hdrop, List.getElem?_set_ne (hother hslot nofun)]
    exact hold

theorem Absent.pull (h : Absent as t) (n : Nat) : Absent as (P.stepPull t n) := by
  intro k hk
  have hold := h k hk
  rcases P.stepPull_cases t n with ⟨_, hpull⟩ | ⟨body, hslot, hpull⟩
  · rw [hpull]
    exact hold
  · have hother : n ≠ k := by
      rintro rfl
      rw [hslot] at hold
      cases hold
    rw [hpull, List.getElem?_set_ne hother]
    exact hold

theorem Absent.step (h : Absent as t) (hcalls : Accounted as t) (m : Move π η) :
    Absent (P.accountsNext t m as) (P.step t m) := by
  have happend : ∀ (x : Option (Account P.toService)) (slot : Slot P.Call P.Body)
      (state : P.State), (x = none → slot = .gone) →
        Absent (as ++ [x]) { t with state := state, slots := t.slots ++ [slot] } := by
    intro x slot state hx n hn
    rcases getElem?_concat_cases hn with ⟨rfl, hnone⟩ | ⟨hlt, hold⟩
    · rw [hcalls.length, List.getElem?_concat_length, hx hnone]
    · rw [List.getElem?_append_left (by rw [← hcalls.length]; exact hlt)]
      exact h n hold
  cases m with
  | call r p => exact happend _ _ _ nofun
  | skip => exact happend none .gone t.state fun _ => rfl
  | poll n => exact h.poll n
  | drop n => exact h.drop n
  | pull n => exact h.pull n
  | ready => exact h
  | advance d => exact h
  | order o => exact h
  | core change => exact h

theorem absent_run (h : Absent as t) (hcalls : Accounted as t) (moves : List (Move π η)) :
    Absent (P.accounts t moves as) (P.run t moves) := by
  induction moves generalizing t as with
  | nil => exact h
  | cons m moves ih => exact ih (h.step hcalls m) (hcalls.step m)

theorem absent_nil (t : P.Callers) : Absent [] t := by
  intro n hn
  cases hn

/-- Of a call that is not there nothing comes. -/
theorem step_gone (h : t.slots[n]? = some .gone) {m : Move π η} (hm : m.On n) :
    P.step t m = t := by
  cases m with
  | poll k =>
    obtain rfl : k = n := hm
    exact stepPoll_idle (by simp [h])
  | drop k =>
    obtain rfl : k = n := hm
    exact stepDrop_idle (.inr h)
  | pull k =>
    obtain rfl : k = n := hm
    exact stepPull_idle (by simp [h])
  | _ => exact hm.elim

end Pipeline

end Floodgate
