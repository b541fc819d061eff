/-
  Floodgate/Proofs/Traffic/Perusal.lean
  =====================================
  **What there is to tell of a body that is read.**  The body of an answer is asked for
  frames one by one, in whatever states the service is in by then, and may be given up.
  A perusal says what its reader has been given so far and what is left of the body; it
  stays when the body is given up.

  A run has a perusal of every body that came with an answer in it
  (`Pipeline.perusals`), and of no other (`Perused`).  What every pull keeps to is true
  of all perusals of a run, and a body that is pulled is what the perusal says is left
  (`perused_run`).

  Bodies inside a stage are read by the stage and have no perusals.  What one of them has
  given, and how it has ended if it has, is told by `Service.Yields`, `Service.Ends` and
  `Service.Fails`.
-/
import Floodgate.Proofs.Traffic.Script

namespace Floodgate

open Http (Bytes Frame Headers Pull Response)

/-! ### What a body has given -/

namespace Service

variable {π : Type} {S : Service π}

/-- The body has given these pieces of data, and this is left of it. -/
inductive Yields (S : Service π) : S.Body → List Bytes → S.Body → Prop where
  | refl (b : S.Body) : Yields S b [] b
  | wait {b next last : S.Body} {pieces : List Bytes} (s : S.State)
      (h : (S.pull b s).value = .pending next) (later : Yields S next pieces last) :
      Yields S b pieces last
  | data {b next last : S.Body} {bytes : Bytes} {pieces : List Bytes} (s : S.State)
      (h : (S.pull b s).value = .frame (.data bytes) next) (later : Yields S next pieces last) :
      Yields S b (bytes :: pieces) last

/-- The body has given these pieces of data and then its trailers, if it has any, and that
    was all. -/
def Ends (S : Service π) (b : S.Body) (pieces : List Bytes) (trailers : Option Headers) : Prop :=
  ∃ last s, S.Yields b pieces last ∧
    match trailers with
    | none => ∃ rest, (S.pull last s).value = .ended rest
    | some fields => ∃ rest, (S.pull last s).value = .frame (.trailers fields) rest

/-- The body has given these pieces of data and then a failure. -/
def Fails (S : Service π) (b : S.Body) (pieces : List Bytes) (f : Failure) : Prop :=
  ∃ last s rest, S.Yields b pieces last ∧ (S.pull last s).value = .failed f rest

variable {b next last : S.Body} {pieces more : List Bytes}

theorem Yields.trans (h : S.Yields b pieces next) (h' : S.Yields next more last) :
    S.Yields b (pieces ++ more) last := by
  induction h with
  | refl b => exact h'
  | wait s hv _ ih => exact .wait s hv (ih h')
  | data s hv _ ih => exact .data s hv (ih h')

theorem Yields.ends {trailers : Option Headers} (h : S.Yields b pieces next)
    (h' : S.Ends next more trailers) : S.Ends b (pieces ++ more) trailers := by
  obtain ⟨last, s, hlater, hend⟩ := h'
  exact ⟨last, s, h.trans hlater, hend⟩

theorem Yields.fails {f : Failure} (h : S.Yields b pieces next) (h' : S.Fails next more f) :
    S.Fails b (pieces ++ more) f := by
  obtain ⟨last, s, rest, hlater, hfail⟩ := h'
  exact ⟨last, s, rest, h.trans hlater, hfail⟩

/-- A body with a script has given the beginning of it. -/
theorem Yields.gives {waits : Prop} {x : Script} (h : S.Yields b pieces last)
    (hb : S.Gives waits b x) :
    ∃ y, S.Gives waits last y ∧ x = ⟨pieces ++ y.data, y.ending⟩ := by
  induction h generalizing x with
  | refl b => exact ⟨x, hb, rfl⟩
  | wait s hv _ ih =>
    have hpull := hb.pull s
    rw [hv] at hpull
    exact ih hpull.2
  | data s hv _ ih =>
    have hpull := hb.pull s
    rw [hv] at hpull
    obtain ⟨data, hdata, hnext⟩ := hpull
    obtain ⟨y, hlast, hy⟩ := ih hnext
    obtain ⟨all, ending⟩ := x
    cases hdata
    cases hy
    exact ⟨y, hlast, rfl⟩

/-- A body with a script that has ended has given all of it. -/
theorem Ends.gives {waits : Prop} {x : Script} {trailers : Option Headers}
    (h : S.Ends b pieces trailers) (hb : S.Gives waits b x) : x = ⟨pieces, .ok trailers⟩ := by
  obtain ⟨last, s, hyields, hend⟩ := h
  obtain ⟨y, hlast, rfl⟩ := hyields.gives hb
  have hpull := hlast.pull s
  cases trailers with
  | none =>
    obtain ⟨rest, hv⟩ := hend
    rw [hv] at hpull
    obtain ⟨rfl, _⟩ := hpull
    exact congrArg (Script.mk · _) (List.append_nil pieces)
  | some fields =>
    obtain ⟨rest, hv⟩ := hend
    rw [hv] at hpull
    obtain ⟨rfl, _⟩ := hpull
    exact congrArg (Script.mk · _) (List.append_nil pieces)

/-- A body with a script that has failed has given all of it. -/
theorem Fails.gives {waits : Prop} {x : Script} {f : Failure} (h : S.Fails b pieces f)
    (hb : S.Gives waits b x) : x = ⟨pieces, .error f⟩ := by
  obtain ⟨last, s, rest, hyields, hv⟩ := h
  obtain ⟨y, hlast, rfl⟩ := hyields.gives hb
  have hpull := hlast.pull s
  rw [hv] at hpull
  cases (show y = _ from hpull)
  exact congrArg (Script.mk · _) (List.append_nil pieces)

end Service

/-! ### Perusals -/

namespace Http.Pull

variable {β : Type}

/-- What was given, without what was left then. -/
def given (p : Pull β) : Pull Unit := p.map fun _ => ()

/-- The data that was given. -/
def bytes : Pull β → Bytes
  | .frame (.data bytes) _ => bytes
  | _ => []

@[simp] theorem given_map {γ : Type} (wrap : β → γ) (p : Pull β) :
    (p.map wrap).given = p.given := by
  cases p <;> rfl

end Http.Pull

/-- What there is to tell of a body that is read. -/
structure Perusal (β : Type) where
  /-- The body as the answer had it. -/
  body : β
  /-- What its reader was given, in order. -/
  given : List (Pull Unit)
  rest : β

namespace Perusal

variable {β : Type}

/-- Nothing has been read yet. -/
def begun (body : β) : Perusal β := ⟨body, [], body⟩

/-- The body was asked once more. -/
def asked (q : Perusal β) (p : Pull β) : Perusal β := ⟨q.body, q.given ++ [p.given], restOf p⟩

/-- All data that the reader was given. -/
def data (q : Perusal β) : Bytes := q.given.flatMap Pull.bytes

/-- The perusals of bodies of a service. -/
inductive Of {π : Type} (S : Service π) : Perusal S.Body → Prop where
  | begun (body : S.Body) : Of S (.begun body)
  | asked {q : Perusal S.Body} (s : S.State) (h : Of S q) :
      Of S (q.asked (S.pull q.rest s).value)

end Perusal

/-! ### The perusals of a run -/

namespace Pipeline

variable {π η : Type} (P : Pipeline π η)

/-- The perusals of all bodies, by the numbers of their calls. -/
abbrev Perusals (P : Pipeline π η) := Nat → Option (Perusal P.Body)

/-- The perusals after a move. -/
def perusalsNext (t : P.Callers) (m : Move π η) (qs : P.Perusals) : P.Perusals :=
  match m with
  | .poll n =>
    match t.slots[n]? with
    | some (.calling call) =>
      match (P.poll t.now call t.state).value with
      | .done (.ok r) => Function.update qs n (some (.begun r.body))
      | .done (.error _) => qs
      | .pending _ => qs
    | _ => qs
  | .pull n =>
    match t.slots[n]? with
    | some (.reading body) =>
      Function.update qs n ((qs n).map fun q => q.asked (P.pull body t.state).value)
    | _ => qs
  | _ => qs

/-- The perusals of a run, on top of perusals before it. -/
def perusals (t : P.Callers) : List (Move π η) → P.Perusals → P.Perusals
  | [], qs => qs
  | m :: moves, qs => perusals (P.step t m) moves (P.perusalsNext t m qs)

variable {P} {t : P.Callers} {as : P.Accounts} {qs : P.Perusals} {n : Nat}

theorem perusalsNext_poll_cases (t : P.Callers) (qs : P.Perusals) (k : Nat) :
    P.perusalsNext t (.poll k) qs = qs ∨
      ∃ call r, t.slots[k]? = some (.calling call) ∧
        (P.poll t.now call t.state).value = .done (.ok r) ∧
          P.perusalsNext t (.poll k) qs = Function.update qs k (some (.begun r.body)) := by
  simp only [perusalsNext]
  split
  · next call hslot =>
    split
    · next r hv => exact .inr ⟨call, r, hslot, hv, rfl⟩
    · exact .inl rfl
    · exact .inl rfl
  · exact .inl rfl

theorem perusalsNext_pull_cases (t : P.Callers) (qs : P.Perusals) (k : Nat) :
    P.perusalsNext t (.pull k) qs = qs ∨
      ∃ body, t.slots[k]? = some (.reading body) ∧
        P.perusalsNext t (.pull k) qs =
          Function.update qs k ((qs k).map fun q => q.asked (P.pull body t.state).value) := by
  simp only [perusalsNext]
  split
  · next body hslot => exact .inr ⟨body, hslot, rfl⟩
  · exact .inl rfl

/-- An account that is answered after a move was so before, or the call was polled. -/
theorem answered_cases (hcalls : Accounted as t) (m : Move π η) {a : Account P.toService}
    {answer : Answer P.Body} (ha : (P.accountsNext t m as)[n]? = some (some a))
    (hdone : a.progress = .done answer) :
    as[n]? = some (some a) ∨ (m = .poll n ∧ ∃ call, t.slots[n]? = some (.calling call) ∧
      (P.poll t.now call t.state).value = .done answer) := by
  cases m with
  | call r p =>
    rcases getElem?_concat_cases ha with ⟨_, hnew⟩ | ⟨_, hold⟩
    · cases hnew
      cases hdone
    · exact .inl hold
  | skip =>
    rcases getElem?_concat_cases ha with ⟨_, hnone⟩ | ⟨_, hold⟩
    · cases hnone
    · exact .inl hold
  | poll k =>
    rcases P.stepPoll_cases t k with ⟨hidle, _⟩ | ⟨call, hslot, _⟩
    · rw [hcalls.poll_idle hidle] at ha
      exact .inl ha
    · obtain ⟨a', ha', hcall⟩ := hcalls.calling_iff.mp hslot
      rw [accountsNext_poll ha'] at ha
      rcases getElem?_set_cases ha with ⟨rfl, hsame⟩ | ⟨_, hold⟩
      · obtain rfl := Option.some.inj hsame
        rw [Account.progress_polled _ _ hcall] at hdone
        exact .inr ⟨rfl, call, hslot, hdone⟩
      · exact .inl hold
  | drop k =>
    by_cases hcalling : ∃ call, t.slots[k]? = some (.calling call)
    · obtain ⟨call, hslot⟩ := hcalling
      obtain ⟨a', ha', hcall⟩ := hcalls.calling_iff.mp hslot
      rw [accountsNext_drop ha', Account.left_of_call hcall] at ha
      rcases getElem?_set_cases ha with ⟨_, hsame⟩ | ⟨_, hold⟩
      · obtain rfl := Option.some.inj hsame
        have hpending : a'.progress = .done answer := hdone
        rw [(Account.call?_eq_some_iff.mp hcall).2] at hpending
        cases hpending
      · exact .inl hold
    · rw [hcalls.drop_idle (not_exists.mp hcalling)] at ha
      exact .inl ha
  | ready => exact .inl ha
  | pull k => exact .inl ha
  | advance d => exact .inl ha
  | order o => exact .inl ha
  | core change => exact .inl ha

/-- An account that is answered stays as it is. -/
theorem accountsNext_answered (m : Move π η) {a : Account P.toService} {answer : Answer P.Body}
    (ha : as[n]? = some (some a)) (hdone : a.progress = .done answer) :
    (P.accountsNext t m as)[n]? = some (some a) := by
  obtain ⟨a', ha', hextends⟩ := accountsNext_extends (t := t) m ha
  rw [ha', hextends.closed (Account.call?_of_done hdone)]

/-! ### Perusals and slots -/

/-- There is a perusal of each body that came with an answer, and a body that can be read is
    what is left according to its perusal. -/
structure Perused (as : P.Accounts) (qs : P.Perusals) (t : P.Callers) : Prop where
  calls : Accounted as t
  reading : ∀ n body, t.slots[n]? = some (.reading body) → ∃ q, qs n = some q ∧ q.rest = body
  told : ∀ n q, qs n = some q → q.Of P.toService ∧
    ∃ a head, as[n]? = some (some a) ∧ a.progress = .done (.ok ⟨head, q.body⟩)
  answered : ∀ n a head body, as[n]? = some (some a) → a.progress = .done (.ok ⟨head, body⟩) →
    ∃ q, qs n = some q ∧ q.body = body

namespace Perused

theorem not_calling (h : Perused as qs t) {q : Perusal P.Body} (hq : qs n = some q)
    (call : P.Call) : t.slots[n]? ≠ some (.calling call) := by
  intro hslot
  obtain ⟨a, ha, hcall⟩ := h.calls.calling_iff.mp hslot
  obtain ⟨-, a', head, ha', hdone⟩ := h.told n q hq
  obtain rfl : a = a' := by
    rw [ha] at ha'
    exact Option.some.inj (Option.some.inj ha')
  rw [(Account.call?_eq_some_iff.mp hcall).2] at hdone
  cases hdone

/-- Moves that nobody reads a body by, and that answer no call with one. -/
theorem keep (h : Perused as qs t) {m : Move π η} (hsame : P.perusalsNext t m qs = qs)
    (hreading : ∀ (n : Nat) (body : P.Body), (P.step t m).slots[n]? = some (.reading body) →
      t.slots[n]? = some (.reading body))
    (hanswered : ∀ (n : Nat) (call : P.Call) r, m = .poll n → t.slots[n]? = some (.calling call) →
      (P.poll t.now call t.state).value ≠ .done (.ok r)) :
    Perused (P.accountsNext t m as) (P.perusalsNext t m qs) (P.step t m) := by
  rw [hsame]
  refine ⟨h.calls.step m, fun n body hslot => h.reading n body (hreading n body hslot), ?_, ?_⟩
  · intro n q hq
    obtain ⟨hof, a, head, ha, hdone⟩ := h.told n q hq
    exact ⟨hof, a, head, accountsNext_answered m ha hdone, hdone⟩
  · intro n a head body ha hdone
    rcases answered_cases h.calls m ha hdone with hold | ⟨hpoll, call, hslot, hv⟩
    · exact h.answered n a head body hold hdone
    · exact absurd hv (hanswered n call _ hpoll hslot)

/-- A body that is read after a poll was just answered with, or it was read before. -/
theorem reading_of_polled {call : P.Call} (hslot : t.slots[n]? = some (.calling call)) {k : Nat}
    {body : P.Body} (hk : (P.step t (.poll n)).slots[k]? = some (.reading body)) :
    (n = k ∧ ∃ r, (P.poll t.now call t.state).value = .done (.ok r) ∧ r.body = body) ∨
      (k ≠ n ∧ t.slots[k]? = some (.reading body)) := by
  have hk' : (P.stepPoll t n).slots[k]? = some (.reading body) := hk
  rw [stepPoll_calling hslot] at hk'
  rcases getElem?_set_cases hk' with ⟨rfl, hbody⟩ | hold
  · refine .inl ⟨rfl, ?_⟩
    cases hv : (P.poll t.now call t.state).value with
    | pending next =>
      rw [hv] at hbody
      cases hbody
    | done answer =>
      rw [hv] at hbody
      cases answer with
      | error f => cases hbody
      | ok r =>
        cases hbody
        exact ⟨r, rfl, rfl⟩
  · exact .inr hold

/-- A call is answered with a body, and the perusal of this body begins. -/
theorem poll_answered (h : Perused as qs t) {call : P.Call} {r : Response P.Body}
    (hslot : t.slots[n]? = some (.calling call))
    (hv : (P.poll t.now call t.state).value = .done (.ok r)) :
    Perused (P.accountsNext t (.poll n) as) (P.perusalsNext t (.poll n) qs)
      (P.step t (.poll n)) := by
  have hnext : P.perusalsNext t (.poll n) qs = Function.update qs n (some (.begun r.body)) := by
    simp only [perusalsNext, hslot, hv]
  obtain ⟨a, ha, hcall⟩ := h.calls.calling_iff.mp hslot
  have ha' : (P.accountsNext t (.poll n) as)[n]? = some (some (a.polled t.now t.state)) := by
    rw [accountsNext_poll ha]
    exact List.getElem?_set_self (List.getElem?_eq_some_iff.mp ha).1
  have hdone' : (a.polled t.now t.state).progress = .done (.ok r) :=
    (Account.progress_polled _ _ hcall).trans hv
  rw [hnext]
  refine ⟨h.calls.step _, ?_, ?_, ?_⟩
  · intro k body hk
    rcases reading_of_polled hslot hk with ⟨rfl, r', hv', hbody⟩ | ⟨hne, hold⟩
    · rw [hv] at hv'
      cases hv'
      exact ⟨_, Function.update_self .., hbody⟩
    · rw [Function.update_of_ne hne]
      exact h.reading k body hold
  · intro k q hq
    by_cases hk : k = n
    · subst hk
      rw [Function.update_self, Option.some.injEq] at hq
      subst hq
      exact ⟨.begun _, _, r.head, ha', hdone'⟩
    · rw [Function.update_of_ne hk] at hq
      obtain ⟨hof, a', head, hold, hdone⟩ := h.told k q hq
      exact ⟨hof, a', head, accountsNext_answered _ hold hdone, hdone⟩
  · intro k a' head body hk hdone
    by_cases hkn : k = n
    · subst hkn
      rw [ha', Option.some.injEq, Option.some.injEq] at hk
      subst hk
      rw [hdone'] at hdone
      cases hdone
      exact ⟨_, Function.update_self .., rfl⟩
    · rw [Function.update_of_ne hkn]
      rcases answered_cases h.calls _ hk hdone with hold | ⟨hpolled, _⟩
      · exact h.answered k a' head body hold hdone
      · cases hpolled
        exact absurd rfl hkn

/-- A call is not answered with a body, and all perusals stay as they are. -/
theorem poll_unanswered (h : Perused as qs t)
    (hnot : ∀ call r, t.slots[n]? = some (.calling call) →
      (P.poll t.now call t.state).value ≠ .done (.ok r)) :
    Perused (P.accountsNext t (.poll n) as) (P.perusalsNext t (.poll n) qs)
      (P.step t (.poll n)) := by
  apply h.keep
  · rcases perusalsNext_poll_cases t qs n with hsame | ⟨call, r, hs, hv, _⟩
    · exact hsame
    · exact absurd hv (hnot call r hs)
  · intro k body hk
    rcases P.stepPoll_cases t n with ⟨_, hpoll⟩ | ⟨call, hslot, _⟩
    · exact hpoll ▸ hk
    · rcases reading_of_polled hslot hk with ⟨_, r, hv, _⟩ | ⟨_, hold⟩
      · exact absurd hv (hnot call r hslot)
      · exact hold
  · intro k call r hk hs
    cases hk
    exact hnot call r hs

theorem poll (h : Perused as qs t) (n : Nat) :
    Perused (P.accountsNext t (.poll n) as) (P.perusalsNext t (.poll n) qs)
      (P.step t (.poll n)) := by
  by_cases hok : ∃ call r, t.slots[n]? = some (.calling call) ∧
      (P.poll t.now call t.state).value = .done (.ok r)
  · obtain ⟨call, r, hslot, hv⟩ := hok
    exact h.poll_answered hslot hv
  · exact h.poll_unanswered fun call r hslot hv => hok ⟨call, r, hslot, hv⟩

theorem drop (h : Perused as qs t) (n : Nat) :
    Perused (P.accountsNext t (.drop n) as) (P.perusalsNext t (.drop n) qs)
      (P.step t (.drop n)) := by
  apply h.keep rfl
  · intro k body hk
    have hk' : (P.stepDrop t n).slots[k]? = some (.reading body) := hk
    rcases P.stepDrop_cases t n with ⟨_, hdrop⟩ | ⟨call, _, hdrop⟩ | ⟨body', _, hdrop⟩
    · exact hdrop ▸ hk'
    · rw [hdrop] at hk'
      rcases getElem?_set_cases hk' with ⟨_, hgone⟩ | ⟨_, hold⟩
      · cases hgone
      · exact hold
    · rw [hdrop] at hk'
      rcases getElem?_set_cases hk' with ⟨_, hgone⟩ | ⟨_, hold⟩
      · cases hgone
      · exact hold
  · intro k call r hk
    cases hk

theorem pull (h : Perused as qs t) (n : Nat) :
    Perused as (P.perusalsNext t (.pull n) qs) (P.step t (.pull n)) := by
  rcases P.stepPull_cases t n with ⟨hidle, hpull⟩ | ⟨body, hslot, hpull⟩
  · have hsame : P.perusalsNext t (.pull n) qs = qs := by
      rcases perusalsNext_pull_cases t qs n with hsame | ⟨body, hs, _⟩
      · exact hsame
      · exact absurd hs (hidle body)
    apply h.keep hsame
    · intro k body hk
      exact hpull ▸ hk
    · intro k call r hk
      cases hk
  · obtain ⟨q, hq, rfl⟩ := h.reading n body hslot
    have hnext : P.perusalsNext t (.pull n) qs =
        Function.update qs n (some (q.asked (P.pull q.rest t.state).value)) := by
      simp only [perusalsNext, hslot, hq, Option.map_some]
    rw [hnext]
    refine ⟨h.calls.pull n, ?_, ?_, ?_⟩
    · intro k body hk
      have hk' : (P.stepPull t n).slots[k]? = some (.reading body) := hk
      rw [hpull] at hk'
      rcases getElem?_set_cases hk' with ⟨rfl, hbody⟩ | ⟨hne, hold⟩
      · cases hbody
        exact ⟨_, Function.update_self .., rfl⟩
      · rw [Function.update_of_ne hne]
        exact h.reading k body hold
    · intro k q' hq'
      by_cases hk : k = n
      · subst hk
        rw [Function.update_self, Option.some.injEq] at hq'
        subst hq'
        obtain ⟨hof, hanswered⟩ := h.told k q hq
        exact ⟨hof.asked t.state, hanswered⟩
      · rw [Function.update_of_ne hk] at hq'
        exact h.told k q' hq'
    · intro k a head body ha hdone
      obtain ⟨q', hq', hbody⟩ := h.answered k a head body ha hdone
      by_cases hk : k = n
      · subst hk
        rw [hq, Option.some.injEq] at hq'
        subst hq'
        exact ⟨_, Function.update_self .., hbody⟩
      · rw [Function.update_of_ne hk]
        exact ⟨q', hq', hbody⟩

theorem step (h : Perused as qs t) (m : Move π η) :
    Perused (P.accountsNext t m as) (P.perusalsNext t m qs) (P.step t m) := by
  have happend : ∀ (slot : Slot P.Call P.Body), (∀ body, slot ≠ .reading body) →
      ∀ (k : Nat) body, (t.slots ++ [slot])[k]? = some (.reading body) →
        t.slots[k]? = some (.reading body) := by
    intro slot hslot k body hk
    rcases getElem?_concat_cases hk with ⟨_, hnew⟩ | ⟨_, hold⟩
    · exact absurd hnew (hslot body)
    · exact hold
  cases m with
  | poll n => exact h.poll n
  | drop n => exact h.drop n
  | pull n => exact h.pull n
  | call r p => exact h.keep rfl (happend _ nofun) nofun
  | skip => exact h.keep rfl (happend .gone nofun) nofun
  | ready => exact h.keep rfl (fun _ _ hk => hk) nofun
  | advance d => exact h.keep rfl (fun _ _ hk => hk) nofun
  | order o => exact h.keep rfl (fun _ _ hk => hk) nofun
  | core change => exact h.keep rfl (fun _ _ hk => hk) nofun

/-- What a move does to what is told of a body. -/
theorem next_cases (h : Perused as qs t) (m : Move π η) (n : Nat) :
    P.perusalsNext t m qs n = qs n ∨
    (qs n = none ∧ ∃ call r, m = .poll n ∧ t.slots[n]? = some (.calling call) ∧
      (P.poll t.now call t.state).value = .done (.ok r) ∧
        P.perusalsNext t m qs n = some (.begun r.body)) ∨
    (∃ q, m = .pull n ∧ t.slots[n]? = some (.reading q.rest) ∧ qs n = some q ∧
      P.perusalsNext t m qs n = some (q.asked (P.pull q.rest t.state).value)) := by
  cases m with
  | poll k =>
    rcases perusalsNext_poll_cases t qs k with hsame | ⟨call, r, hslot, hv, hnext⟩
    · exact .inl (congrFun hsame n)
    · rw [hnext]
      by_cases hk : n = k
      · subst hk
        rw [Function.update_self]
        refine .inr (.inl ⟨?_, call, r, rfl, hslot, hv, rfl⟩)
        cases hq : qs n with
        | none => rfl
        | some q => exact absurd hslot (h.not_calling hq call)
      · exact .inl (Function.update_of_ne hk _ _)
  | pull k =>
    rcases perusalsNext_pull_cases t qs k with hsame | ⟨body, hslot, hnext⟩
    · exact .inl (congrFun hsame n)
    · rw [hnext]
      by_cases hk : n = k
      · subst hk
        obtain ⟨q, hq, rfl⟩ := h.reading n body hslot
        rw [Function.update_self, hq]
        exact .inr (.inr ⟨q, rfl, hslot, rfl, rfl⟩)
      · exact .inl (Function.update_of_ne hk _ _)
  | drop k => exact .inl rfl
  | call r p => exact .inl rfl
  | skip => exact .inl rfl
  | ready => exact .inl rfl
  | advance d => exact .inl rfl
  | order o => exact .inl rfl
  | core change => exact .inl rfl

end Perused

theorem perused_quiet (now : Instant) (s : P.State) :
    Perused [] (fun _ => none) (P.quiet now s) where
  calls := accounted_quiet now s
  reading _ _ hslot := by cases hslot
  told _ _ hq := by cases hq
  answered _ _ _ _ ha := by cases ha

end Pipeline

end Floodgate
