/-
  Floodgate/Proofs/Coalescing/Blame.lean
  ======================================
  **Who is to blame when a call at a coalescer fails.**  A call that fails does so for
  one of three reasons (`Blamed`): its own execution has failed, it joined a leader
  whose execution has failed, or it joined a leader that was given up.

  `Polled` lists all that polling a call can come to.  It is the only place where the
  stage of the coalescer is taken apart for polls; that the call is to be blamed if it
  fails (`Polled.blamed`) and that the coalescer and its cast go on to agree
  (`Staged.move`) are proved from it, by cases on what the poll came to.
-/
import Floodgate.Proofs.Coalescing.Cast

namespace Floodgate

open Http (Bytes Head)

namespace Coalesced

variable {π η K : Type} [DecidableEq K]

theorem isError_delivered {β : Type} (result : Except Failure Captured) :
    Metered.isError (delivered result : Answer (Relayed β)) = failing result := by
  cases result <;> rfl

/-- A leader's own answer is as good or bad as what it brought back. -/
theorem failing_complete (f : Flights K Captured) (key : K) (result : Except Failure Captured) :
    failing (f.complete key result).1 = failing result := by
  rcases f.complete_result key result with h | h
  · rw [h]
  · rw [h, failing_sharedResult]

variable {P : Pipeline π η} {X : Executing P} {o : CoalescerOptions K} {cast cast' : Cast}
  {n : Nat} {s s' : State K P.toService} {failed failed' : Finset Nat}

/-! ### Blame -/

/-- The call joined a leader whose execution has failed, or that was given up. -/
def LetDown (cast : Cast) (failed : Finset Nat) (n : Nat) : Prop :=
  ∃ flight, cast.Plays n (.joined flight) ∧
    ∃ leader e, cast.Plays leader (.ran e (some flight)) ∧ (e ∈ failed ∨ leader ∈ cast.dropped)

/-- The call may fail: its own execution has, or it was let down. -/
def Blamed (cast : Cast) (failed : Finset Nat) (n : Nat) : Prop :=
  (∃ e flight, cast.Plays n (.ran e flight) ∧ e ∈ failed) ∨ LetDown cast failed n

theorem LetDown.mono (h : LetDown cast failed n) (hcast : cast.Extends cast')
    (hfailed : failed ⊆ failed') : LetDown cast' failed' n := by
  obtain ⟨flight, hn, leader, e, hleader, hwhy⟩ := h
  refine ⟨flight, hcast.plays n _ hn, leader, e, hcast.plays leader _ hleader, ?_⟩
  rcases hwhy with he | hdropped
  · exact .inl (hfailed he)
  · exact .inr (hcast.dropped leader hdropped)

theorem Blamed.mono (h : Blamed cast failed n) (hcast : cast.Extends cast')
    (hfailed : failed ⊆ failed') : Blamed cast' failed' n := by
  rcases h with ⟨e, flight, hn, he⟩ | hdown
  · exact .inl ⟨e, flight, hcast.plays n _ hn, hfailed he⟩
  · exact .inr (hdown.mono hcast hfailed)

/-! ### Polling -/

/-- What polling a call comes to: `s` and `s'` are the states before and after it. -/
inductive Polled (X : Executing P) (cast : Cast) (n : Nat) (s s' : State K P.toService) :
    Progress (Call K P.Call P.Body) (Relayed P.Body) → Prop where
  | goesOn (call : Call K P.Call P.Body) (own : s'.own = s.own) (acts : Acts X cast n s' call) :
      Polled X cast n s s' (.pending call)
  /-- An execution that leads nobody has ended. -/
  | ran (answer : Answer (Relayed P.Body)) (e : Nat) (own : s'.own = s.own)
      (plays : cast.Plays n (.ran e none))
      (why : Metered.isError answer = true → e ∈ (X.log s'.inner).failed) :
      Polled X cast n s s' (.done answer)
  /-- A leader has ended. -/
  | led (key : K) (result : Except Failure Captured) (e : Nat) (flight : FlightId)
      (leads : Leads s.own cast n key e flight)
      (own : s'.own = (s.own.complete key result).2.2)
      (why : failing result = true → e ∈ (X.log s'.inner).failed) :
      Polled X cast n s s' (.done (delivered (s.own.complete key result).1))
  /-- Waiting has ended. -/
  | waited (flight : FlightId) (landing : Landing Captured) (own : s'.own = s.own)
      (plays : cast.Plays n (.joined flight)) (landed : s.own.landing? flight = some landing) :
      Polled X cast n s s' (.done (landedAnswer landing))

theorem polled_gather (S : State K P.toService) (hs : S.own = s.own) {key : K} {head : Head}
    (data : Bytes) {body : P.Body} {e : Nat} {flight : FlightId}
    (hl : Leads s.own cast n key e flight) (hreads : X.reads body e)
    (hhead : head.status.isServerError = true → e ∈ (X.log S.inner).failed) :
    Polled X cast n s (gather o P.toService key head data body S).state
      (gather o P.toService key head data body S).value := by
  have hgrows := capture_grows X (P.size body + 1) data body S.inner
  have hshows := capture_shows X (P.size body + 1) data S.inner hreads
  simp only [gather]
  cases hv : (capture P.toService (P.size body + 1) data body S.inner).value with
  | pending data' rest =>
    rw [hv] at hshows
    refine Polled.goesOn _ hs ⟨e, flight, ⟨hl.plays, ?_⟩, hshows, ?_⟩
    · rw [hs]
      exact hl.current
    · intro hstatus
      exact hgrows.failed (hhead hstatus)
  | whole data' =>
    simp only [conclude, Step.after, hs]
    apply Polled.led key (.ok (.ofHead head data')) e flight hl rfl
    intro hbad
    exact hgrows.failed (hhead hbad)
  | failed f =>
    rw [hv] at hshows
    simp only [conclude, Step.after, hs]
    apply Polled.led key (.error f) e flight hl rfl
    intro _
    exact hshows

/-- **All that polling can come to.** -/
theorem Acts.polled {call : Call K P.Call P.Body} (h : Acts X cast n s call) (now : Instant) :
    Polled X cast n s (poll o P.toService now call s).state
      (poll o P.toService now call s).value := by
  cases call with
  | passed inner =>
    obtain ⟨e, hplays, hruns⟩ := h
    have htells := X.poll_tells now inner s.inner e hruns
    show Polled X cast n s ⟨s.own, (P.poll now inner s.inner).state⟩
      ((P.poll now inner s.inner).value.map .passed .passed)
    cases hv : (P.poll now inner s.inner).value with
    | pending inner' =>
      rw [hv] at htells
      exact Polled.goesOn _ rfl ⟨e, hplays, htells⟩
    | done answer =>
      rw [hv] at htells
      cases answer with
      | ok r =>
        refine Polled.ran (.ok (r.withBody (.passed r.body))) e rfl hplays ?_
        intro hbad
        exact htells.2 hbad
      | error f =>
        refine Polled.ran (.error f) e rfl hplays ?_
        intro _
        exact htells
  | leading key inner =>
    obtain ⟨e, flight, hl, hruns⟩ := h
    have htells := X.poll_tells now inner s.inner e hruns
    simp only [poll]
    cases hv : (P.poll now inner s.inner).value with
    | pending inner' =>
      rw [hv] at htells
      exact Polled.goesOn _ rfl ⟨e, flight, hl, htells⟩
    | done answer =>
      rw [hv] at htells
      cases answer with
      | ok r =>
        obtain ⟨hreads, hhead⟩ := htells
        exact polled_gather (s := s) ⟨s.own, (P.poll now inner s.inner).state⟩ rfl [] hl hreads
          hhead
      | error f =>
        simp only [conclude, Step.after]
        apply Polled.led key (.error f) e flight hl rfl
        intro _
        exact htells
  | capturing key head data rest =>
    obtain ⟨e, flight, hl, hreads, hhead⟩ := h
    exact polled_gather s rfl data hl hreads hhead
  | waiting flight =>
    simp only [poll]
    cases hlanding : s.own.landing? flight with
    | none => exact Polled.goesOn _ rfl h
    | some landing => cases landing <;> exact Polled.waited flight _ rfl h hlanding

theorem poll_grows (o : CoalescerOptions K) (now : Instant) (call : Call K P.Call P.Body)
    (s : State K P.toService) :
    (X.log s.inner).Grows (X.log (poll o P.toService now call s).state.inner) := by
  have hgather : ∀ key head data body (S : State K P.toService),
      (X.log S.inner).Grows (X.log (gather o P.toService key head data body S).state.inner) := by
    intro key head data body S
    have hgrows := capture_grows X (P.size body + 1) data body S.inner
    unfold gather
    dsimp only
    split <;> exact hgrows
  cases call with
  | passed inner => exact X.poll_grows now inner s.inner
  | leading key inner =>
    have hpoll := X.poll_grows now inner s.inner
    unfold poll
    dsimp only
    split
    · exact hpoll
    · exact hpoll.trans (hgather _ _ _ _ ⟨s.own, (P.poll now inner s.inner).state⟩)
    · exact hpoll
  | capturing key head data body => exact hgather key head data body s
  | waiting flight =>
    unfold poll
    dsimp only
    split <;> exact .refl _

/-- **A call that fails is to be blamed for it or its leader is.** -/
theorem Polled.blamed {answer : Answer (Relayed P.Body)}
    (h : Polled X cast n s s' (.done answer)) (hbad : Metered.isError answer = true)
    (hgrows : (X.log s.inner).Grows (X.log s'.inner))
    (htold : ∀ flight landing, s.own.landing? flight = some landing →
      Told cast (X.log s.inner).failed flight landing) :
    Blamed cast (X.log s'.inner).failed n := by
  cases h with
  | ran answer e own plays why => exact .inl ⟨e, none, plays, why hbad⟩
  | led key result e flight leads own why =>
    rw [isError_delivered, failing_complete] at hbad
    exact .inl ⟨e, some flight, leads.plays, why hbad⟩
  | waited flight landing own plays landed =>
    have hleader := htold flight landing landed
    cases landing with
    | completed result =>
      rw [landedAnswer, isError_delivered] at hbad
      obtain ⟨leader, e, hplays, he⟩ := hleader hbad
      exact .inr ⟨flight, plays, leader, e, hplays, .inl (hgrows.failed he)⟩
    | cancelled =>
      obtain ⟨leader, e, hplays, hdropped⟩ := hleader
      exact .inr ⟨flight, plays, leader, e, hplays, .inr hdropped⟩

/-! ### The invariant -/

section

variable {t t' : Callers K P}

theorem Staged.keep (h : Staged X cast t) (hlength : t'.slots.length = t.slots.length)
    (hown : t'.state.own = t.state.own)
    (hgrows : (X.log t.state.inner).Grows (X.log t'.state.inner))
    (hcalls : ∀ n call, t'.slots[n]? = some (.calling call) →
      Acts X cast n t'.state call ∨ t.slots[n]? = some (.calling call)) : Staged X cast t' where
  length := h.length.trans hlength.symm
  numbered := by
    rw [hown, hgrows.started]
    exact h.numbered
  acts n call hslot := by
    rcases hcalls n call hslot with hnew | hold
    · exact hnew
    · apply (h.acts n call hold).mono (Cast.Extends.refl cast) hgrows.failed
      intro key e flight hl
      rw [hown]
      exact hl.current
  told flight landing hlanded := by
    rw [hown] at hlanded
    exact (h.told flight landing hlanded).mono (Cast.Extends.refl cast) hgrows.failed

theorem Staged.leave (h : Staged X cast t) (n : Nat) : Staged X (cast.leave n) t where
  length := h.length
  numbered := ⟨h.numbered.execution, h.numbered.flight, h.numbered.one_execution,
    h.numbered.one_leader, h.numbered.played⟩
  acts n' call hslot := by
    apply (h.acts n' call hslot).mono (cast.extends_leave n) (Finset.Subset.refl _)
    intro key e flight hl
    exact hl.current
  told flight landing hlanded :=
    (h.told flight landing hlanded).mono (cast.extends_leave n) (Finset.Subset.refl _)

/-- The flight of a leader is over. -/
theorem Staged.land (h : Staged X cast t) {key : K} {e : Nat} {flight : FlightId}
    (hl : Leads t.state.own cast n key e flight) {dropped : List Nat}
    (hdropped : ∀ n ∈ cast.dropped, n ∈ dropped)
    (hlength : t'.slots.length = t.slots.length)
    (hcurrent : ∀ k, t'.state.own.current? k =
      if key = k then none else t.state.own.current? k)
    (hnext : t'.state.own.next = t.state.own.next)
    (hlanding : ∀ g, t'.state.own.landing? g = t.state.own.landing? g ∨ (g = flight ∧
      ∃ landing, t'.state.own.landing? g = some landing ∧
        Told ⟨cast.parts, dropped⟩ (X.log t'.state.inner).failed g landing))
    (hgrows : (X.log t.state.inner).Grows (X.log t'.state.inner))
    (hcalls : ∀ n' call, t'.slots[n']? = some (.calling call) →
      n' ≠ n ∧ t.slots[n']? = some (.calling call)) :
    Staged X ⟨cast.parts, dropped⟩ t' := by
  have hextends : cast.Extends ⟨cast.parts, dropped⟩ := ⟨fun _ _ hn => hn, hdropped⟩
  refine ⟨h.length.trans hlength.symm, ?_, ?_, ?_⟩
  · rw [hnext, hgrows.started]
    exact ⟨h.numbered.execution, h.numbered.flight, h.numbered.one_execution,
      h.numbered.one_leader, h.numbered.played⟩
  · intro n' call hslot
    obtain ⟨hother, hold⟩ := hcalls n' call hslot
    apply (h.acts n' call hold).mono hextends hgrows.failed
    intro key' e' flight' hl'
    -- two leaders of one key would be leaders of one flight
    have hkey : key ≠ key' := by
      intro heq
      subst heq
      have hsame : flight' = flight := Option.some.inj (hl'.current.symm.trans hl.current)
      subst hsame
      exact hother (h.numbered.one_leader n' n e' e flight' hl'.plays hl.plays)
    rw [hcurrent, if_neg hkey]
    exact hl'.current
  · intro g landing hlanded
    rcases hlanding g with hsame | ⟨_, landing', hlanded', htold⟩
    · rw [hsame] at hlanded
      exact (h.told g landing hlanded).mono hextends hgrows.failed
    · rw [hlanded'] at hlanded
      cases hlanded
      exact htold

theorem calling_of_set {κ β : Type} {slots : List (Slot κ β)} {slot : Slot κ β} {n' : Nat}
    {call : κ} (hslot : ∀ c, slot ≠ .calling c)
    (h : (slots.set n slot)[n']? = some (.calling call)) :
    n' ≠ n ∧ slots[n']? = some (.calling call) := by
  rcases getElem?_set_cases h with ⟨_, hcall⟩ | hold
  · exact absurd hcall (hslot call)
  · exact hold

/-- What polling a call comes to keeps the invariant. -/
theorem Polled.staged {value : Progress (Call K P.Call P.Body) (Relayed P.Body)}
    (hp : Polled X cast n t.state s' value) (h : Staged X cast t)
    (hgrows : (X.log t.state.inner).Grows (X.log s'.inner)) :
    Staged X cast { t with state := s', slots := t.slots.set n (.ofProgress value) } := by
  have hover : ∀ (answer : Answer (Relayed P.Body)) (c : Call K P.Call P.Body),
      Slot.ofProgress (.done answer) ≠ .calling c := by
    intro answer c
    cases answer <;> simp [Slot.ofProgress]
  cases hp with
  | goesOn call own acts =>
    apply h.keep (List.length_set ..) own hgrows
    intro n' call' hslot
    rcases getElem?_set_cases hslot with ⟨rfl, hcall⟩ | ⟨_, hold⟩
    · cases hcall
      exact .inl acts
    · exact .inr hold
  | ran answer e own plays why =>
    apply h.keep (List.length_set ..) own hgrows
    intro n' call' hslot
    exact .inr (calling_of_set (hover _) hslot).2
  | led key result e flight leads own why =>
    refine h.land leads (fun _ hn => hn) (List.length_set ..) ?_ ?_ ?_ hgrows ?_
    · intro k
      rw [own, Flights.current_complete]
    · rw [own, Flights.next_complete]
    · intro g
      rw [own]
      rcases Flights.landing_complete (g := g) leads.current with hsame | ⟨hg, hlanded⟩
      · exact .inl hsame
      · refine .inr ⟨hg, _, hlanded, ?_⟩
        intro hbad
        rw [failing_sharedResult] at hbad
        rw [hg]
        exact ⟨n, e, leads.plays, why hbad⟩
    · intro n' call' hslot
      exact calling_of_set (hover _) hslot
  | waited flight landing own plays landed =>
    apply h.keep (List.length_set ..) own hgrows
    intro n' call' hslot
    exact .inr (calling_of_set (hover _) hslot).2

/-- A call is given up; a leader's flight is cancelled. -/
theorem Staged.abandon (h : Staged X cast t) {call : Call K P.Call P.Body}
    (hslot : t.slots[n]? = some (.calling call)) :
    Staged X (cast.leave n)
      { t with state := abandon P.toService call t.state, slots := t.slots.set n .gone } := by
  have hmem : ∀ n' ∈ cast.dropped, n' ∈ n :: cast.dropped := fun _ hn =>
    List.mem_cons_of_mem n hn
  have hothers : ∀ n' call', (t.slots.set n .gone)[n']? = some (.calling call') →
      n' ≠ n ∧ t.slots[n']? = some (.calling call') := fun n' call' hn =>
    calling_of_set (fun _ => by simp) hn
  have hcancel : ∀ {key : K} {e : Nat} {flight : FlightId} {s : P.State},
      Leads t.state.own cast n key e flight → X.log s = X.log t.state.inner →
      Staged X (cast.leave n)
        { t with state := ⟨t.state.own.cancel key, s⟩, slots := t.slots.set n .gone } := by
    intro key e flight s hl hlog
    have hgrows : (X.log t.state.inner).Grows (X.log s) := .of_eq hlog
    refine h.land hl hmem (List.length_set ..) ?_ Flights.next_cancel ?_ hgrows hothers
    · intro k
      exact Flights.current_cancel
    · intro g
      rcases Flights.landing_cancel (g := g) hl.current with hsame | ⟨hg, hlanded⟩
      · exact .inl hsame
      · refine .inr ⟨hg, .cancelled, hlanded, n, e, ?_, List.mem_cons_self ..⟩
        rw [hg]
        exact hl.plays
  have hleft : ∀ {s : State K P.toService}, s.own = t.state.own →
      X.log s.inner = X.log t.state.inner →
      Staged X (cast.leave n) { t with state := s, slots := t.slots.set n .gone } := by
    intro s hown hlog
    have hkept : Staged X cast { t with state := s, slots := t.slots.set n .gone } :=
      h.keep (List.length_set ..) hown (.of_eq hlog)
        (fun n' call' hn => .inr (hothers n' call' hn).2)
    exact hkept.leave n
  have hact := h.acts n call hslot
  cases call with
  | passed inner => exact hleft rfl (X.abandon_log inner t.state.inner)
  | leading key inner =>
    obtain ⟨e, flight, hl, _⟩ := hact
    exact hcancel hl (X.abandon_log inner t.state.inner)
  | capturing key head data rest =>
    obtain ⟨e, flight, hl, _⟩ := hact
    exact hcancel hl rfl
  | waiting flight => exact hleft rfl rfl

end

/-! ### Moves -/

variable (o X)

/-- The cast after a move. -/
def castNext (t : Callers K P) (m : Move π η) (cast : Cast) : Cast :=
  match m with
  | .call r _ => cast.enter (some (part X o r t.state))
  | .skip => cast.enter none
  | .drop n =>
    match t.slots[n]? with
    | some (.calling _) => cast.leave n
    | _ => cast
  | _ => cast

variable {o X} {t : Callers K P}

theorem extends_castNext (m : Move π η) : cast.Extends (castNext X o t m cast) := by
  unfold castNext
  split
  · exact cast.extends_enter _
  · exact cast.extends_enter none
  · split
    · exact cast.extends_leave _
    · exact .refl cast
  · exact .refl cast

variable (o) in
def move (t : Callers K P) (m : Move π η) : Callers K P := (P.coalesced o).step t m

theorem move_poll_cases (o : CoalescerOptions K) (t : Callers K P) (n : Nat) :
    ((∀ call, t.slots[n]? ≠ some (.calling call)) ∧ move o t (.poll n) = t) ∨
    (∃ call, t.slots[n]? = some (.calling call) ∧
      move o t (.poll n) =
        { t with
            state := (poll o P.toService t.now call t.state).state
            slots := t.slots.set n (.ofProgress (poll o P.toService t.now call t.state).value) }) :=
  (P.coalesced o).stepPoll_cases t n

theorem move_drop_cases (o : CoalescerOptions K) (t : Callers K P) (n : Nat) :
    ((t.slots[n]? = none ∨ t.slots[n]? = some .gone) ∧ move o t (.drop n) = t) ∨
    (∃ call, t.slots[n]? = some (.calling call) ∧
      move o t (.drop n) =
        { t with state := abandon P.toService call t.state, slots := t.slots.set n .gone }) ∨
    (∃ body, t.slots[n]? = some (.reading body) ∧
      move o t (.drop n) = { t with slots := t.slots.set n .gone }) :=
  (P.coalesced o).stepDrop_cases t n

theorem move_pull_cases (o : CoalescerOptions K) (t : Callers K P) (n : Nat) :
    ((∀ body, t.slots[n]? ≠ some (.reading body)) ∧ move o t (.pull n) = t) ∨
    (∃ body, t.slots[n]? = some (.reading body) ∧
      move o t (.pull n) =
        { t with
            state := (Relayed.pull P.toService body t.state).state
            slots := t.slots.set n
              (.reading (restOf (Relayed.pull P.toService body t.state).value)) }) :=
  (P.coalesced o).stepPull_cases t n

theorem Staged.poll (h : Staged X cast t) (n : Nat) : Staged X cast (move o t (.poll n)) := by
  rcases move_poll_cases o t n with ⟨_, hidle⟩ | ⟨call, hslot, hpoll⟩
  · rw [hidle]
    exact h
  · have hp := (h.acts n call hslot).polled (o := o) t.now
    rw [hpoll]
    exact hp.staged h (poll_grows o t.now call t.state)

/-- **A call under way that comes to a failure is to be blamed for it.** -/
theorem Staged.blamed (h : Staged X cast t) {call : Call K P.Call P.Body}
    (hslot : t.slots[n]? = some (.calling call)) {answer : Answer (Relayed P.Body)}
    (hdone : (Coalesced.poll o P.toService t.now call t.state).value = .done answer)
    (hbad : Metered.isError answer = true) :
    Blamed cast (X.log (move o t (.poll n)).state.inner).failed n := by
  have hp := (h.acts n call hslot).polled (o := o) t.now
  have hmove : (move o t (.poll n)).state =
      (Coalesced.poll o P.toService t.now call t.state).state :=
    congrArg Traffic.state (Pipeline.stepPoll_calling (P := P.coalesced o) hslot)
  rw [hdone] at hp
  rw [hmove]
  exact hp.blamed hbad (poll_grows o t.now call t.state) h.told

theorem Staged.drop (h : Staged X cast t) (n : Nat) :
    Staged X (castNext X o t (.drop n) cast) (move o t (.drop n)) := by
  rcases move_drop_cases o t n with ⟨hn, hidle⟩ | ⟨call, hslot, hdrop⟩ | ⟨body, hslot, hdrop⟩
  · have hcast : castNext X o t (.drop n) cast = cast := by
      rcases hn with hn | hn <;> simp only [castNext, hn]
    rw [hcast, hidle]
    exact h
  · have hcast : castNext X o t (.drop n) cast = cast.leave n := by simp only [castNext, hslot]
    rw [hcast, hdrop]
    exact h.abandon hslot
  · have hcast : castNext X o t (.drop n) cast = cast := by simp only [castNext, hslot]
    rw [hcast, hdrop]
    refine h.keep (List.length_set ..) rfl (.refl _) ?_
    intro n' call' hn
    exact .inr (calling_of_set (fun _ => by simp) hn).2

omit [DecidableEq K] in
theorem pull_keeps (body : Relayed P.Body) (s : State K P.toService) :
    (Relayed.pull P.toService body s).state.own = s.own ∧
      (X.log s.inner).Grows (X.log (Relayed.pull P.toService body s).state.inner) := by
  cases body with
  | own r => exact ⟨rfl, .refl _⟩
  | passed inner => exact ⟨rfl, X.pull_grows inner s.inner⟩

theorem Staged.pull (h : Staged X cast t) (n : Nat) : Staged X cast (move o t (.pull n)) := by
  rcases move_pull_cases o t n with ⟨_, hidle⟩ | ⟨body, hslot, hpull⟩
  · rw [hidle]
    exact h
  · obtain ⟨hown, hgrows⟩ := pull_keeps (X := X) body t.state
    rw [hpull]
    apply h.keep (List.length_set ..) hown hgrows
    intro n' call' hn
    exact .inr (calling_of_set (fun _ => by simp) hn).2

/-- **Every move keeps the coalescer and the cast in agreement.** -/
theorem Staged.move (h : Staged X cast t) (m : Move π η) :
    Staged X (castNext X o t m cast) (move o t m) := by
  cases m with
  | ready => exact h.keep rfl rfl (.of_eq (X.ready_log t.state.inner)) fun _ _ hn => .inr hn
  | call r p => exact h.call r p
  | skip => exact h.skip
  | poll n => exact h.poll n
  | drop n => exact h.drop n
  | pull n => exact h.pull n
  | advance d => exact h.keep rfl rfl (.refl _) fun _ _ hn => .inr hn
  | order order =>
    have hlog := X.obey_log t.now order t.state.inner
    exact h.keep rfl rfl (.of_eq hlog) fun _ _ hn => .inr hn
  | core change =>
    have hlog := X.core_log (change (P.core t.state.inner)) t.state.inner
    exact h.keep rfl rfl (.of_eq hlog) fun _ _ hn => .inr hn

theorem failed_move (t : Callers K P) (m : Move π η) :
    (X.log t.state.inner).failed ⊆ (X.log (move o t m).state.inner).failed := by
  have hsame : ∀ {l : Log}, l = X.log t.state.inner → (X.log t.state.inner).failed ⊆ l.failed := by
    intro l hl
    rw [hl]
  cases m with
  | ready => exact hsame (X.ready_log t.state.inner)
  | call r p =>
    have hstart : (X.log t.state.inner).failed ⊆
        (X.log (P.start t.now r p t.state.inner).state).failed := by
      rw [X.start_log]
      exact Finset.Subset.refl _
    show _ ⊆ (X.log (start o P.toService t.now r p t.state).state.inner).failed
    unfold start
    split
    · exact hstart
    · dsimp only
      split
      · exact hsame rfl
      · exact hstart
  | skip => exact hsame rfl
  | poll n =>
    rcases move_poll_cases o t n with ⟨_, hidle⟩ | ⟨call, _, hpoll⟩
    · rw [hidle]
    · rw [hpoll]
      exact (poll_grows o t.now call t.state).failed
  | drop n =>
    rcases move_drop_cases o t n with ⟨_, hidle⟩ | ⟨call, _, hdrop⟩ | ⟨body, _, hdrop⟩
    · rw [hidle]
    · rw [hdrop]
      cases call with
      | passed inner => exact hsame (X.abandon_log inner t.state.inner)
      | leading key inner => exact hsame (X.abandon_log inner t.state.inner)
      | capturing key head data rest => exact hsame rfl
      | waiting flight => exact hsame rfl
    · rw [hdrop]
  | pull n =>
    rcases move_pull_cases o t n with ⟨_, hidle⟩ | ⟨body, _, hpull⟩
    · rw [hidle]
    · rw [hpull]
      exact (pull_keeps body t.state).2.failed
  | advance d => exact hsame rfl
  | order order => exact hsame (X.obey_log t.now order t.state.inner)
  | core change => exact hsame (X.core_log (change (P.core t.state.inner)) t.state.inner)

end Coalesced

end Floodgate
