/-
  Floodgate/Proofs/Coalescing/Manifest.lean
  =========================================
  **Flights and the calls on them.**  `Manifest` ties the flights of a coalescer to the
  accounts of all calls made at it: a flight is under way for a key as long as its
  leader is, with as many passengers as have joined it, and when the leader has ended
  those who joined find under the number of the flight how it ended (`Landed`).

  No two leaders have flights of one number.  That is why a leader that ends can only
  take away a flight of its own, however many flights there have been for its key.

  There is a lemma for each thing that can happen to the flights: a call comes that has
  nothing to do with them (`enter`), a leader (`lead`), one that joins (`board`); a call
  goes on or ends without touching them (`carryOn`); a leader ends (`land`).  Every move
  at a coalescer is one of these (`step`), so every run keeps the invariant (`manifest_run`).
-/
import Floodgate.Proofs.Coalescing.Course

namespace Floodgate

open Http (Bytes Request)

namespace Coalesced

variable {π η K : Type} [DecidableEq K] {o : CoalescerOptions K} {P : Pipeline π η}

/-! ### Accounts at a coalescer -/

/-- The account of a call at a coalescer. -/
abbrev Booking (o : CoalescerOptions K) (P : Pipeline π η) := Account (P.coalesced o).toService

namespace Booking

variable (a : Booking o P)

/-- The key of the flight that the call leads. -/
def key? : Option K := Call.key? a.opening

/-- The flight that the call has joined. -/
def joined? : Option FlightId := Call.flight? a.opening

/-- The number that flights had come to when the call was made; a leader's flight has it. -/
def flight : FlightId := a.state.own.next

/-- The last poll of the call has found what its execution came to. -/
def Brings (result : Except Failure Captured) : Prop :=
  ∃ earlier last call, a.moments = earlier ++ [last] ∧
    (P.coalesced o).course a.opening earlier = .pending call ∧
    outcome? P.toService last.1 call last.2.inner = some result

variable {a} {a' : Booking o P} {key : K} {g : FlightId}

theorem key?_extends (h : a.Extends a') : a'.key? = a.key? := by
  simp only [key?, h.opening]

theorem joined?_extends (h : a.Extends a') : a'.joined? = a.joined? := by
  simp only [joined?, h.opening]

theorem flight_extends (h : a.Extends a') : a'.flight = a.flight := by
  simp only [flight, h.opened.2.2.2]

theorem joined?_of_key? (h : a.key? = some key) : a.joined? = none := by
  unfold key? at h
  unfold joined?
  generalize a.opening = call at h ⊢
  cases call with
  | waiting flight => cases h
  | _ => rfl

end Booking

/-- How the leader of a flight has ended, with so many that joined it, and what is left for
    them. -/
inductive Landed (f : Flights K Captured) (waiters : Nat) (a : Booking o P) : Prop where
  | cancelled (dropped : a.dropped = true) (left : f.landing? a.flight = some .cancelled)
  | completed (result : Except Failure Captured) (kept : a.dropped = false)
      (brings : a.Brings result)
      (answer : a.progress =
        .done (delivered (if waiters = 0 then result else Flights.sharedResult result)))
      (left : waiters ≠ 0 →
        f.landing? a.flight = some (.completed (Flights.sharedResult result)))

theorem Landed.congr {f f' : Flights K Captured} {waiters : Nat} {a : Booking o P}
    (h : Landed f waiters a) (hsame : f'.landing? a.flight = f.landing? a.flight) :
    Landed f' waiters a := by
  cases h with
  | cancelled dropped left => exact .cancelled dropped (hsame.trans left)
  | completed result kept brings answer left =>
    exact .completed result kept brings answer fun hw => hsame.trans (left hw)

/-! ### Passengers -/

/-- How many calls have joined a flight. -/
def boarded (as : (P.coalesced o).Accounts) (g : FlightId) : Nat :=
  (as.map fun a => a.bind Booking.joined?).count (some g)

variable {as : (P.coalesced o).Accounts} {a a' : Booking o P} {n n' : Nat} {key : K}
  {g : FlightId} {f f' : Flights K Captured}

theorem boarded_concat (as : (P.coalesced o).Accounts) (x : Option (Booking o P)) (g : FlightId) :
    boarded (as ++ [x]) g = boarded as g + if x.bind Booking.joined? = some g then 1 else 0 := by
  simp only [boarded, List.map_append, List.map_cons, List.map_nil, List.count_append,
    List.count_singleton, beq_iff_eq]

theorem boarded_set (hn : as[n]? = some (some a)) (h : a.Extends a') (g : FlightId) :
    boarded (as.set n (some a')) g = boarded as g := by
  unfold boarded
  rw [List.map_set, set_getElem?_eq_self]
  rw [List.getElem?_map, hn]
  exact congrArg some (Booking.joined?_extends h).symm

theorem boarded_pos (hn : as[n]? = some (some a)) (hg : a.joined? = some g) :
    boarded as g ≠ 0 := by
  have hmem : some g ∈ as.map fun a => a.bind Booking.joined? :=
    List.mem_map.mpr ⟨some a, List.mem_of_getElem? hn, hg⟩
  exact Nat.pos_iff_ne_zero.mp (List.count_pos_iff.mpr hmem)

theorem boarded_eq_zero
    (h : ∀ (n : Nat) (a : Booking o P), as[n]? = some (some a) → a.joined? ≠ some g) :
    boarded as g = 0 := by
  apply List.count_eq_zero.mpr
  intro hmem
  obtain ⟨x, hx, hg⟩ := List.mem_map.mp hmem
  obtain ⟨a, rfl, hjoined⟩ := Option.bind_eq_some_iff.mp hg
  obtain ⟨n, hn⟩ := List.mem_iff_getElem?.mp hx
  exact h n a hn hjoined

/-! ### The invariant -/

/-- A call leads a flight for a key, or did when it was under way. -/
structure Leader (as : (P.coalesced o).Accounts) (n : Nat) (a : Booking o P) (key : K) :
    Prop where
  told : as[n]? = some (some a)
  key : a.key? = some key

/-- The flights of a coalescer and the accounts of its calls agree. -/
structure Manifest (as : (P.coalesced o).Accounts) (f : Flights K Captured) : Prop where
  begun : ∀ n a key, Leader as n a key → a.flight < f.next
  one_leader : ∀ n n' a a' key key', Leader as n a key → Leader as n' a' key' →
    a.flight = a'.flight → n = n'
  /-- A leader under way has its flight in the table, with those who have joined it. -/
  flying : ∀ n a key, Leader as n a key → a.call?.isSome = true →
    f.inFlight.get? key = some ⟨a.flight, boarded as a.flight⟩ ∧ f.landing? a.flight = none
  /-- No flight is in the table without a leader. -/
  manned : ∀ key flight, f.inFlight.get? key = some flight →
    ∃ n a, Leader as n a key ∧ a.call?.isSome = true
  landed : ∀ n a key, Leader as n a key → a.call? = none → Landed f (boarded as a.flight) a
  /-- Whoever has joined a flight has joined the leader of its own key. -/
  followed : ∀ (n : Nat) (a : Booking o P) g, as[n]? = some (some a) → a.joined? = some g →
    ∃ n' a' key, Leader as n' a' key ∧ a'.flight = g ∧ o.key? a.request = some key
  reported : ∀ g landing, f.landing? g = some landing → g < f.next
  /-- Whoever has waited to the end has what is left under the number of the flight. -/
  served : ∀ (n : Nat) (a : Booking o P) g answer, as[n]? = some (some a) → a.joined? = some g →
    a.progress = .done answer →
      ∃ landing, f.landing? g = some landing ∧ answer = landedAnswer landing
  distinct : f.keys.Nodup

theorem manifest_nil : Manifest ([] : (P.coalesced o).Accounts) .none := by
  refine ⟨?_, ?_, ?_, ?_, ?_, ?_, ?_, ?_, List.nodup_nil⟩
  · rintro n a key ⟨htold, _⟩
    cases htold
  · rintro n n' a a' key key' ⟨htold, _⟩
    cases htold
  · rintro n a key ⟨htold, _⟩
    cases htold
  · intro key flight hget
    cases hget
  · rintro n a key ⟨htold, _⟩
    cases htold
  · intro n a g htold
    cases htold
  · intro g landing hlanding
    cases hlanding
  · intro n a g answer htold
    cases htold

namespace Manifest

/-- Who finds a flight under way finds the one of its leader. -/
theorem leader_of_current (h : Manifest as f) (hcurrent : f.current? key = some g) :
    ∃ n a, Leader as n a key ∧ a.call?.isSome = true ∧ a.flight = g := by
  obtain ⟨waiters, hget⟩ := Flights.flight_of_current hcurrent
  obtain ⟨n, a, hleader, hlive⟩ := h.manned key _ hget
  have hown := (h.flying n a key hleader hlive).1
  rw [hget] at hown
  cases hown
  exact ⟨n, a, hleader, hlive, rfl⟩

/-- Two leaders under way for one key are the same. -/
theorem leader_unique (h : Manifest as f) (hn : Leader as n a key) (hlive : a.call?.isSome = true)
    (hn' : Leader as n' a' key) (hlive' : a'.call?.isSome = true) : n = n' := by
  have hget := (h.flying n a key hn hlive).1
  rw [(h.flying n' a' key hn' hlive').1] at hget
  exact h.one_leader n n' a a' key key hn hn' (congrArg Flight.id (Option.some.inj hget)).symm

/-- The number of a flight tells its leader. -/
theorem leader_eq {key' : K} (h : Manifest as f) (hn : Leader as n a key)
    (hn' : Leader as n' a' key') (hflight : a.flight = a'.flight) : a = a' ∧ key = key' := by
  have hsame := h.one_leader n n' a a' key key' hn hn' hflight
  subst hsame
  have htold := hn.told
  rw [hn'.told] at htold
  cases htold
  exact ⟨rfl, Option.some.inj (hn.key.symm.trans hn'.key)⟩

/-! ### Calls that come -/

theorem leader_concat {x : Option (Booking o P)} (h : Leader (as ++ [x]) n a key) :
    (n = as.length ∧ x = some a ∧ a.key? = some key) ∨ Leader as n a key := by
  rcases getElem?_concat_cases h.told with ⟨hn, hx⟩ | ⟨_, hold⟩
  · exact .inl ⟨hn, hx, h.key⟩
  · exact .inr ⟨hold, h.key⟩

theorem leader_append (h : Leader as n a key) (x : Option (Booking o P)) :
    Leader (as ++ [x]) n a key := by
  obtain ⟨hn, _⟩ := List.getElem?_eq_some_iff.mp h.told
  exact ⟨(List.getElem?_append_left hn).trans h.told, h.key⟩

theorem leader_old {x : Option (Booking o P)} (hx : ∀ b, x = some b → b.key? = none)
    (h : Leader (as ++ [x]) n a key) : Leader as n a key := by
  rcases leader_concat h with ⟨_, hlast, hled⟩ | hold
  · rw [hx a hlast] at hled
    cases hled
  · exact hold

theorem followed_concat (h : Manifest as f) {x : Option (Booking o P)}
    (hx : ∀ b g, x = some b → b.joined? = some g →
      ∃ m leader key, Leader as m leader key ∧ leader.flight = g ∧ o.key? b.request = some key)
    (hn : (as ++ [x])[n]? = some (some a)) (hg : a.joined? = some g) :
    ∃ m leader key, Leader (as ++ [x]) m leader key ∧ leader.flight = g ∧
      o.key? a.request = some key := by
  have hold : ∃ m leader key, Leader as m leader key ∧ leader.flight = g ∧
      o.key? a.request = some key := by
    rcases getElem?_concat_cases hn with ⟨_, hlast⟩ | ⟨_, hn⟩
    · exact hx a g hlast hg
    · exact h.followed n a g hn hg
  obtain ⟨m, leader, key, hleader, hflight, hrequest⟩ := hold
  exact ⟨m, leader, key, leader_append hleader x, hflight, hrequest⟩

theorem served_concat (h : Manifest as f) {x : Option (Booking o P)}
    (hx : ∀ b g, x = some b → b.joined? = some g → b.call?.isSome = true)
    (hn : (as ++ [x])[n]? = some (some a)) (hg : a.joined? = some g)
    {answer : Answer (P.coalesced o).Body} (hdone : a.progress = .done answer) :
    ∃ landing, f.landing? g = some landing ∧ answer = landedAnswer landing := by
  rcases getElem?_concat_cases hn with ⟨_, hlast⟩ | ⟨_, hn⟩
  · have hwaits := hx a g hlast hg
    rw [Account.call?_of_done hdone] at hwaits
    cases hwaits
  · exact h.served n a g answer hn hg hdone

/-- A call comes that neither leads nor joins, or there is a gap in the numbers. -/
theorem enter (h : Manifest as f) {x : Option (Booking o P)}
    (hkey : ∀ a, x = some a → a.key? = none ∧ a.joined? = none) : Manifest (as ++ [x]) f := by
  have hold : ∀ {n a key}, Leader (as ++ [x]) n a key → Leader as n a key :=
    leader_old fun a hx => (hkey a hx).1
  have hjoined : ∀ a g, x = some a → a.joined? ≠ some g := by
    intro a g hx hg
    rw [(hkey a hx).2] at hg
    cases hg
  have hboarded : ∀ g, boarded (as ++ [x]) g = boarded as g := by
    intro g
    rw [boarded_concat]
    cases x with
    | none => rfl
    | some a => simp [(hkey a rfl).2]
  refine ⟨?_, ?_, ?_, ?_, ?_, ?_, h.reported, ?_, h.distinct⟩
  · intro n a key hn
    exact h.begun n a key (hold hn)
  · intro n n' a a' key key' hn hn'
    exact h.one_leader n n' a a' key key' (hold hn) (hold hn')
  · intro n a key hn hlive
    rw [hboarded]
    exact h.flying n a key (hold hn) hlive
  · intro key flight hget
    obtain ⟨n, a, hn, hlive⟩ := h.manned key flight hget
    exact ⟨n, a, leader_append hn x, hlive⟩
  · intro n a key hn hover
    rw [hboarded]
    exact h.landed n a key (hold hn) hover
  · intro n a g hn hg
    exact h.followed_concat (fun a g hx hg => absurd hg (hjoined a g hx)) hn hg
  · intro n a g answer hn hg hdone
    exact h.served_concat (fun a g hx hg => absurd hg (hjoined a g hx)) hn hg hdone

/-- Nobody has joined a flight that has not begun. -/
theorem boarded_next (h : Manifest as f) : boarded as f.next = 0 := by
  apply boarded_eq_zero
  intro n a hn hg
  obtain ⟨n', a', key, hleader, hflight, _⟩ := h.followed n a _ hn hg
  exact absurd hflight (Nat.ne_of_lt (h.begun n' a' key hleader))

/-- A leader comes. -/
theorem lead (h : Manifest as f) (hnone : f.current? key = none) (hkey : a.key? = some key)
    (hflight : a.flight = f.next) (hlive : a.call?.isSome = true) :
    Manifest (as ++ [some a]) (f.join key).2 := by
  have hcases : ∀ {n a' key'}, Leader (as ++ [some a]) n a' key' →
      (n = as.length ∧ a' = a ∧ key' = key) ∨ (Leader as n a' key' ∧ a'.flight < f.next) := by
    intro n a' key' hn
    rcases leader_concat hn with ⟨hlast, hx, hled⟩ | hold
    · cases hx
      rw [hkey] at hled
      cases hled
      exact .inl ⟨hlast, rfl, rfl⟩
    · exact .inr ⟨hold, h.begun n a' key' hold⟩
  have hjoined : ∀ (b : Booking o P) g, some a = some b → b.joined? ≠ some g := by
    intro b g hx hg
    cases hx
    rw [Booking.joined?_of_key? hkey] at hg
    cases hg
  have hboarded : ∀ g, boarded (as ++ [some a]) g = boarded as g := by
    intro g
    rw [boarded_concat, Option.bind_some, if_neg (hjoined a g rfl)]
    rfl
  have hself : Leader (as ++ [some a]) as.length a key := ⟨List.getElem?_concat_length, hkey⟩
  refine ⟨?_, ?_, ?_, ?_, ?_, ?_, ?_, ?_, Flights.nodup_keys_join h.distinct key⟩
  · intro n a' key' hn
    rw [Flights.next_join_leader hnone]
    rcases hcases hn with ⟨_, rfl, _⟩ | ⟨_, hlt⟩
    · rw [hflight]
      exact Nat.lt_succ_self _
    · exact Nat.lt_succ_of_lt hlt
  · intro n n' a₁ a₂ key₁ key₂ hn hn' hsame
    rcases hcases hn with ⟨rfl, rfl, _⟩ | ⟨hold, hlt⟩
    · rcases hcases hn' with ⟨rfl, _⟩ | ⟨_, hlt'⟩
      · rfl
      · exact absurd (hsame.symm.trans hflight) (Nat.ne_of_lt hlt')
    · rcases hcases hn' with ⟨rfl, rfl, _⟩ | ⟨hold', _⟩
      · exact absurd (hsame.trans hflight) (Nat.ne_of_lt hlt)
      · exact h.one_leader n n' a₁ a₂ key₁ key₂ hold hold' hsame
  · intro n a' key' hn hlive'
    rw [Flights.get?_join_leader hnone, Flights.landing_join, hboarded]
    rcases hcases hn with ⟨_, rfl, rfl⟩ | ⟨hold, _⟩
    · rw [if_pos rfl, hflight, h.boarded_next]
      refine ⟨rfl, ?_⟩
      cases hlanding : f.landing? f.next with
      | none => rfl
      | some landing => exact absurd (h.reported _ _ hlanding) (Nat.lt_irrefl _)
    · obtain ⟨hget, hlanding⟩ := h.flying n a' key' hold hlive'
      have hother : key ≠ key' := by
        rintro rfl
        rw [Flights.none_of_current hnone] at hget
        cases hget
      rw [if_neg hother]
      exact ⟨hget, hlanding⟩
  · intro key' flight hget
    rw [Flights.get?_join_leader hnone] at hget
    by_cases hother : key = key'
    · subst hother
      exact ⟨as.length, a, hself, hlive⟩
    · rw [if_neg hother] at hget
      obtain ⟨n, a', hn, hlive'⟩ := h.manned key' flight hget
      exact ⟨n, a', leader_append hn _, hlive'⟩
  · intro n a' key' hn hover
    rw [hboarded]
    rcases hcases hn with ⟨_, rfl, _⟩ | ⟨hold, _⟩
    · rw [hover] at hlive
      cases hlive
    · exact (h.landed n a' key' hold hover).congr Flights.landing_join
  · intro n a' g hn hg
    exact h.followed_concat (fun b g hx hg => absurd hg (hjoined b g hx)) hn hg
  · intro g landing hlanding
    rw [Flights.landing_join] at hlanding
    rw [Flights.next_join_leader hnone]
    exact Nat.lt_succ_of_lt (h.reported g landing hlanding)
  · intro n a' g answer hn hg hdone
    rw [Flights.landing_join]
    exact h.served_concat (fun b g hx hg => absurd hg (hjoined b g hx)) hn hg hdone

/-- A call comes that joins a leader. -/
theorem board (h : Manifest as f) (hcurrent : f.current? key = some g) (hkey : a.key? = none)
    (hjoined : a.joined? = some g) (hrequest : o.key? a.request = some key)
    (hwaits : a.call?.isSome = true) : Manifest (as ++ [some a]) (f.join key).2 := by
  obtain ⟨m, leader, hm, hlive, hg⟩ := h.leader_of_current hcurrent
  have hget := (h.flying m leader key hm hlive).1
  have hled : ∀ b, some a = some b → b.key? = none := by
    rintro b ⟨rfl⟩
    exact hkey
  have hold : ∀ {n a' key'}, Leader (as ++ [some a]) n a' key' → Leader as n a' key' :=
    leader_old hled
  have hboarded : ∀ g', boarded (as ++ [some a]) g' =
      boarded as g' + if g = g' then 1 else 0 := by
    intro g'
    rw [boarded_concat, Option.bind_some, hjoined]
    simp only [Option.some.injEq]
  refine ⟨?_, ?_, ?_, ?_, ?_, ?_, ?_, ?_, Flights.nodup_keys_join h.distinct key⟩
  · intro n a' key' hn
    rw [Flights.next_join_waiter hcurrent]
    exact h.begun n a' key' (hold hn)
  · intro n n' a₁ a₂ key₁ key₂ hn hn'
    exact h.one_leader n n' a₁ a₂ key₁ key₂ (hold hn) (hold hn')
  · intro n a' key' hn hlive'
    have hn := hold hn
    obtain ⟨hget', hlanding⟩ := h.flying n a' key' hn hlive'
    rw [Flights.get?_join_waiter hget, Flights.landing_join, hboarded]
    refine ⟨?_, hlanding⟩
    by_cases hother : key = key'
    · subst hother
      rw [hget] at hget'
      have hflight := congrArg Flight.id (Option.some.inj hget')
      dsimp only at hflight
      rw [if_pos rfl, if_pos (hg.symm.trans hflight), ← hflight, hg]
    · have hflight : ¬g = a'.flight := by
        intro hsame
        exact hother (h.leader_eq hm hn (hg.trans hsame)).2
      rw [if_neg hother, if_neg hflight]
      exact hget'
  · intro key' flight hget'
    rw [Flights.get?_join_waiter hget] at hget'
    by_cases hother : key = key'
    · subst hother
      exact ⟨m, leader, leader_append hm _, hlive⟩
    · rw [if_neg hother] at hget'
      obtain ⟨n, a', hn, hlive'⟩ := h.manned key' flight hget'
      exact ⟨n, a', leader_append hn _, hlive'⟩
  · intro n a' key' hn hover
    have hn := hold hn
    -- the flight of a leader that has ended is not the one that is joined
    have hflight : ¬g = a'.flight := by
      intro hsame
      rw [(h.leader_eq hm hn (hg.trans hsame)).1, hover] at hlive
      cases hlive
    rw [hboarded, if_neg hflight]
    exact (h.landed n a' key' hn hover).congr Flights.landing_join
  · intro n a' g' hn hg'
    refine h.followed_concat ?_ hn hg'
    rintro b g' ⟨rfl⟩ hg'
    rw [hjoined] at hg'
    cases hg'
    exact ⟨m, leader, key, hm, hg, hrequest⟩
  · intro g' landing hlanding
    rw [Flights.landing_join] at hlanding
    rw [Flights.next_join_waiter hcurrent]
    exact h.reported g' landing hlanding
  · intro n a' g' answer hn hg' hdone
    rw [Flights.landing_join]
    refine h.served_concat ?_ hn hg' hdone
    rintro b _ ⟨rfl⟩ _
    exact hwaits

/-! ### Calls that go on, and calls that end -/

theorem leader_set {b : Booking o P} (hn : as[n]? = some (some a)) (hext : a.Extends a')
    (h : Leader (as.set n (some a')) n' b key) :
    (n' = n ∧ b = a' ∧ Leader as n a key) ∨ (n' ≠ n ∧ Leader as n' b key) := by
  rcases getElem?_set_cases h.told with ⟨rfl, hb⟩ | ⟨hother, hold⟩
  · cases hb
    exact .inl ⟨rfl, rfl, hn, (Booking.key?_extends hext).symm.trans h.key⟩
  · exact .inr ⟨hother, hold, h.key⟩

theorem set_leader {b : Booking o P} (hn : as[n]? = some (some a)) (hext : a.Extends a')
    (h : Leader as n' b key) :
    ∃ b', Leader (as.set n (some a')) n' b' key ∧ b'.flight = b.flight ∧
      (n' ≠ n → b' = b) := by
  by_cases hother : n' = n
  · subst hother
    have htold := h.told
    rw [hn] at htold
    cases htold
    obtain ⟨hlt, _⟩ := List.getElem?_eq_some_iff.mp hn
    refine ⟨a', ⟨?_, (Booking.key?_extends hext).trans h.key⟩, Booking.flight_extends hext, ?_⟩
    · rw [List.getElem?_set_self hlt]
    · intro hne
      exact absurd rfl hne
  · refine ⟨b, ⟨?_, h.key⟩, rfl, fun _ => rfl⟩
    rw [List.getElem?_set_ne (Ne.symm hother)]
    exact h.told

theorem followed_set (h : Manifest as f) (hn : as[n]? = some (some a)) (hext : a.Extends a')
    {b : Booking o P} (hb : (as.set n (some a'))[n']? = some (some b))
    (hg : b.joined? = some g) :
    ∃ m leader key, Leader (as.set n (some a')) m leader key ∧ leader.flight = g ∧
      o.key? b.request = some key := by
  have hold : ∃ m leader key, Leader as m leader key ∧ leader.flight = g ∧
      o.key? b.request = some key := by
    rcases getElem?_set_cases hb with ⟨rfl, hb'⟩ | ⟨_, hb'⟩
    · cases hb'
      rw [hext.opened.2.1]
      exact h.followed n' a g hn ((Booking.joined?_extends hext).symm.trans hg)
    · exact h.followed n' b g hb' hg
  obtain ⟨m, leader, key, hleader, hflight, hrequest⟩ := hold
  obtain ⟨leader', hleader', hflight', _⟩ := set_leader hn hext hleader
  exact ⟨m, leader', key, hleader', hflight'.trans hflight, hrequest⟩

theorem begun_set (h : Manifest as f) (hn : as[n]? = some (some a)) (hext : a.Extends a')
    {b : Booking o P} (hb : Leader (as.set n (some a')) n' b key) : b.flight < f.next := by
  rcases leader_set hn hext hb with ⟨_, rfl, hold⟩ | ⟨_, hold⟩
  · rw [Booking.flight_extends hext]
    exact h.begun n a key hold
  · exact h.begun n' b key hold

theorem one_leader_set (h : Manifest as f) (hn : as[n]? = some (some a)) (hext : a.Extends a')
    {m m' : Nat} {b b' : Booking o P} {k k' : K} (hb : Leader (as.set n (some a')) m b k)
    (hb' : Leader (as.set n (some a')) m' b' k') (hsame : b.flight = b'.flight) : m = m' := by
  have hold : ∀ {m b k}, Leader (as.set n (some a')) m b k →
      ∃ b₀ : Booking o P, Leader as m b₀ k ∧ b₀.flight = b.flight := by
    intro m b k hb
    rcases leader_set hn hext hb with ⟨rfl, rfl, hold⟩ | ⟨_, hold⟩
    · exact ⟨a, hold, (Booking.flight_extends hext).symm⟩
    · exact ⟨b, hold, rfl⟩
  obtain ⟨b₀, hb₀, hflight⟩ := hold hb
  obtain ⟨b₁, hb₁, hflight'⟩ := hold hb'
  exact h.one_leader m m' b₀ b₁ k k' hb₀ hb₁ (hflight.trans (hsame.trans hflight'.symm))

/-- A leader goes on, or another call goes on or ends. -/
theorem carryOn (h : Manifest as f) (hn : as[n]? = some (some a)) (hext : a.Extends a')
    (hlive : ∀ key, a.key? = some key → a.call?.isSome = true ∧ a'.call?.isSome = true)
    (hserved : ∀ g answer, a.joined? = some g → a'.progress = .done answer →
      ∃ landing, f.landing? g = some landing ∧ answer = landedAnswer landing) :
    Manifest (as.set n (some a')) f := by
  refine ⟨?_, ?_, ?_, ?_, ?_, ?_, h.reported, ?_, h.distinct⟩
  · intro m b k hb
    exact h.begun_set hn hext hb
  · intro m m' b b' k k' hb hb'
    exact h.one_leader_set hn hext hb hb'
  · intro m b k hb hb'
    rw [boarded_set hn hext]
    rcases leader_set hn hext hb with ⟨_, rfl, hold⟩ | ⟨_, hold⟩
    · rw [Booking.flight_extends hext]
      exact h.flying n a k hold (hlive k hold.key).1
    · exact h.flying m b k hold hb'
  · intro k flight hget
    obtain ⟨m, b, hb, hb'⟩ := h.manned k flight hget
    obtain ⟨b₁, hb₁, _, hsame⟩ := set_leader hn hext hb
    refine ⟨m, b₁, hb₁, ?_⟩
    by_cases hother : m = n
    · subst hother
      rcases leader_set hn hext hb₁ with ⟨_, rfl, hold⟩ | ⟨hne, _⟩
      · exact (hlive k hold.key).2
      · exact absurd rfl hne
    · rw [hsame hother]
      exact hb'
  · intro m b k hb hover
    rw [boarded_set hn hext]
    rcases leader_set hn hext hb with ⟨_, rfl, hold⟩ | ⟨_, hold⟩
    · have hlive' := (hlive k hold.key).2
      rw [hover] at hlive'
      cases hlive'
    · exact h.landed m b k hold hover
  · intro m b g hb hg
    exact h.followed_set hn hext hb hg
  · intro m b g answer hb hg hdone
    rcases getElem?_set_cases hb with ⟨rfl, hb'⟩ | ⟨_, hb'⟩
    · cases hb'
      exact hserved g answer ((Booking.joined?_extends hext).symm.trans hg) hdone
    · exact h.served m b g answer hb' hg hdone

/-- **A leader ends**, and with it the flight of its key and no other. -/
theorem land (h : Manifest as f) (hn : Leader as n a key) (hlive : a.call?.isSome = true)
    (hext : a.Extends a') (hover : a'.call? = none) (hnext : f'.next = f.next)
    (hget : ∀ k, f'.inFlight.get? k = if key = k then none else f.inFlight.get? k)
    (hlanding : ∀ g, a.flight ≠ g → f'.landing? g = f.landing? g)
    (hlanded : Landed f' (boarded as a.flight) a') (hdistinct : f'.keys.Nodup) :
    Manifest (as.set n (some a')) f' := by
  -- no other leader has a flight of this number
  have hflight : ∀ m b k, m ≠ n → Leader as m b k → a.flight ≠ b.flight := by
    intro m b k hother hb hsame
    exact hother (h.one_leader m n b a k key hb hn hsame.symm)
  refine ⟨?_, ?_, ?_, ?_, ?_, ?_, ?_, ?_, hdistinct⟩
  · intro m b k hb
    rw [hnext]
    exact h.begun_set hn.told hext hb
  · intro m m' b b' k k' hb hb'
    exact h.one_leader_set hn.told hext hb hb'
  · intro m b k hb hb'
    rw [boarded_set hn.told hext, hget]
    rcases leader_set hn.told hext hb with ⟨_, rfl, _⟩ | ⟨hother, hold⟩
    · rw [hover] at hb'
      cases hb'
    · have hkey : ¬key = k := by
        rintro rfl
        exact hother (h.leader_unique hold hb' hn hlive)
      rw [if_neg hkey, hlanding b.flight (hflight m b k hother hold)]
      exact h.flying m b k hold hb'
  · intro k flight hflying
    rw [hget] at hflying
    by_cases hkey : key = k
    · rw [if_pos hkey] at hflying
      cases hflying
    · rw [if_neg hkey] at hflying
      obtain ⟨m, b, hb, hb'⟩ := h.manned k flight hflying
      have hother : m ≠ n := by
        rintro rfl
        have htold := hb.told
        rw [hn.told] at htold
        cases htold
        exact hkey (Option.some.inj (hn.key.symm.trans hb.key))
      obtain ⟨b₁, hb₁, _, hsame⟩ := set_leader hn.told hext hb
      rw [hsame hother] at hb₁
      exact ⟨m, b, hb₁, hb'⟩
  · intro m b k hb hover'
    rw [boarded_set hn.told hext]
    rcases leader_set hn.told hext hb with ⟨_, rfl, _⟩ | ⟨hother, hold⟩
    · rw [Booking.flight_extends hext]
      exact hlanded
    · exact (h.landed m b k hold hover').congr (hlanding b.flight (hflight m b k hother hold))
  · intro m b g hb hg
    exact h.followed_set hn.told hext hb hg
  · intro g landing hreported
    rw [hnext]
    by_cases hg : a.flight = g
    · rw [← hg]
      exact h.begun n a key hn
    · rw [hlanding g hg] at hreported
      exact h.reported g landing hreported
  · intro m b g answer hb hg hdone
    rcases getElem?_set_cases hb with ⟨rfl, hb'⟩ | ⟨_, hb'⟩
    · cases hb'
      rw [Booking.joined?_extends hext, Booking.joined?_of_key? hn.key] at hg
      cases hg
    · obtain ⟨landing, hserved, hanswer⟩ := h.served m b g answer hb' hg hdone
      have hother : a.flight ≠ g := by
        rintro rfl
        rw [(h.flying n a key hn hlive).2] at hserved
        cases hserved
      exact ⟨landing, (hlanding g hother).trans hserved, hanswer⟩

/-! ### Moves -/

variable {t : (P.coalesced o).Callers}

theorem call (h : Manifest as t.state.own) (r : Request) (p : π) :
    Manifest (as ++ [some ⟨t.now, r, p, t.state, [], false⟩])
      (start o P.toService t.now r p t.state).state.own := by
  let a : Booking o P := ⟨t.now, r, p, t.state, [], false⟩
  have hopening : a.opening = (start o P.toService t.now r p t.state).value := rfl
  cases hkey : o.key? r with
  | none =>
    obtain ⟨hvalue, hstate⟩ := start_passed (S := P.toService) hkey t.now p t.state
    rw [hstate]
    apply h.enter
    intro a' ha'
    cases ha'
    unfold Booking.key? Booking.joined?
    rw [hopening, hvalue]
    exact ⟨rfl, rfl⟩
  | some key =>
    cases hcurrent : t.state.own.current? key with
    | none =>
      rw [(start_leading (S := P.toService) hkey hcurrent t.now p).2]
      exact h.lead hcurrent ((key?_start_iff t.now p).mpr ⟨hkey, hcurrent⟩) rfl rfl
    | some g =>
      obtain ⟨hvalue, hstate⟩ := start_waiting (S := P.toService) hkey hcurrent t.now p
      rw [hstate]
      apply h.board (a := a) hcurrent _
        ((flight?_start_iff t.now p).mpr ⟨key, hkey, hcurrent⟩) hkey rfl
      unfold Booking.key?
      rw [hopening, hvalue]
      rfl

theorem key?_of_call {call : Call K P.Call P.Body} (h : a.call? = some call) :
    a.key? = call.key? :=
  (course_pending (Account.call?_eq_some_iff.mp h).2).1.symm

theorem joined?_of_call {call : Call K P.Call P.Body} (h : a.call? = some call) :
    a.joined? = call.flight? :=
  (course_pending (Account.call?_eq_some_iff.mp h).2).2.symm

theorem poll (h : Manifest as t.state.own) {call : Call K P.Call P.Body}
    (hn : as[n]? = some (some a)) (hcall : a.call? = some call) :
    Manifest (as.set n (some (a.polled t.now t.state)))
      (poll o P.toService t.now call t.state).state.own := by
  have hext := Account.extends_polled a t.now t.state
  have hprogress := Account.progress_polled t.now t.state hcall
  have hdropped : (a.polled t.now t.state).dropped = false := by
    rw [Account.polled_of_call hcall]
    exact (Account.call?_eq_some_iff.mp hcall).1
  have hlive : a.call?.isSome = true := by rw [hcall]; rfl
  cases hkey : call.key? with
  | none =>
    rw [(poll_other hkey t.now t.state).1]
    apply h.carryOn hn hext
    · intro key hled
      rw [key?_of_call hcall, hkey] at hled
      cases hled
    · intro g answer hg hdone
      rw [joined?_of_call hcall] at hg
      have hvalue : (Coalesced.poll o P.toService t.now call t.state).value = .done answer :=
        hprogress.symm.trans hdone
      rw [Call.eq_waiting hg, poll_waiting (S := P.toService) o t.now g t.state] at hvalue
      cases hlanding : t.state.own.landing? g with
      | none =>
        rw [hlanding] at hvalue
        cases hvalue
      | some landing =>
        rw [hlanding] at hvalue
        cases hvalue
        exact ⟨landing, rfl, rfl⟩
  | some key =>
    have hleader : Leader as n a key := ⟨hn, (key?_of_call hcall).trans hkey⟩
    rcases poll_leader (o := o) hkey t.now t.state with
      ⟨_, hown, call', hvalue, _⟩ | ⟨result, hresult, hvalue, hown, _⟩
    · rw [hown]
      apply h.carryOn hn hext
      · intro _ _
        refine ⟨hlive, ?_⟩
        rw [Account.call?_eq_some_iff.mpr ⟨hdropped, hprogress.trans hvalue⟩]
        rfl
      · intro g answer hg
        rw [Booking.joined?_of_key? hleader.key] at hg
        cases hg
    · obtain ⟨hget, hlanding⟩ := h.flying n a key hleader hlive
      have hdone := hprogress.trans hvalue
      rw [(Flights.complete_of_get? hget result).1] at hdone
      have hlandings : ∀ g, (t.state.own.complete key result).2.2.landing? g =
          if boarded as a.flight ≠ 0 ∧ a.flight = g then
            some (.completed (Flights.sharedResult result)) else t.state.own.landing? g := by
        intro g
        by_cases hw : boarded as a.flight = 0
        · rw [hw] at hget
          rw [Flights.landing_complete_alone hget, if_neg fun hne => hne.1 hw]
        · rw [Flights.landing_complete_joined hget hw]
          simp [hw]
      rw [hown]
      apply h.land hleader hlive hext (Account.call?_of_done hdone) Flights.next_complete
        (fun k => Flights.get?_complete)
      · intro g hg
        rw [hlandings, if_neg fun hboth => hg hboth.2]
      · refine .completed result hdropped ?_ hdone ?_
        · rw [Account.polled_of_call hcall]
          exact ⟨a.moments, (t.now, t.state), call, rfl, (Account.call?_eq_some_iff.mp hcall).2,
            hresult⟩
        · intro hw
          rw [hlandings, Booking.flight_extends hext, if_pos ⟨hw, rfl⟩]
      · exact Flights.nodup_keys_complete h.distinct key result

theorem drop (h : Manifest as t.state.own) {call : Call K P.Call P.Body}
    (hn : as[n]? = some (some a)) (hcall : a.call? = some call) :
    Manifest (as.set n (some a.left)) (abandon P.toService call t.state).own := by
  have hext := Account.extends_left a
  have hlive : a.call?.isSome = true := by rw [hcall]; rfl
  rw [abandon_own (S := P.toService) call t.state]
  cases hkey : call.key? with
  | none =>
    apply h.carryOn hn hext
    · intro key hled
      rw [key?_of_call hcall, hkey] at hled
      cases hled
    · intro g answer _ hdone
      rw [Account.left_of_call hcall] at hdone
      have hpending := (Account.call?_eq_some_iff.mp hcall).2
      rw [show a.progress = .done answer from hdone] at hpending
      cases hpending
  | some key =>
    have hleader : Leader as n a key := ⟨hn, (key?_of_call hcall).trans hkey⟩
    obtain ⟨hget, _⟩ := h.flying n a key hleader hlive
    apply h.land hleader hlive hext Account.call?_left Flights.next_cancel
      (fun k => Flights.get?_cancel)
    · intro g hg
      exact (Flights.landing_cancel_of_get? hget).trans (if_neg hg)
    · refine .cancelled ?_ ?_
      · rw [Account.left_of_call hcall]
      · rw [Flights.landing_cancel_of_get? hget, Booking.flight_extends hext, if_pos rfl]
    · exact Flights.nodup_keys_cancel h.distinct key

end Manifest

open Pipeline (Accounted)

/-- **Every move at a coalescer keeps flights and accounts in agreement.** -/
theorem Manifest.step {t : (P.coalesced o).Callers} (h : Manifest as t.state.own)
    (hcalls : Accounted as t) (m : Move π η) :
    Manifest ((P.coalesced o).accountsNext t m as) ((P.coalesced o).step t m).state.own := by
  cases m with
  | call r p => exact h.call r p
  | skip => exact h.enter fun a ha => by cases ha
  | poll n =>
    rcases (P.coalesced o).stepPoll_cases t n with ⟨hidle, hpoll⟩ | ⟨call, hslot, hpoll⟩
    · show Manifest _ ((P.coalesced o).stepPoll t n).state.own
      rw [hpoll, hcalls.poll_idle hidle]
      exact h
    · obtain ⟨a, hn, hcall⟩ := hcalls.calling_iff.mp hslot
      show Manifest _ ((P.coalesced o).stepPoll t n).state.own
      rw [hpoll, Pipeline.accountsNext_poll hn]
      exact h.poll hn hcall
  | drop n =>
    rcases (P.coalesced o).stepDrop_cases t n with
      ⟨hn, hdrop⟩ | ⟨call, hslot, hdrop⟩ | ⟨body, hslot, hdrop⟩
    · show Manifest _ ((P.coalesced o).stepDrop t n).state.own
      rw [hdrop, hcalls.drop_idle (by rcases hn with hn | hn <;> simp [hn])]
      exact h
    · obtain ⟨a, hn, hcall⟩ := hcalls.calling_iff.mp hslot
      show Manifest _ ((P.coalesced o).stepDrop t n).state.own
      rw [hdrop, Pipeline.accountsNext_drop hn]
      exact h.drop hn hcall
    · show Manifest _ ((P.coalesced o).stepDrop t n).state.own
      rw [hdrop, hcalls.drop_idle (by simp [hslot])]
      exact h
  | pull n =>
    rcases (P.coalesced o).stepPull_cases t n with ⟨_, hpull⟩ | ⟨body, _, hpull⟩
    · show Manifest as ((P.coalesced o).stepPull t n).state.own
      rw [hpull]
      exact h
    · show Manifest as ((P.coalesced o).stepPull t n).state.own
      rw [hpull]
      cases body <;> exact h
  | ready => exact h
  | advance d => exact h
  | order order => exact h
  | core change => exact h

/-- **Every run does.** -/
theorem manifest_run {t : (P.coalesced o).Callers} (h : Manifest as t.state.own)
    (hcalls : Accounted as t) (moves : List (Move π η)) :
    Manifest ((P.coalesced o).accounts t moves as) ((P.coalesced o).run t moves).state.own := by
  induction moves generalizing t as with
  | nil => exact h
  | cons m moves ih => exact ih (h.step hcalls m) (hcalls.step m)

end Coalesced

end Floodgate
