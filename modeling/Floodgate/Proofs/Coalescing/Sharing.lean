/-
  Floodgate/Proofs/Coalescing/Sharing.lean
  ========================================
  **One execution for all who ask alike.**  After every run of a coalescer a key is in
  the table exactly if one call is under way that leads a flight for it, and the table
  counts these calls and those who have joined them.  A leader that ends takes its own
  flight away and no other (`one_leader_per_key`).

  Whoever joins a flight shares the fate of its leader (`Booking.fate?`), at whatever
  time it asks and whatever has happened since: it waits while the leader is under way,
  gets what the leader answers its own caller, and learns that the leader was given up
  exactly if it was (`waiter_shares_fate`).
-/
import Floodgate.Pipeline.Build
import Floodgate.Proofs.Coalescing.Manifest
import Floodgate.Session.Handler

namespace Floodgate

open Http (Request)

namespace Coalesced

open Pipeline (Accounted)

variable {π η K : Type} [DecidableEq K] {o : CoalescerOptions K} {P : Pipeline π η}

/-! ### Leaders under way -/

/-- The key for which a call under way leads a flight. -/
def leads? (slot : Slot (P.coalesced o).Call (P.coalesced o).Body) : Option K :=
  slot.call?.bind Call.key?

/-- The call of this number is under way and leads a flight for the key. -/
def Holds (t : (P.coalesced o).Callers) (n : Nat) (key : K) : Prop :=
  t.slots[n]?.bind leads? = some key

/-- The call of this number is under way for a request with the key, and does not wait for
    another call. -/
def Executes (as : (P.coalesced o).Accounts) (n : Nat) (key : K) : Prop :=
  ∃ (a : Booking o P) (call : (P.coalesced o).Call), as[n]? = some (some a) ∧
    a.call? = some call ∧ o.key? a.request = some key ∧ Call.flight? call = none

/-- A call has ended between `t` and `t'`, and with it the flight of the key and no other. -/
def HasLeft (t t' : (P.coalesced o).Callers) (n : Nat) (key : K) : Prop :=
  (∀ k, ¬Holds t' n k) ∧
    ∀ k, t'.state.own.inFlight.get? k =
      if key = k then none else t.state.own.inFlight.get? k

variable {t : (P.coalesced o).Callers} {as : (P.coalesced o).Accounts} {a : Booking o P}
  {n n' : Nat} {key : K} {g : FlightId} {f : Flights K Captured}

theorem holds_iff_calling : Holds t n key ↔ ∃ call : (P.coalesced o).Call,
    t.slots[n]? = some (.calling call) ∧ Call.key? call = some key := by
  unfold Holds
  constructor
  · intro h
    obtain ⟨slot, hslot, hleads⟩ := Option.bind_eq_some_iff.mp h
    cases slot with
    | calling call => exact ⟨call, hslot, hleads⟩
    | reading body => cases hleads
    | gone => cases hleads
  · rintro ⟨call, hslot, hkey⟩
    rw [hslot]
    exact hkey

theorem holds_iff_leader (hcalls : Accounted as t) :
    Holds t n key ↔ ∃ a : Booking o P, Leader as n a key ∧ a.call?.isSome = true := by
  rw [holds_iff_calling]
  constructor
  · rintro ⟨call, hslot, hkey⟩
    obtain ⟨a, hn, hcall⟩ := hcalls.calling_iff.mp hslot
    exact ⟨a, ⟨hn, (Manifest.key?_of_call hcall).trans hkey⟩, by rw [hcall]; rfl⟩
  · rintro ⟨a, ⟨hn, hkey⟩, hlive⟩
    obtain ⟨call, hcall⟩ := Option.isSome_iff_exists.mp hlive
    exact ⟨call, hcalls.calling_iff.mpr ⟨a, hn, hcall⟩,
      (Manifest.key?_of_call hcall).symm.trans hkey⟩

namespace Manifest

theorem holds_unique (h : Manifest as t.state.own) (hcalls : Accounted as t)
    (hn : Holds t n key) (hn' : Holds t n' key) : n = n' := by
  obtain ⟨a, hleader, hlive⟩ := (holds_iff_leader hcalls).mp hn
  obtain ⟨a', hleader', hlive'⟩ := (holds_iff_leader hcalls).mp hn'
  exact h.leader_unique hleader hlive hleader' hlive'

/-- The keys in the table are those that a call holds. -/
theorem mem_keys_iff (h : Manifest as t.state.own) (hcalls : Accounted as t) :
    key ∈ t.state.own.keys ↔ ∃ n, Holds t n key := by
  rw [Flights.mem_keys]
  constructor
  · intro hkey
    obtain ⟨flight, hget⟩ := Option.isSome_iff_exists.mp hkey
    obtain ⟨n, a, hleader, hlive⟩ := h.manned key flight hget
    exact ⟨n, (holds_iff_leader hcalls).mpr ⟨a, hleader, hlive⟩⟩
  · rintro ⟨n, hn⟩
    obtain ⟨a, hleader, hlive⟩ := (holds_iff_leader hcalls).mp hn
    rw [(h.flying n a key hleader hlive).1]
    rfl

/-- The table lists the keys of the leaders under way. -/
theorem keys_perm (h : Manifest as t.state.own) (hcalls : Accounted as t) :
    t.state.own.keys.Perm (t.slots.filterMap leads?) := by
  apply (List.perm_ext_iff_of_nodup h.distinct ?_).mpr
  · intro key
    rw [h.mem_keys_iff hcalls, List.mem_filterMap]
    constructor
    · rintro ⟨n, hn⟩
      obtain ⟨slot, hslot, hleads⟩ := Option.bind_eq_some_iff.mp hn
      exact ⟨slot, List.mem_of_getElem? hslot, hleads⟩
    · rintro ⟨slot, hslot, hleads⟩
      obtain ⟨n, hn⟩ := List.mem_iff_getElem?.mp hslot
      exact ⟨n, Option.bind_eq_some_iff.mpr ⟨slot, hn, hleads⟩⟩
  · apply List.pairwise_filterMap.mpr
    apply List.pairwise_iff_getElem.mpr
    intro i j hi hj hlt key hkey key' hkey' hsame
    subst hsame
    have hholds : ∀ i (hi : i < t.slots.length), leads? t.slots[i] = some key → Holds t i key := by
      intro i hi hkey
      exact Option.bind_eq_some_iff.mpr ⟨t.slots[i], List.getElem?_eq_getElem hi, hkey⟩
    exact Nat.ne_of_lt hlt (h.holds_unique hcalls (hholds i hi hkey) (hholds j hj hkey'))

theorem size_eq (h : Manifest as t.state.own) (hcalls : Accounted as t) :
    t.state.own.size = t.slots.countP (fun slot => (leads? slot).isSome) := by
  rw [← Flights.length_keys, (h.keys_perm hcalls).length_eq, List.length_filterMap_eq_countP]

/-- A request with a key is executed under that key. -/
theorem holds_of_executes (hcalls : Accounted as t) (hn : Executes as n key) :
    Holds t n key := by
  obtain ⟨a, call, htold, hcall, hrequest, hflight⟩ := hn
  apply (holds_iff_leader hcalls).mpr
  refine ⟨a, ⟨htold, ?_⟩, by rw [hcall]; rfl⟩
  rcases start_keyed hrequest a.now a.payload a.state with hkey | ⟨g, hg⟩
  · exact hkey
  · have hjoined : a.joined? = some g := hg
    rw [joined?_of_call hcall, hflight] at hjoined
    cases hjoined

theorem waiters_eq (h : Manifest as f) {flight : Flight} (hget : f.inFlight.get? key = some flight) :
    flight.waiters = boarded as flight.id := by
  obtain ⟨n, a, hleader, hlive⟩ := h.manned key flight hget
  have hown := (h.flying n a key hleader hlive).1
  rw [hget] at hown
  cases hown
  rfl

/-! ### How a leader leaves -/

/-- A call that is over holds nothing. -/
theorem not_holds_set {now : Instant} {state : (P.coalesced o).State}
    {slot : Slot (P.coalesced o).Call (P.coalesced o).Body} (hn : n < t.slots.length)
    (hslot : slot.call? = none) (k : K) : ¬Holds (o := o) ⟨now, state, t.slots.set n slot⟩ n k := by
  intro hk
  unfold Holds at hk
  dsimp only at hk
  rw [List.getElem?_set_self hn, Option.bind_some] at hk
  unfold leads? at hk
  rw [hslot] at hk
  cases hk

/-- A poll of a leader leaves the flights as they are, or the leader has ended. -/
theorem poll_leaves (hn : Holds t n key) :
    let t' := (P.coalesced o).step t (.poll n)
    (Holds t' n key ∧ t'.state.own = t.state.own) ∨ HasLeft t t' n key := by
  intro t'
  obtain ⟨call, hslot, hkey⟩ := holds_iff_calling.mp hn
  obtain ⟨hlt, _⟩ := List.getElem?_eq_some_iff.mp hslot
  have hstep : t' = (P.coalesced o).stepPoll t n := rfl
  rw [hstep, Pipeline.stepPoll_calling hslot]
  rcases poll_leader (S := P.toService) (o := o) hkey t.now t.state with
    ⟨_, hown, call', hgoes, hkey'⟩ | ⟨result, _, hends, hown, _⟩
  · have hvalue : ((P.coalesced o).poll t.now call t.state).value = .pending call' := hgoes
    refine .inl ⟨?_, hown⟩
    apply holds_iff_calling.mpr
    refine ⟨call', ?_, hkey'⟩
    rw [hvalue]
    exact List.getElem?_set_self hlt
  · have hvalue : ((P.coalesced o).poll t.now call t.state).value =
        .done (delivered (t.state.own.complete key result).1) := hends
    refine .inr ⟨not_holds_set hlt ?_, ?_⟩
    · rw [hvalue]
      exact Slot.call?_ofProgress_done _
    · intro k
      have hown' : ((P.coalesced o).poll t.now call t.state).state.own =
        (t.state.own.complete key result).2.2 := hown
      rw [hown', Flights.get?_complete]

/-- A leader that is given up has ended. -/
theorem drop_leaves (hn : Holds t n key) :
    HasLeft t ((P.coalesced o).step t (.drop n)) n key := by
  obtain ⟨call, hslot, hkey⟩ := holds_iff_calling.mp hn
  obtain ⟨hlt, _⟩ := List.getElem?_eq_some_iff.mp hslot
  show HasLeft t ((P.coalesced o).stepDrop t n) n key
  rw [Pipeline.stepDrop_calling hslot]
  refine ⟨not_holds_set hlt rfl, ?_⟩
  intro k
  have hown : ((P.coalesced o).abandon call t.state).own = t.state.own.cancel key := by
    refine (abandon_own (S := P.toService) call t.state).trans ?_
    rw [hkey]
  rw [hown, Flights.get?_cancel]

end Manifest

theorem manifest_of_run (o : CoalescerOptions K) (P : Pipeline π η) (now : Instant) (s : P.State)
    (moves : List (Move π η)) :
    let first := (P.coalesced o).quiet now ⟨.none, s⟩
    Manifest ((P.coalesced o).accounts first moves []) ((P.coalesced o).run first moves).state.own ∧
      Accounted ((P.coalesced o).accounts first moves []) ((P.coalesced o).run first moves) := by
  intro first
  have hcalls : Accounted ([] : (P.coalesced o).Accounts) first :=
    Pipeline.accounted_quiet now _
  exact ⟨manifest_run manifest_nil hcalls moves, Pipeline.accounted_run hcalls moves⟩

/-- **Of calls for one key one is executed.**  The table has a flight for a key exactly if one
    call under way leads it, with as many passengers as have joined it.  The flight of a leader
    is the one it has started itself, and it is the only one that goes with the leader.

    `P` is any service, also one that hands its requests on to several. -/
theorem one_leader_per_key (o : CoalescerOptions K) (P : Pipeline π η) (now : Instant)
    (s : P.State) (moves : List (Move π η)) :
    let Q := P.coalesced o
    let t := Q.run (Q.quiet now ⟨.none, s⟩) moves
    let as := Q.accounts (Q.quiet now ⟨.none, s⟩) moves []
    (∀ key, (t.state.own.inFlight.get? key).isSome = true ↔ ∃! n, Holds t n key) ∧
    (∀ key n n', Executes as n key → Executes as n' key → n = n') ∧
    t.state.own.size = t.slots.countP (fun slot => (leads? slot).isSome) ∧
    (∀ key flight, t.state.own.inFlight.get? key = some flight →
      flight.waiters = boarded as flight.id) ∧
    ∀ n key, Holds t n key →
      (∃ a : Booking o P, Leader as n a key ∧
        (t.state.own.inFlight.get? key).map Flight.id =
          ((a.state.own.join key).2.inFlight.get? key).map Flight.id ∧
        ∀ n' a' key', Leader as n' a' key' → a'.flight = a.flight → n' = n) ∧
      (∀ result, (t.state.own.complete key result).2.1 ≠ none) ∧
      ((Holds (Q.step t (.poll n)) n key ∧ (Q.step t (.poll n)).state.own = t.state.own) ∨
        HasLeft t (Q.step t (.poll n)) n key) ∧
      HasLeft t (Q.step t (.drop n)) n key := by
  intro Q t as
  obtain ⟨h, hcalls⟩ := manifest_of_run o P now s moves
  refine ⟨?_, ?_, ?_, ?_, ?_⟩
  · intro key
    rw [← Flights.mem_keys, h.mem_keys_iff hcalls]
    constructor
    · rintro ⟨n, hn⟩
      exact ⟨n, hn, fun n' hn' => h.holds_unique hcalls hn' hn⟩
    · rintro ⟨n, hn, _⟩
      exact ⟨n, hn⟩
  · intro key n n' hn hn'
    exact h.holds_unique hcalls (Manifest.holds_of_executes hcalls hn)
      (Manifest.holds_of_executes hcalls hn')
  · exact h.size_eq hcalls
  · intro key flight hget
    exact h.waiters_eq hget
  · intro n key hn
    obtain ⟨a, hleader, hlive⟩ := (holds_iff_leader hcalls).mp hn
    have hget := (h.flying n a key hleader hlive).1
    refine ⟨⟨a, hleader, ?_, ?_⟩, ?_, Manifest.poll_leaves hn, Manifest.drop_leaves hn⟩
    · have hstart := (key?_start_iff a.now a.payload).mp hleader.key
      rw [hget, Flights.get?_join_leader hstart.2, if_pos rfl]
      rfl
    · intro n' a' key' hleader' hflight
      exact h.one_leader n' n a' a key' key hleader' hleader hflight
    · intro result
      rw [(Flights.complete_of_get? hget result).2]
      exact Option.some_ne_none _

/-- A leader that follows one that was given up has a flight of its own to take away. -/
theorem second_flight_leaves :
    let r : Request := ⟨"GET", ⟨"/", none⟩, [], none, none⟩
    let Q := Handler.pipeline.coalesced (CoalescerSpec.options {})
    let t := Q.run (Q.quiet 0 ⟨.none, .fresh⟩)
      [.call r ⟨"a", none⟩, .call r ⟨"b", none⟩, .drop 0, .call r ⟨"c", none⟩]
    let key := CoalescingKey.signature ⟨"GET", "/", none, false⟩
    Holds t 2 key ∧ t.state.own.size = 1 ∧ HasLeft t (Q.step t (.drop 2)) 2 key := by
  intro r Q t key
  have hholds : Holds t 2 key := rfl
  obtain ⟨_, _, hsize, _, hleaves⟩ := one_leader_per_key (CoalescerSpec.options {})
    Handler.pipeline 0 .fresh
    [.call r ⟨"a", none⟩, .call r ⟨"b", none⟩, .drop 0, .call r ⟨"c", none⟩]
  exact ⟨hholds, hsize, (hleaves 2 key hholds).2.2.2⟩

/-! ### The fate of a leader -/

/-- What the leader of a flight leaves for those who have joined it, once it has ended: word that
    it was given up, or what it answers to its own caller. -/
def Booking.fate? (a : Booking o P) : Option (Answer (Relayed P.Body)) :=
  if a.dropped then some (.error .leaderCancelled)
  else
    match a.progress with
    | .pending _ => none
    | .done answer => some answer

theorem Booking.fate?_eq_none_iff : a.fate? = none ↔ a.call?.isSome = true := by
  unfold fate? Account.call?
  cases a.dropped <;> cases a.progress <;> simp

theorem Booking.fate?_of_done {answer : Answer (Relayed P.Body)} (hkept : a.dropped = false)
    (hdone : a.progress = .done answer) : a.fate? = some answer := by
  simp only [fate?, hkept, hdone, Bool.false_eq_true, if_false]

theorem Booking.fate?_of_dropped (hdropped : a.dropped = true) :
    a.fate? = some (.error .leaderCancelled) := by
  rw [fate?, hdropped]
  rfl

/-- The fate of a leader that was not given up is its own answer. -/
theorem Booking.done_of_fate? {answer : Answer (Relayed P.Body)} (hkept : a.dropped = false)
    (hfate : a.fate? = some answer) : a.progress = .done answer := by
  unfold fate? at hfate
  rw [hkept, if_neg Bool.false_ne_true] at hfate
  cases hprogress : a.progress with
  | pending call =>
    rw [hprogress] at hfate
    cases hfate
  | done answer' =>
    rw [hprogress] at hfate
    exact congrArg Progress.done (Option.some.inj hfate)

theorem Landed.left_eq {waiters : Nat} (h : Landed f waiters a) (hwaiters : waiters ≠ 0) :
    (f.landing? a.flight).map landedAnswer = a.fate? := by
  cases h with
  | cancelled dropped left =>
    rw [left, Booking.fate?_of_dropped dropped]
    rfl
  | completed result kept brings answer left =>
    rw [if_neg hwaiters] at answer
    rw [left hwaiters, Booking.fate?_of_done kept answer]
    rfl

/-- A leader that was not given up has brought a response back or a failure, which it marks as
    shared if somebody has joined it. -/
theorem Landed.brought {waiters : Nat} (h : Landed f waiters a) (hwaiters : waiters ≠ 0)
    (hkept : a.dropped = false) {answer : Answer (Relayed P.Body)}
    (hdone : a.progress = .done answer) :
    (∃ c, a.Brings (.ok c) ∧ answer = .ok (c.response.withBody (.own c.response.body))) ∨
      (∃ failure, a.Brings (.error failure) ∧ answer = .error (.shared failure)) := by
  cases h with
  | cancelled dropped left =>
    rw [hkept] at dropped
    cases dropped
  | completed result kept brings answer' left =>
    rw [if_neg hwaiters] at answer'
    have hsame : answer = delivered (Flights.sharedResult result) :=
      Progress.done.inj (hdone.symm.trans answer')
    cases result with
    | ok c => exact .inl ⟨c, brings, hsame⟩
    | error failure => exact .inr ⟨failure, brings, hsame⟩

namespace Manifest

/-- What stands under the number of a flight that was joined is the fate of its leader. -/
theorem landing_eq_fate (h : Manifest as f) (hleader : Leader as n a key)
    (hboarded : boarded as a.flight ≠ 0) :
    (f.landing? a.flight).map landedAnswer = a.fate? := by
  cases hcall : a.call? with
  | none => exact (h.landed n a key hleader hcall).left_eq hboarded
  | some call =>
    have hlive : a.call?.isSome = true := by rw [hcall]; rfl
    rw [(h.flying n a key hleader hlive).2, Booking.fate?_eq_none_iff.mpr hlive]
    rfl

/-- The next poll of a call that waits gives the fate of the leader, once the leader has one. -/
theorem poll_waiter (h : Manifest as t.state.own) {b : Booking o P} {call : (P.coalesced o).Call}
    (hb : as[n']? = some (some b)) (hjoined : b.joined? = some a.flight)
    (hcall : b.call? = some call) (hleader : Leader as n a key) :
    ((P.coalesced o).poll t.now call t.state).value =
      match a.fate? with
      | none => .pending call
      | some answer => .done answer := by
  rw [joined?_of_call hcall] at hjoined
  have hfate := h.landing_eq_fate hleader
    (boarded_pos hb ((joined?_of_call hcall).trans hjoined))
  rw [Call.eq_waiting hjoined]
  refine (poll_waiting (S := P.toService) o t.now a.flight t.state).trans ?_
  rw [← hfate]
  cases t.state.own.landing? a.flight <;> rfl

/-- Whoever has waited to the end was given the fate of the leader. -/
theorem served_fate (h : Manifest as f) {b : Booking o P} (hb : as[n']? = some (some b))
    (hjoined : b.joined? = some a.flight) {answer : Answer (P.coalesced o).Body}
    (hdone : b.progress = .done answer) (hleader : Leader as n a key) :
    a.fate? = some answer := by
  obtain ⟨landing, hlanding, rfl⟩ := h.served n' b a.flight answer hb hjoined hdone
  rw [← h.landing_eq_fate hleader (boarded_pos hb hjoined), hlanding]
  rfl

end Manifest

/-! ### Arrivals -/

/-- **A call that joins a flight finds its leader at work**, and no other for its key. -/
theorem Manifest.joins_leader (h : Manifest as t.state.own) (hcalls : Accounted as t)
    (r : Request) (p : π) (after : List (Move π η)) {b : Booking o P}
    (hb : ((P.coalesced o).accounts t (.call r p :: after) as)[as.length]? = some (some b))
    (hjoined : b.joined? = some g) :
    ∃ key n a, o.key? r = some key ∧ (∀ m, Holds t m key ↔ m = n) ∧
      Leader ((P.coalesced o).accounts t (.call r p :: after) as) n a key ∧ a.flight = g := by
  let new : Booking o P := ⟨t.now, r, p, t.state, [], false⟩
  have hnew : (as ++ [some new])[as.length]? = some (some new) := List.getElem?_concat_length
  obtain ⟨b', hb', hext⟩ :=
    Pipeline.accounts_extends (t := (P.coalesced o).step t (.call r p)) after hnew
  have hsame : b = b' := Option.some.inj (Option.some.inj (hb.symm.trans hb'))
  subst hsame
  rw [Booking.joined?_extends hext] at hjoined
  obtain ⟨key, hkey, hcurrent⟩ := (flight?_start_iff t.now p).mp hjoined
  obtain ⟨n, a₀, hleader, hlive, hflight⟩ := h.leader_of_current hcurrent
  obtain ⟨a, ha, hext'⟩ :=
    Pipeline.accounts_extends (P := P.coalesced o) (t := t) (.call r p :: after) hleader.told
  refine ⟨key, n, a, hkey, ?_, ⟨ha, (Booking.key?_extends hext').trans hleader.key⟩,
    (Booking.flight_extends hext').trans hflight⟩
  intro m
  have hn : Holds t n key := (holds_iff_leader hcalls).mpr ⟨a₀, hleader, hlive⟩
  constructor
  · intro hm
    exact h.holds_unique hcalls hm hn
  · rintro rfl
    exact hn

/-- **Whoever joins a flight shares the fate of its leader.**  The leader was at work when the
    call was made.  The call waits as long as the leader is under way; then its next poll, however
    late, gives what the leader answers its own caller, or word that it was given up. -/
theorem waiter_shares_fate (o : CoalescerOptions K) (P : Pipeline π η) (now : Instant)
    (s : P.State) (before after : List (Move π η)) (r : Request) (p : π) (b : Booking o P)
    (g : FlightId) :
    let Q := P.coalesced o
    let first := Q.quiet now ⟨.none, s⟩
    let arrival := Q.run first before
    let t := Q.run first (before ++ .call r p :: after)
    let as := Q.accounts first (before ++ .call r p :: after) []
    as[arrival.slots.length]? = some (some b) → b.joined? = some g →
      ∃ key n a, o.key? r = some key ∧ (∀ m, Holds arrival m key ↔ m = n) ∧
        Leader as n a key ∧ a.flight = g ∧
        (∀ call, b.call? = some call → (Q.poll t.now call t.state).value =
          match a.fate? with
          | none => .pending call
          | some answer => .done answer) ∧
        (∀ answer, b.progress = .done answer → a.fate? = some answer) ∧
        (a.fate? = none ↔ a.call?.isSome = true) ∧
        (a.fate? = some (.error .leaderCancelled) ↔ a.dropped = true) ∧
        ∀ answer, a.dropped = false → a.progress = .done answer →
          a.fate? = some answer ∧
          ((∃ c, a.Brings (.ok c) ∧ answer = .ok (c.response.withBody (.own c.response.body))) ∨
            (∃ failure, a.Brings (.error failure) ∧ answer = .error (.shared failure) ∧
              (Failure.shared failure).display = failure.display ∧
              (Failure.shared failure).sources = failure.sources)) := by
  intro Q first arrival t as hb hjoined
  obtain ⟨harrival, hcalls⟩ := manifest_of_run o P now s before
  obtain ⟨h, _⟩ := manifest_of_run o P now s (before ++ .call r p :: after)
  have has : as = Q.accounts arrival (.call r p :: after) (Q.accounts first before []) :=
    Pipeline.accounts_append before _
  have hb' := hb
  rw [← hcalls.length, has] at hb'
  obtain ⟨key, n, a, hkey, hholds, hleader, rfl⟩ :=
    harrival.joins_leader hcalls r p after hb' hjoined
  rw [← has] at hleader
  have hboarded := boarded_pos hb hjoined
  -- a leader that has ended and was not given up has come back
  have hbrought : ∀ answer, a.dropped = false → a.progress = .done answer →
      (∃ c, a.Brings (.ok c) ∧ answer = .ok (c.response.withBody (.own c.response.body))) ∨
        (∃ failure, a.Brings (.error failure) ∧ answer = .error (.shared failure)) := by
    intro answer hkept hdone
    exact (h.landed n a key hleader (Account.call?_of_done hdone)).brought hboarded hkept hdone
  refine ⟨key, n, a, hkey, hholds, hleader, rfl, ?_, ?_, Booking.fate?_eq_none_iff, ?_, ?_⟩
  · intro call hcall
    exact h.poll_waiter hb hjoined hcall hleader
  · intro answer hdone
    exact h.served_fate hb hjoined hdone hleader
  · constructor
    · intro hfate
      by_contra hkept
      rw [Bool.not_eq_true] at hkept
      rcases hbrought _ hkept (Booking.done_of_fate? hkept hfate) with
        ⟨c, _, hanswer⟩ | ⟨failure, _, hanswer⟩
      · cases hanswer
      · cases hanswer
    · intro hdropped
      exact Booking.fate?_of_dropped hdropped
  · intro answer hkept hdone
    refine ⟨Booking.fate?_of_done hkept hdone, ?_⟩
    rcases hbrought answer hkept hdone with hok | ⟨failure, hbrings, hanswer⟩
    · exact .inl hok
    · exact .inr ⟨failure, hbrings, hanswer, Failure.display_shared failure,
        Failure.sources_shared failure⟩

/-- Of a failure both hear, the leader that was polled first and the call that joined it. -/
theorem waiter_hears_of_failure :
    let r : Request := ⟨"GET", ⟨"/", none⟩, [], none, none⟩
    let o := CoalescerSpec.options {}
    let Q := Handler.pipeline.coalesced o
    let arrival := Q.run (Q.quiet 0 ⟨.none, .fresh⟩) [.call r ⟨"a", some (.error (.message "down"))⟩]
    let t := Q.run arrival [.call r ⟨"b", none⟩, .poll 0]
    (Q.poll t.now (Call.waiting 0) t.state).value = .done (.error (.shared (.message "down"))) := by
  intro r o Q arrival t
  let b : Booking o Handler.pipeline := ⟨0, r, ⟨"b", none⟩, arrival.state, [], false⟩
  let a : Booking o Handler.pipeline :=
    ⟨0, r, ⟨"a", some (.error (.message "down"))⟩, ⟨.none, .fresh⟩,
      [(0, (Q.step arrival (.call r ⟨"b", none⟩)).state)], false⟩
  obtain ⟨key, n, a', hkey, hholds, hleader, _, hpoll, _⟩ :=
    waiter_shares_fate o Handler.pipeline 0 .fresh
      [.call r ⟨"a", some (.error (.message "down"))⟩] [.poll 0] r ⟨"b", none⟩ b 0 rfl rfl
  have hsignature : CoalescingKey.signature ⟨"GET", "/", none, false⟩ = key := Option.some.inj hkey
  subst hsignature
  have hn : 0 = n := (hholds 0).mp rfl
  subst hn
  have ha : a = a' := Option.some.inj (Option.some.inj hleader.told)
  subst ha
  exact hpoll (Call.waiting 0) rfl

end Coalesced

end Floodgate
