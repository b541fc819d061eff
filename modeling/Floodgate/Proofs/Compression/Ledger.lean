/-
  Floodgate/Proofs/Compression/Ledger.lean
  ========================================
  **What a compressor adds up.**  All responses that a compressor is working on share its
  totals and its pool of encoders, and they are begun, read, given up and finished in any
  order.  The totals are nevertheless those of a ledger with one entry for each member that
  is complete, and none for any other: the number of entries, the bytes of data that they
  were made from, and the bytes that their readers were given (`totals_of_ledger`).

  An entry is made by the pull that gives the last of a member; the last frame counts in it
  although nobody has seen it yet.  What a move does to totals and pool is said once
  (`own_step`): it leaves them alone, or it answers a call with an encoded body, which takes
  an encoder, or it completes a member, which gives one back.
-/
import Floodgate.Proofs.Compression.Members
import Mathlib.Algebra.GroupWithZero.Nat

namespace Floodgate

open Gzip (Codec)
open Http (Bytes Head Headers Pull Request)

namespace Compressed

variable {π η : Type} {c : Codec} {P : Pipeline π η} {o : CompressorOptions}
  {t : (P.compressed c o).Callers} {as : (P.compressed c o).Accounts}
  {qs : (P.compressed c o).Perusals} {n : Nat}

/-! ### Complete members -/

/-- The member of this call is complete. -/
def IsComplete (qs : (P.compressed c o).Perusals) (n : Nat) : Prop :=
  ∃ q, qs n = some q ∧ Completed q

/-- A member: the call that it was given to, the data that it was made from, and itself. -/
structure Entry where
  call : Nat
  original : Bytes
  member : Bytes

/-- The entry is right: the response of the service inside had this data, and ended; the member
    is one of all of it; and the member is all data that the reader was given. -/
def Entry.Right (x : Entry) (as : (P.compressed c o).Accounts)
    (qs : (P.compressed c o).Perusals) : Prop :=
  ∃ a q, as[x.call]? = some (some a) ∧ qs x.call = some q ∧
    (∃ head b pieces trailers,
      (a.within (S := P.toService) Layered.inner).progress = .done (.ok ⟨head, b⟩) ∧
        P.Ends b pieces trailers ∧ x.original = pieces.flatten) ∧
    (∃ level pieces, x.member = c.member level pieces ∧ x.original = pieces.flatten) ∧
    x.member = q.data

theorem not_completed_begun {a : Account (service c P.toService o)} {head : Head}
    {body : Body c.Encoder P.Body} (h : a.progress = .done (.ok ⟨head, body⟩)) :
    ¬ Completed (.begun body : Perusal (Body c.Encoder P.Body)) := by
  rintro ⟨e, hrest, hcompletes⟩
  obtain rfl : body = .encoded e := hrest
  obtain ⟨-, -, _, _, -, -, -, level, pieces, source, -, -, rfl⟩ := account_encoded h
  exact Encoded.not_completes_flowing hcompletes

/-- Where a member is complete nothing is added to it. -/
theorem asked_completed {q : Perusal (service c P.toService o).Body} (hq : Completed q)
    (s : State P.toService) :
    let q' := q.asked ((service c P.toService o).pull q.rest s).value
    Completed q' ∧ q'.data = q.data := by
  obtain ⟨e, hrest, ⟨left, rfl⟩, hfailures⟩ := hq
  obtain ⟨hgiven', hrest'⟩ := asked_encoded hrest s
  cases left with
  | none =>
    refine ⟨⟨_, hrest', ⟨none, rfl⟩, ?_⟩, ?_⟩
    · rw [hgiven', List.filterMap_append, hfailures]
      rfl
    · exact (congrArg (List.flatMap Pull.bytes) hgiven').trans
        ((Encoded.flatMap_bytes_concat rfl).trans (List.append_nil _))
  | some fields =>
    refine ⟨⟨_, hrest', ⟨none, rfl⟩, ?_⟩, ?_⟩
    · rw [hgiven', List.filterMap_append, hfailures]
      rfl
    · exact (congrArg (List.flatMap Pull.bytes) hgiven').trans
        ((Encoded.flatMap_bytes_concat rfl).trans (List.append_nil _))

/-- Which members are complete after a move: those that were, and the one that was pulled, if
    that completed it. -/
theorem isComplete_next (h : Pipeline.Perused as qs t) (m : Move π η) (n : Nat) :
    IsComplete ((P.compressed c o).perusalsNext t m qs) n ↔
      IsComplete qs n ∨ (m = .pull n ∧ IsComplete ((P.compressed c o).perusalsNext t m qs) n) := by
  rcases h.next_cases m n with hsame | ⟨hnone, call, r, _, _, _, hbegun⟩ | ⟨q, rfl, _, hq, hasked⟩
  · unfold IsComplete
    rw [hsame]
    exact ⟨.inl, fun hor => hor.elim id And.right⟩
  · obtain ⟨-, a, head, -, hdone⟩ := (h.step m).told n _ hbegun
    have hnot : ¬ IsComplete ((P.compressed c o).perusalsNext t m qs) n := by
      rintro ⟨q, hq, hcompleted⟩
      rw [hbegun] at hq
      cases hq
      exact not_completed_begun hdone hcompleted
    refine ⟨fun hc => absurd hc hnot, ?_⟩
    rintro (⟨q, hq, _⟩ | ⟨_, hc⟩)
    · rw [hnone] at hq
      cases hq
    · exact absurd hc hnot
  · constructor
    · exact fun hc => .inr ⟨rfl, hc⟩
    · rintro (⟨q', hq', hcompleted⟩ | ⟨_, hc⟩)
      · rw [hq] at hq'
        cases hq'
        exact ⟨_, hasked, (asked_completed hcompleted t.state).1⟩
      · exact hc

/-! ### What a move does to totals and pool -/

theorem decide_own (head : Head) (data : Bytes) (body : P.Body) (s : State P.toService) :
    (decide c P.toService o head data body s).state.own = s.own ∨
      ((decide c P.toService o head data body s).state.own =
          { s.own with pool := s.own.pool.acquire } ∧
        ∃ head' e, (decide c P.toService o head data body s).value =
          .done (.ok ⟨head', .encoded e⟩)) := by
  unfold decide
  dsimp only
  split
  · exact .inl rfl
  · exact .inl rfl
  · exact .inl rfl
  · exact .inr ⟨rfl, _, _, rfl⟩

/-- A poll takes an encoder if it answers with an encoded body, and nothing else. -/
theorem poll_own (now : Instant) (call : Call P.Call P.Body) (s : State P.toService) :
    (poll c P.toService o now call s).state.own = s.own ∨
      ((poll c P.toService o now call s).state.own =
          { s.own with pool := s.own.pool.acquire } ∧
        ∃ head' e, (poll c P.toService o now call s).value = .done (.ok ⟨head', .encoded e⟩)) := by
  cases call with
  | passed inner => exact .inl rfl
  | negotiated inner =>
    unfold poll
    dsimp only
    split
    · exact .inl rfl
    · exact .inl rfl
    · split
      · exact decide_own _ _ _ _
      · exact .inl rfl
  | measuring head data body => exact decide_own head data body s

theorem completed_iff {q : Perusal (Body c.Encoder P.Body)} {e : Encoded c.Encoder P.Body}
    (hrest : q.rest = .encoded e) : Completed q ↔ Encoded.Completes q.given e := by
  constructor
  · rintro ⟨e', hrest', hcompletes⟩
    rw [hrest] at hrest'
    cases hrest'
    exact hcompletes
  · exact fun hcompletes => ⟨e, hrest, hcompletes⟩

theorem not_completed_relayed {q : Perusal (Body c.Encoder P.Body)} {b : Relayed P.Body}
    (hrest : q.rest = .relayed b) : ¬ Completed q := by
  rintro ⟨e, hrest', _⟩
  rw [hrest] at hrest'
  cases hrest'

theorem own_pull_encoded (e : Encoded c.Encoder P.Body) (s : State P.toService) :
    (pull c P.toService o (.encoded e) s).state.own =
      match (Encoded.pull c P.toService e s.inner).value.2 with
      | none => s.own
      | some f => (account o s.own f).1 := by
  cases hv : (Encoded.pull c P.toService e s.inner).value.2 with
  | none => simp only [pull, hv]
  | some f => simp only [pull, hv]

/-- A pull completes a member and accounts for it, or it does neither. -/
theorem pull_own (h : Pipeline.Perused as qs t) {q : Perusal (service c P.toService o).Body}
    (hq : qs n = some q) (s : State P.toService) :
    let pulled := (service c P.toService o).pull q.rest s
    let q' := q.asked pulled.value
    ((Completed q' ↔ Completed q) ∧ pulled.state.own = s.own) ∨
      (¬ Completed q ∧ Completed q' ∧ ∃ x : Entry, x.call = n ∧
        (∀ (qs' : (P.compressed c o).Perusals), qs' n = some q' → x.Right as qs') ∧
          pulled.state.own = ⟨s.own.pool.release,
            s.own.totals.record x.original.length x.member.length⟩) := by
  intro pulled q'
  cases hrest : q.rest with
  | relayed b =>
    have hrest' : q'.rest = .relayed (restOf (Relayed.pull P.toService b s).value) :=
      restOf_relayed hrest s
    refine .inl ⟨iff_of_false (not_completed_relayed hrest') (not_completed_relayed hrest), ?_⟩
    show (pull c P.toService o q.rest s).state.own = s.own
    rw [hrest]
    cases b <;> rfl
  | encoded e =>
    obtain ⟨a, ha, head, b, level, pieces, source, htelling⟩ := telling_of h hq hrest
    obtain ⟨hgiven', hrest'⟩ := asked_encoded (o := o) hrest s
    have howned : pulled.state.own = _ :=
      (congrArg (fun b => (pull c P.toService o b s).state.own) hrest).trans (own_pull_encoded e s)
    have hdata : q'.data = q'.given.flatMap Pull.bytes := rfl
    rw [hgiven'] at hdata
    rw [howned, completed_iff hrest, completed_iff hrest', hgiven']
    obtain ⟨-, ⟨hnone, hsame⟩ | ⟨hbefore, hafter, more, trailers, hends, hmember, hreport⟩⟩ :=
      htelling.tale.pull s.inner
    · rw [hnone]
      exact .inl ⟨hsame, rfl⟩
    · rw [hreport]
      refine .inr ⟨hbefore, hafter, ⟨n, (pieces.flatten :: more).flatten, q'.data⟩, rfl, ?_, ?_⟩
      · intro qs' hqs'
        refine ⟨a, q', ha, hqs', ⟨head, b, pieces ++ more, trailers, htelling.inner,
          htelling.read.ends hends, ?_⟩, ⟨level, _, hdata.trans hmember, ?_⟩, rfl⟩
        · rw [List.flatten_append, List.flatten_cons]
        · rw [Gzip.flatten_filled]
      · rw [hdata]
        rfl

/-! ### The ledger -/

/-- The totals of a ledger. -/
def totalsOf (ledger : List Entry) : Gzip.Totals :=
  ⟨ledger.length, (ledger.map fun x => x.original.length).sum,
    (ledger.map fun x => x.member.length).sum⟩

theorem totalsOf_cons (x : Entry) (ledger : List Entry) :
    totalsOf (x :: ledger) = (totalsOf ledger).record x.original.length x.member.length := by
  simp only [totalsOf, Gzip.Totals.record, List.length_cons, List.map_cons, List.sum_cons,
    Nat.add_comm]

/-- The ledger of what has happened so far. -/
structure Kept (ledger : List Entry) (as : (P.compressed c o).Accounts)
    (qs : (P.compressed c o).Perusals) (t : (P.compressed c o).Callers) : Prop where
  perused : Pipeline.Perused as qs t
  nodup : (ledger.map Entry.call).Nodup
  complete : ∀ n, n ∈ ledger.map Entry.call ↔ IsComplete qs n
  right : ∀ x ∈ ledger, x.Right as qs
  totals : t.state.own.totals = totalsOf ledger

/-- Entries stay right. -/
theorem Entry.Right.next {x : Entry} (hx : x.Right as qs) (h : Pipeline.Perused as qs t)
    (hcomplete : IsComplete qs x.call) (m : Move π η) :
    x.Right ((P.compressed c o).accountsNext t m as) ((P.compressed c o).perusalsNext t m qs) := by
  obtain ⟨a, q, ha, hq, hinner, hmember, hdata⟩ := hx
  obtain ⟨q₀, hq₀, hcompleted⟩ := hcomplete
  obtain rfl : q = q₀ := by
    rw [hq] at hq₀
    exact Option.some.inj hq₀
  obtain ⟨-, a', head, ha', hdone⟩ := h.told x.call q hq
  obtain rfl : a = a' := by
    rw [ha] at ha'
    exact Option.some.inj (Option.some.inj ha')
  have hstays := Pipeline.accountsNext_answered (t := t) m ha hdone
  rcases h.next_cases m x.call with hsame | ⟨hnone, _⟩ | ⟨q', _, _, hq', hasked⟩
  · exact ⟨a, q, hstays, hsame.trans hq, hinner, hmember, hdata⟩
  · rw [hq] at hnone
    cases hnone
  · rw [hq] at hq'
    cases hq'
    exact ⟨a, _, hstays, hasked, hinner, hmember,
      hdata.trans (asked_completed hcompleted t.state).2.symm⟩

/-- What a move does to totals and pool, and to which members are complete. -/
inductive Does (t : (P.compressed c o).Callers) (as : (P.compressed c o).Accounts)
    (qs : (P.compressed c o).Perusals) (m : Move π η) : Prop where
  /-- It leaves all of it alone. -/
  | nothing (hown : ((P.compressed c o).step t m).state.own = t.state.own)
      (hsame : ∀ n, IsComplete ((P.compressed c o).perusalsNext t m qs) n ↔ IsComplete qs n)
  /-- It answers a call with an encoded body, which takes an encoder. -/
  | begins (n : Nat) (e : Encoded c.Encoder P.Body) (hpoll : m = .poll n) (hfirst : qs n = none)
      (hbegun : (P.compressed c o).perusalsNext t m qs n = some (.begun (.encoded e)))
      (hown : ((P.compressed c o).step t m).state.own =
        { t.state.own with pool := t.state.own.pool.acquire })
      (hsame : ∀ n, IsComplete ((P.compressed c o).perusalsNext t m qs) n ↔ IsComplete qs n)
  /-- It completes a member, which counts and gives an encoder back. -/
  | completes (x : Entry) (hpull : m = .pull x.call) (hbefore : ¬ IsComplete qs x.call)
      (hright : x.Right ((P.compressed c o).accountsNext t m as)
        ((P.compressed c o).perusalsNext t m qs))
      (hown : ((P.compressed c o).step t m).state.own = ⟨t.state.own.pool.release,
        t.state.own.totals.record x.original.length x.member.length⟩)
      (hafter : ∀ n, IsComplete ((P.compressed c o).perusalsNext t m qs) n ↔
        n = x.call ∨ IsComplete qs n)

/-- Moves by which nobody reads a body complete no member. -/
theorem isComplete_of_not_pull (h : Pipeline.Perused as qs t) {m : Move π η}
    (hm : ∀ n, m ≠ .pull n) (n : Nat) :
    IsComplete ((P.compressed c o).perusalsNext t m qs) n ↔ IsComplete qs n := by
  rw [isComplete_next h m n]
  exact or_iff_left fun hpull => hm n hpull.1

theorem own_poll (h : Pipeline.Perused as qs t) (n : Nat) : Does t as qs (.poll n) := by
  have hsame := isComplete_of_not_pull h (m := .poll n) nofun
  rcases (P.compressed c o).stepPoll_cases t n with ⟨_, hpoll⟩ | ⟨call, hslot, hpoll⟩
  · exact .nothing (congrArg (fun t : (P.compressed c o).Callers => t.state.own) hpoll) hsame
  · have hstate : ((P.compressed c o).step t (.poll n)).state.own =
        (poll c P.toService o t.now call t.state).state.own :=
      congrArg (fun t : (P.compressed c o).Callers => t.state.own) hpoll
    rcases poll_own (c := c) (o := o) t.now call t.state with hown | ⟨hown, head, e, hv⟩
    · exact .nothing (hstate.trans hown) hsame
    · have hnext : (P.compressed c o).perusalsNext t (.poll n) qs =
          Function.update qs n (some (.begun (.encoded e))) := by
        have hv' : ((P.compressed c o).poll t.now call t.state).value =
          .done (.ok ⟨head, .encoded e⟩) := hv
        simp only [Pipeline.perusalsNext, hslot, hv']
      have hfirst : qs n = none := by
        cases hq : qs n with
        | none => rfl
        | some q => exact absurd hslot (h.not_calling hq call)
      have hbegun : (P.compressed c o).perusalsNext t (.poll n) qs n =
          some (.begun (.encoded e)) := by
        rw [hnext, Function.update_self]
      exact .begins n e rfl hfirst hbegun (hstate.trans hown) hsame

theorem own_pull (h : Pipeline.Perused as qs t) (n : Nat) : Does t as qs (.pull n) := by
  have hother : ∀ k, k ≠ n →
      (IsComplete ((P.compressed c o).perusalsNext t (.pull n) qs) k ↔ IsComplete qs k) := by
    intro k hk
    rw [isComplete_next h (.pull n) k]
    refine or_iff_left ?_
    rintro ⟨hpull, _⟩
    cases hpull
    exact hk rfl
  rcases (P.compressed c o).stepPull_cases t n with ⟨hidle, hpull⟩ | ⟨body, hslot, hpull⟩
  · refine .nothing (congrArg (fun t : (P.compressed c o).Callers => t.state.own) hpull) ?_
    intro k
    rcases h.next_cases (.pull n) k with hsame | ⟨_, _, _, hpoll, _⟩ | ⟨q, hk, hslot, _⟩
    · unfold IsComplete
      rw [hsame]
    · cases hpoll
    · cases hk
      exact absurd hslot (hidle _)
  · obtain ⟨q, hq, rfl⟩ := h.reading n body hslot
    have hstate : ((P.compressed c o).step t (.pull n)).state.own =
        ((service c P.toService o).pull q.rest t.state).state.own :=
      congrArg (fun t : (P.compressed c o).Callers => t.state.own) hpull
    have hnext : (P.compressed c o).perusalsNext t (.pull n) qs n =
        some (q.asked ((service c P.toService o).pull q.rest t.state).value) := by
      simp only [Pipeline.perusalsNext, hslot, Function.update_self, hq, Option.map_some]
      rfl
    have hbefore : IsComplete qs n ↔ Completed q := by
      unfold IsComplete
      rw [hq]
      simp
    have hafter : IsComplete ((P.compressed c o).perusalsNext t (.pull n) qs) n ↔
        Completed (q.asked ((service c P.toService o).pull q.rest t.state).value) := by
      unfold IsComplete
      rw [hnext]
      simp
    rcases pull_own h hq t.state with ⟨hsame, hown⟩ | ⟨hnot, hcompleted, x, rfl, hright, hown⟩
    · refine .nothing (hstate.trans hown) ?_
      intro k
      by_cases hk : k = n
      · subst hk
        exact hafter.trans (hsame.trans hbefore.symm)
      · exact hother k hk
    · refine .completes x rfl (hbefore.not.mpr hnot) (hright _ hnext) (hstate.trans hown) ?_
      intro k
      by_cases hk : k = x.call
      · rw [hk, hafter]
        exact iff_of_true hcompleted (.inl rfl)
      · rw [hother k hk]
        exact (or_iff_right hk).symm

/-- **What a move does to totals and pool.** -/
theorem own_step (h : Pipeline.Perused as qs t) (m : Move π η) : Does t as qs m := by
  cases m with
  | poll n => exact own_poll h n
  | pull n => exact own_pull h n
  | drop n =>
    refine .nothing ?_ (isComplete_of_not_pull h nofun)
    show ((P.compressed c o).stepDrop t n).state.own = t.state.own
    rcases (P.compressed c o).stepDrop_cases t n with ⟨_, hdrop⟩ | ⟨call, _, hdrop⟩ | ⟨_, _, hdrop⟩
    · rw [hdrop]
    · rw [hdrop]
      cases call <;> rfl
    · rw [hdrop]
  | call r p => exact .nothing rfl (isComplete_of_not_pull h nofun)
  | skip => exact .nothing rfl (isComplete_of_not_pull h nofun)
  | ready => exact .nothing rfl (isComplete_of_not_pull h nofun)
  | advance d => exact .nothing rfl (isComplete_of_not_pull h nofun)
  | order o => exact .nothing rfl (isComplete_of_not_pull h nofun)
  | core change => exact .nothing rfl (isComplete_of_not_pull h nofun)

/-- Entries of the ledger stay right. -/
theorem Kept.still_right {ledger : List Entry} (h : Kept ledger as qs t) (m : Move π η) :
    ∀ x ∈ ledger, x.Right ((P.compressed c o).accountsNext t m as)
      ((P.compressed c o).perusalsNext t m qs) := by
  intro x hx
  have hcomplete := (h.complete x.call).mp (List.mem_map_of_mem hx)
  exact (h.right x hx).next h.perused hcomplete m

/-- A move that completes no member leaves the ledger as it is. -/
theorem Kept.quiet {ledger : List Entry} (h : Kept ledger as qs t) {m : Move π η}
    (htotals : ((P.compressed c o).step t m).state.own.totals = t.state.own.totals)
    (hsame : ∀ n, IsComplete ((P.compressed c o).perusalsNext t m qs) n ↔ IsComplete qs n) :
    Kept ledger ((P.compressed c o).accountsNext t m as)
      ((P.compressed c o).perusalsNext t m qs) ((P.compressed c o).step t m) where
  perused := h.perused.step m
  nodup := h.nodup
  complete n := (h.complete n).trans (hsame n).symm
  right := h.still_right m
  totals := htotals.trans h.totals

/-- A move that completes a member adds its entry. -/
theorem Kept.enter {ledger : List Entry} (h : Kept ledger as qs t) {m : Move π η} {x : Entry}
    (hbefore : ¬ IsComplete qs x.call)
    (hright : x.Right ((P.compressed c o).accountsNext t m as)
      ((P.compressed c o).perusalsNext t m qs))
    (htotals : ((P.compressed c o).step t m).state.own.totals =
      t.state.own.totals.record x.original.length x.member.length)
    (hafter : ∀ n, IsComplete ((P.compressed c o).perusalsNext t m qs) n ↔
      n = x.call ∨ IsComplete qs n) :
    Kept (x :: ledger) ((P.compressed c o).accountsNext t m as)
      ((P.compressed c o).perusalsNext t m qs) ((P.compressed c o).step t m) where
  perused := h.perused.step m
  nodup := by
    rw [List.map_cons, List.nodup_cons, h.complete]
    exact ⟨hbefore, h.nodup⟩
  complete n := by
    rw [List.map_cons, List.mem_cons, h.complete, hafter]
  right := by
    intro y hy
    rcases List.mem_cons.mp hy with rfl | hold
    · exact hright
    · exact h.still_right m y hold
  totals := by
    rw [htotals, totalsOf_cons, ← h.totals]

theorem Kept.step {ledger : List Entry} (h : Kept ledger as qs t) (m : Move π η) :
    ∃ ledger', Kept ledger' ((P.compressed c o).accountsNext t m as)
      ((P.compressed c o).perusalsNext t m qs) ((P.compressed c o).step t m) := by
  cases own_step h.perused m with
  | nothing hown hsame =>
    have htotals := congrArg Compressor.totals hown
    exact ⟨ledger, h.quiet htotals hsame⟩
  | begins n e hpoll hfirst hbegun hown hsame =>
    have htotals := congrArg Compressor.totals hown
    exact ⟨ledger, h.quiet htotals hsame⟩
  | completes x hpull hbefore hx hown hafter =>
    have htotals := congrArg Compressor.totals hown
    exact ⟨x :: ledger, h.enter hbefore hx htotals hafter⟩

theorem kept_run {ledger : List Entry} (h : Kept ledger as qs t) (moves : List (Move π η)) :
    ∃ ledger', Kept ledger' ((P.compressed c o).accounts t moves as)
      ((P.compressed c o).perusals t moves qs) ((P.compressed c o).run t moves) := by
  induction moves generalizing ledger t as qs with
  | nil => exact ⟨ledger, h⟩
  | cons m moves ih =>
    obtain ⟨ledger', h'⟩ := h.step m
    exact ih h'

/-! ### The pool -/

theorem acquire_idle_le (p : Gzip.Pool) : p.acquire.idle ≤ p.idle := Nat.sub_le _ _

theorem release_cases (p : Gzip.Pool) :
    p.release = p ∨ (p.idle < p.capacity ∧ p.release = { p with idle := p.idle + 1 }) := by
  unfold Gzip.Pool.release
  split
  · next hroom => exact .inr ⟨hroom, rfl⟩
  · exact .inl rfl

/-- The pool has this capacity, and no more idle encoders. -/
def Fits (capacity : Nat) (p : Gzip.Pool) : Prop := p.capacity = capacity ∧ p.idle ≤ capacity

theorem fits_step {capacity : Nat} (h : Pipeline.Perused as qs t) (m : Move π η)
    (hfits : Fits capacity t.state.own.pool) :
    Fits capacity ((P.compressed c o).step t m).state.own.pool := by
  obtain ⟨hcapacity, hidle⟩ := hfits
  cases own_step h m with
  | nothing hown hsame =>
    rw [hown]
    exact ⟨hcapacity, hidle⟩
  | begins n e hpoll hfirst hbegun hown hsame =>
    rw [hown]
    exact ⟨hcapacity, Nat.le_trans (acquire_idle_le _) hidle⟩
  | completes x hpull hbefore hx hown hafter =>
    rw [hown]
    show Fits capacity t.state.own.pool.release
    rcases release_cases t.state.own.pool with hfull | ⟨hroom, hmore⟩
    · rw [hfull]
      exact ⟨hcapacity, hidle⟩
    · rw [hmore]
      exact ⟨hcapacity, hcapacity ▸ hroom⟩

theorem fits_run {capacity : Nat} (h : Pipeline.Perused as qs t) (moves : List (Move π η))
    (hfits : Fits capacity t.state.own.pool) :
    Fits capacity ((P.compressed c o).run t moves).state.own.pool := by
  induction moves generalizing t as qs with
  | nil => exact hfits
  | cons m moves ih => exact ih (h.step m) (fits_step h m hfits)

/-- **The totals are those of the complete members, and the pool follows the streams.**  In
    whatever order responses are begun, read, given up and finished: there is a ledger with one
    entry for each member that is complete and no other, with the data of the response that it
    was made from and with all data that its reader was given, header, deflate data and trailer;
    the totals are the number of the entries and the sums of the two lengths.

    The pool has at most as many idle encoders as it may have.  They become fewer, by one, only
    when a call is answered with an encoded body, and more, by one, only when a member becomes
    complete. -/
theorem totals_of_ledger (c : Codec) (o : CompressorOptions) (P : Pipeline π η)
    (level capacity : Nat) (now : Instant) (s : P.State) (moves : List (Move π η)) :
    let Q := P.compressed c o
    let t := Q.quiet now ⟨⟨.new level capacity, .zero⟩, s⟩
    let as := Q.accounts t moves []
    let qs := Q.perusals t moves fun _ => none
    let t' := Q.run t moves
    (∃ ledger : List Entry,
      (ledger.map Entry.call).Nodup ∧ (∀ n, n ∈ ledger.map Entry.call ↔ IsComplete qs n) ∧
        (∀ x ∈ ledger, x.Right as qs) ∧
          t'.state.own.totals = ⟨ledger.length, (ledger.map fun x => x.original.length).sum,
            (ledger.map fun x => x.member.length).sum⟩) ∧
    t'.state.own.pool.idle ≤ capacity ∧
    ∀ m : Move π η,
      let before := t'.state.own.pool.idle
      let after := (Q.step t' m).state.own.pool.idle
      let qs' := Q.perusalsNext t' m qs
      (after < before → after + 1 = before ∧
        ∃ n e, m = .poll n ∧ qs n = none ∧ qs' n = some (.begun (.encoded e))) ∧
      (before < after → after = before + 1 ∧
        ∃ n, m = .pull n ∧ ¬ IsComplete qs n ∧ IsComplete qs' n) := by
  intro Q t as qs t'
  have hstart : Kept [] [] (fun _ => none) t := by
    refine ⟨Pipeline.perused_quiet now _, List.nodup_nil, ?_, nofun, rfl⟩
    intro n
    refine iff_of_false List.not_mem_nil ?_
    rintro ⟨q, hq, _⟩
    cases hq
  obtain ⟨ledger, hkept⟩ := kept_run hstart moves
  have hfits : Fits capacity t'.state.own.pool :=
    fits_run hstart.perused moves ⟨rfl, Nat.zero_le _⟩
  refine ⟨⟨ledger, hkept.nodup, hkept.complete, hkept.right, hkept.totals⟩, hfits.2, ?_⟩
  intro m before after qs'
  cases own_step hkept.perused m with
  | nothing hown hsame =>
    have heq : after = before := by
      show (Q.step t' m).state.own.pool.idle = t'.state.own.pool.idle
      rw [hown]
    exact ⟨fun hlt => absurd heq (Nat.ne_of_lt hlt), fun hlt => absurd heq (Nat.ne_of_gt hlt)⟩
  | begins n e hpoll hfirst hbegun hown hsame =>
    have heq : after = before - 1 := by
      show (Q.step t' m).state.own.pool.idle = t'.state.own.pool.idle - 1
      rw [hown]
      rfl
    refine ⟨fun hlt => ⟨by omega, n, e, hpoll, hfirst, hbegun⟩, fun hlt => by omega⟩
  | completes x hpull hbefore hx hown hafter =>
    have hcases : after = before ∨ after = before + 1 := by
      show (Q.step t' m).state.own.pool.idle = t'.state.own.pool.idle ∨
        (Q.step t' m).state.own.pool.idle = t'.state.own.pool.idle + 1
      rw [hown]
      rcases release_cases t'.state.own.pool with hfull | ⟨_, hmore⟩
      · exact .inl (congrArg Gzip.Pool.idle hfull)
      · exact .inr (congrArg Gzip.Pool.idle hmore)
    refine ⟨fun hlt => by omega, fun hlt => ⟨by omega, x.call, hpull, hbefore, ?_⟩⟩
    exact (hafter x.call).mpr (.inl rfl)

end Compressed

end Floodgate
