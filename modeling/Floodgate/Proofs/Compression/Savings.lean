/-
  Floodgate/Proofs/Compression/Savings.lean
  =========================================
  **Two figures for the bytes saved.**  What compression saves is published twice.  The
  counter `compression_bytes_saved_total` adds up, member by member, how much shorter the
  member is than its data, and a member that is longer counts as nothing saved.  The totals,
  and with them the snapshot that the edge exports, take the difference of the two sums, so a
  member that is longer takes something away again.

  The two agree exactly as long as no member has turned out longer than its data, or none
  shorter (`sum_sub_eq_iff`).  The counter never decreases; the exported figure does when a
  member is longer, unless it is zero already (`savings_of_ledger`).
-/
import Floodgate.Gzip.Deflate
import Floodgate.Proofs.Compression.Ledger
import Floodgate.Proofs.Traffic.Chronicle
import Floodgate.Session.Basic
import Mathlib.Algebra.Order.BigOperators.Group.List
import Mathlib.Algebra.Order.Group.Nat

namespace Floodgate

open Gzip (Codec)
open Http (Bytes Head Request)

/-! ### Sums of differences -/

section

variable {α : Type} {f g : α → Nat} {l : List α}

/-- What is gained on one side and lost on the other makes up for the difference of the sums. -/
theorem sum_add_sum_sub (f g : α → Nat) (l : List α) :
    (l.map f).sum + (l.map fun x => g x - f x).sum =
      (l.map g).sum + (l.map fun x => f x - g x).sum := by
  induction l with
  | nil => rfl
  | cons x l ih =>
    simp only [List.map_cons, List.sum_cons]
    omega

theorem sum_sub_eq_zero_iff : (l.map fun x => f x - g x).sum = 0 ↔ ∀ x ∈ l, f x ≤ g x := by
  rw [List.sum_eq_zero_iff]
  simp [Nat.sub_eq_zero_iff_le]

theorem sum_sub_le (f g : α → Nat) (l : List α) :
    (l.map f).sum - (l.map g).sum ≤ (l.map fun x => f x - g x).sum := by
  have hbalance := sum_add_sum_sub f g l
  omega

/-- **Cutting off at zero once and cutting off each time agree if all differences have one
    sign.** -/
theorem sum_sub_eq_iff :
    (l.map fun x => f x - g x).sum = (l.map f).sum - (l.map g).sum ↔
      (∀ x ∈ l, g x ≤ f x) ∨ ∀ x ∈ l, f x ≤ g x := by
  have hbalance := sum_add_sum_sub f g l
  rw [← sum_sub_eq_zero_iff, ← sum_sub_eq_zero_iff]
  omega

end

/-! ### What happens at a compressor -/

namespace Encoded

variable {π η : Type} {c : Codec} {P : Pipeline π η} {ok : Happening → Prop}

theorem happened_read (hP : P.Tells ok) (fuel : Nat) (stream : Gzip.Stream c.Encoder)
    (source : P.Body) (s : P.State) :
    ∀ h ∈ (read c P.toService fuel stream source s).happened, ok h := by
  induction fuel generalizing stream source s with
  | zero => nofun
  | succ fuel ih =>
    have hpull := hP.pull source s
    unfold read
    dsimp only
    split
    · exact hpull
    · split
      · exact List.forall_mem_append.mpr ⟨hpull, ih _ _ _⟩
      · exact hpull
    · exact hpull
    · exact hpull
    · exact hpull

theorem happened_pull (hP : P.Tells ok) (e : Encoded c.Encoder P.Body) (s : P.State) :
    ∀ h ∈ (pull c P.toService e s).happened, ok h := by
  cases e with
  | spent trailers => cases trailers <;> nofun
  | flowing ready stream sent source =>
    cases ready with
    | some bytes => nofun
    | none => exact happened_read hP _ stream source s

end Encoded

namespace Compressed

variable {π η : Type} {c : Codec} {P : Pipeline π η} {o : CompressorOptions}

section

variable {ok : Happening → Prop}

theorem happened_measure (hP : P.Tells ok) (minSize fuel : Nat) (data : Bytes) (body : P.Body)
    (s : P.State) : ∀ h ∈ (measure P.toService minSize fuel data body s).happened, ok h := by
  induction fuel generalizing data body s with
  | zero => exact List.forall_mem_nil _
  | succ fuel ih =>
    have hpull := hP.pull body s
    unfold measure
    split
    · exact List.forall_mem_nil _
    · dsimp only
      split
      · exact hpull
      · exact List.forall_mem_append.mpr ⟨hpull, ih _ _ _⟩
      · exact hpull
      · exact hpull
      · exact hpull

theorem happened_decide (hP : P.Tells ok) (hdecided : ∀ d, ok ⟨o.badge, .compression (.decided d)⟩)
    (head : Head) (data : Bytes) (body : P.Body) (s : State P.toService) :
    ∀ h ∈ (decide c P.toService o head data body s).happened, ok h := by
  have hmeasure := happened_measure hP o.minSize (P.size body + 2) data body s.inner
  have htold : ∀ d, ∀ h ∈ told o d, ok h := fun d => List.forall_mem_singleton.mpr (hdecided d)
  unfold decide
  dsimp only
  split
  · exact hmeasure
  · exact hmeasure
  · exact List.forall_mem_append.mpr ⟨hmeasure, htold _⟩
  · exact List.forall_mem_append.mpr ⟨hmeasure, htold _⟩

/-- A poll tells what happens inside, and of what becomes of responses. -/
theorem happened_poll (hP : P.Tells ok) (hdecided : ∀ d, ok ⟨o.badge, .compression (.decided d)⟩)
    (now : Instant) (call : Call P.Call P.Body) (s : State P.toService) :
    ∀ h ∈ (poll c P.toService o now call s).happened, ok h := by
  cases call with
  | passed inner => exact hP.poll now inner s.inner
  | negotiated inner =>
    have hpoll := hP.poll now inner s.inner
    unfold poll
    dsimp only
    split
    · exact hpoll
    · exact hpoll
    · split
      · exact List.forall_mem_append.mpr ⟨hpoll, happened_decide hP hdecided _ _ _ _⟩
      · exact List.forall_mem_append.mpr
          ⟨hpoll, List.forall_mem_singleton.mpr (hdecided .ineligible)⟩
  | measuring head data body => exact happened_decide hP hdecided head data body s

end

/-! ### What is counted -/

/-- Nothing inside counts saved bytes. -/
def CounterIsOwn (P : Pipeline π η) : Prop :=
  P.Tells (Happening.Uncounted "compression_bytes_saved_total")

/-- The bytes that are counted as saved. -/
def countedSavings (hs : List Happening) : Nat :=
  Happening.counted "compression_bytes_saved_total" hs

/-- What the counter of saved bytes shows. -/
def savingsShown (hs : List Happening) : Nat :=
  (Happening.board hs).total "compression_bytes_saved_total"

theorem uncounted_decided (o : CompressorOptions) (d : Gzip.Decision) :
    Happening.Uncounted "compression_bytes_saved_total"
      ⟨o.badge, .compression (.decided d)⟩ := by
  intro m hm
  obtain rfl := List.mem_singleton.mp hm
  rfl

theorem countedSavings_append (hs hs' : List Happening) :
    countedSavings (hs ++ hs') = countedSavings hs + countedSavings hs' :=
  Happening.counted_append hs hs'

theorem countedSavings_finished (o : CompressorOptions) (bytesIn bytesOut : Nat) :
    countedSavings [⟨o.badge, .compression (.finished bytesIn bytesOut)⟩] =
      bytesIn - bytesOut := by
  simp [countedSavings, Happening.counted, Happening.measured, Happening.sighting,
    Occurrence.sighting, Observed.measurements, Measurement.counted]

/-- A pull finishes a member, which is counted and added to the totals, or it does neither. -/
theorem counted_pull (hP : CounterIsOwn P) (b : Body c.Encoder P.Body) (s : State P.toService) :
    let pulled := pull c P.toService o b s
    (countedSavings pulled.happened = 0 ∧ pulled.state.own.totals = s.own.totals) ∨
      ∃ bytesIn bytesOut, countedSavings pulled.happened = bytesIn - bytesOut ∧
        pulled.state.own.totals = s.own.totals.record bytesIn bytesOut := by
  intro pulled
  cases b with
  | relayed b =>
    left
    constructor
    · apply Happening.counted_of_uncounted
      cases b with
      | own r => nofun
      | passed inner => exact hP.pull inner s.inner
    · cases b <;> rfl
  | encoded e =>
    have hinner : countedSavings (Encoded.pull c P.toService e s.inner).happened = 0 :=
      Happening.counted_of_uncounted (Encoded.happened_pull hP e s.inner)
    cases hv : (Encoded.pull c P.toService e s.inner).value.2 with
    | none =>
      have htold : pulled.happened = (Encoded.pull c P.toService e s.inner).happened := by
        simp only [pulled, pull, hv]
      have hown : pulled.state.own = s.own := by simp only [pulled, pull, hv]
      rw [htold, hown]
      exact .inl ⟨hinner, rfl⟩
    | some f =>
      have htold : pulled.happened = (Encoded.pull c P.toService e s.inner).happened ++
          [⟨o.badge, .compression (.finished f.bytesIn f.bytesOut)⟩] := by
        simp only [pulled, pull, hv, account]
      have hown : pulled.state.own = (account o s.own f).1 := by simp only [pulled, pull, hv]
      refine .inr ⟨f.bytesIn, f.bytesOut, ?_, congrArg Compressor.totals hown⟩
      rw [htold, countedSavings_append, hinner, countedSavings_finished, Nat.zero_add]

variable {t : (P.compressed c o).Callers}

/-- **Counter and totals are brought up to date together.** -/
theorem counted_cases (hP : CounterIsOwn P) (t : (P.compressed c o).Callers) (m : Move π η) :
    let t' := (P.compressed c o).step t m
    (countedSavings ((P.compressed c o).happenings t m) = 0 ∧
        t'.state.own.totals = t.state.own.totals) ∨
      ∃ bytesIn bytesOut,
        countedSavings ((P.compressed c o).happenings t m) = bytesIn - bytesOut ∧
          t'.state.own.totals = t.state.own.totals.record bytesIn bytesOut := by
  intro t'
  cases m with
  | call r p =>
    exact .inl ⟨Happening.counted_of_uncounted (hP.start t.now r p t.state.inner), rfl⟩
  | poll n =>
    left
    constructor
    · apply Happening.counted_of_uncounted
      apply Pipeline.forall_happenings_poll
      intro call
      exact happened_poll hP (uncounted_decided o) t.now call t.state
    · rcases (P.compressed c o).stepPoll_cases t n with ⟨_, hpoll⟩ | ⟨call, _, hpoll⟩
      · exact congrArg (fun t : (P.compressed c o).Callers => t.state.own.totals) hpoll
      · have hstate : t'.state.own.totals =
            (poll c P.toService o t.now call t.state).state.own.totals :=
          congrArg (fun t : (P.compressed c o).Callers => t.state.own.totals) hpoll
        rw [hstate]
        rcases poll_own (c := c) (o := o) t.now call t.state with hown | ⟨hown, -⟩
        · rw [hown]
        · rw [hown]
  | pull n =>
    rcases (P.compressed c o).stepPull_cases t n with ⟨hidle, hpull⟩ | ⟨body, hslot, hpull⟩
    · refine .inl ⟨?_, congrArg (fun t : (P.compressed c o).Callers => t.state.own.totals) hpull⟩
      rw [Pipeline.happenings_pull_idle hidle]
      rfl
    · have hstate : t'.state.own.totals = (pull c P.toService o body t.state).state.own.totals :=
        congrArg (fun t : (P.compressed c o).Callers => t.state.own.totals) hpull
      rw [hstate, Pipeline.happenings_pull_reading hslot]
      exact counted_pull hP body t.state
  | drop n =>
    refine .inl ⟨rfl, ?_⟩
    show ((P.compressed c o).stepDrop t n).state.own.totals = t.state.own.totals
    rcases (P.compressed c o).stepDrop_cases t n with ⟨_, hdrop⟩ | ⟨call, _, hdrop⟩ | ⟨_, _, hdrop⟩
    · rw [hdrop]
    · rw [hdrop]
      cases call <;> rfl
    · rw [hdrop]
  | order order =>
    refine .inl ⟨?_, rfl⟩
    exact Happening.counted_of_uncounted (hP.obey t.now order t.state.inner)
  | _ => exact .inl ⟨rfl, rfl⟩

/-! ### What the ledger says of it -/

theorem record_ne (totals : Gzip.Totals) (bytesIn bytesOut : Nat) :
    totals.record bytesIn bytesOut ≠ totals := by
  intro h
  exact Nat.succ_ne_self _ (congrArg Gzip.Totals.responses h)

theorem record_inj {totals : Gzip.Totals} {bytesIn bytesOut bytesIn' bytesOut' : Nat}
    (h : totals.record bytesIn bytesOut = totals.record bytesIn' bytesOut') :
    bytesIn = bytesIn' ∧ bytesOut = bytesOut' :=
  ⟨Nat.add_left_cancel (congrArg Gzip.Totals.bytesIn h),
    Nat.add_left_cancel (congrArg Gzip.Totals.bytesOut h)⟩

theorem counted_of_same (hP : CounterIsOwn P) {m : Move π η}
    (h : ((P.compressed c o).step t m).state.own.totals = t.state.own.totals) :
    countedSavings ((P.compressed c o).happenings t m) = 0 := by
  rcases counted_cases hP t m with ⟨hnone, -⟩ | ⟨bytesIn, bytesOut, -, hrecord⟩
  · exact hnone
  · exact absurd (hrecord.symm.trans h) (record_ne _ _ _)

theorem counted_of_record (hP : CounterIsOwn P) {m : Move π η} {bytesIn bytesOut : Nat}
    (h : ((P.compressed c o).step t m).state.own.totals =
      t.state.own.totals.record bytesIn bytesOut) :
    countedSavings ((P.compressed c o).happenings t m) = bytesIn - bytesOut := by
  rcases counted_cases hP t m with ⟨-, hsame⟩ | ⟨bytesIn', bytesOut', hcounted, hrecord⟩
  · exact absurd (h.symm.trans hsame) (record_ne _ _ _)
  · obtain ⟨rfl, rfl⟩ := record_inj (h.symm.trans hrecord)
    exact hcounted

/-- How much shorter the members of a ledger are, those that are longer left out. -/
def netSavings (ledger : List Entry) : Nat :=
  (ledger.map fun x => x.original.length - x.member.length).sum

variable {as : (P.compressed c o).Accounts} {qs : (P.compressed c o).Perusals}

/-- At first the ledger is empty. -/
theorem kept_quiet (now : Instant) (pool : Gzip.Pool) (s : P.State) :
    Kept [] [] (fun _ => none) ((P.compressed c o).quiet now ⟨⟨pool, .zero⟩, s⟩) := by
  refine ⟨Pipeline.perused_quiet now _, List.nodup_nil, ?_, nofun, rfl⟩
  intro n
  apply iff_of_false List.not_mem_nil
  rintro ⟨q, hq, _⟩
  cases hq

/-- Each entry of the ledger has been counted. -/
theorem Kept.counted_step (hP : CounterIsOwn P) {ledger : List Entry} (h : Kept ledger as qs t)
    (m : Move π η) :
    ∃ ledger', Kept ledger' ((P.compressed c o).accountsNext t m as)
        ((P.compressed c o).perusalsNext t m qs) ((P.compressed c o).step t m) ∧
      netSavings ledger' =
        netSavings ledger + countedSavings ((P.compressed c o).happenings t m) := by
  cases own_step h.perused m with
  | nothing hown hsame =>
    have htotals := congrArg Compressor.totals hown
    refine ⟨ledger, h.quiet htotals hsame, ?_⟩
    rw [counted_of_same hP htotals]
    rfl
  | begins n e hpoll hfirst hbegun hown hsame =>
    have htotals := congrArg Compressor.totals hown
    refine ⟨ledger, h.quiet htotals hsame, ?_⟩
    rw [counted_of_same hP htotals]
    rfl
  | completes x hpull hbefore hx hown hafter =>
    have htotals := congrArg Compressor.totals hown
    refine ⟨x :: ledger, h.enter hbefore hx htotals hafter, ?_⟩
    rw [counted_of_record hP htotals]
    exact Nat.add_comm _ _

theorem kept_counted_run (hP : CounterIsOwn P) {ledger : List Entry} (h : Kept ledger as qs t)
    (moves : List (Move π η)) :
    ∃ ledger', Kept ledger' ((P.compressed c o).accounts t moves as)
        ((P.compressed c o).perusals t moves qs) ((P.compressed c o).run t moves) ∧
      netSavings ledger' =
        netSavings ledger + countedSavings ((P.compressed c o).chronicle t moves) := by
  induction moves generalizing ledger t as qs with
  | nil => exact ⟨ledger, h, rfl⟩
  | cons m moves ih =>
    obtain ⟨next, hnext, hcounted⟩ := h.counted_step hP m
    obtain ⟨last, hlast, hrest⟩ := ih hnext
    refine ⟨last, hlast, ?_⟩
    rw [hrest, hcounted, Nat.add_assoc, Pipeline.chronicle, countedSavings_append]

/-! ### The two figures -/

theorem savingsShown_eq (hs : List Happening) : savingsShown hs = countedSavings hs :=
  Happening.total_board

theorem savingsShown_concat (first : (P.compressed c o).Callers) (moves : List (Move π η))
    (m : Move π η) :
    savingsShown ((P.compressed c o).chronicle first (moves ++ [m])) =
      savingsShown ((P.compressed c o).chronicle first moves) +
        countedSavings ((P.compressed c o).happenings ((P.compressed c o).run first moves) m) := by
  rw [savingsShown_eq, savingsShown_eq, Pipeline.chronicle_concat, countedSavings_append]

/-- A member takes something away from what is saved if it is longer than its data and there is
    something left. -/
theorem saved_record_lt_iff (totals : Gzip.Totals) (bytesIn bytesOut : Nat) :
    (totals.record bytesIn bytesOut).saved < totals.saved ↔
      0 < totals.saved ∧ bytesIn < bytesOut := by
  simp only [Gzip.Totals.record, Gzip.Totals.saved]
  omega

/-- **The counter adds up differences, and the export is a difference of sums.**  After every run
    there is a ledger of the complete members.  The counter shows how much shorter they are than
    their data, member by member, and nothing for those that are longer; the totals show the
    difference of the two lengths overall.  So the counter is never less, and the two agree
    exactly if no member is longer than its data, or none shorter.

    A move either changes neither figure or completes one more member.  The counter never goes
    down; the totals do exactly if that member is longer than its data and something was saved.
    What the edge exports is the figure of the totals. -/
theorem savings_of_ledger (c : Codec) (o : CompressorOptions) (P : Pipeline π η)
    (hP : CounterIsOwn P) (pool : Gzip.Pool) (now : Instant) (s : P.State)
    (moves : List (Move π η)) :
    let Q := P.compressed c o
    let first := Q.quiet now ⟨⟨pool, .zero⟩, s⟩
    let as := Q.accounts first moves []
    let qs := Q.perusals first moves fun _ => none
    let t := Q.run first moves
    let counter := savingsShown (Q.chronicle first moves)
    let saved := t.state.own.totals.saved
    (∃ ledger : List Entry,
      (ledger.map Entry.call).Nodup ∧ (∀ n, n ∈ ledger.map Entry.call ↔ IsComplete qs n) ∧
        (∀ x ∈ ledger, x.Right as qs) ∧
        counter = (ledger.map fun x => x.original.length - x.member.length).sum ∧
        saved = (ledger.map fun x => x.original.length).sum -
          (ledger.map fun x => x.member.length).sum ∧
        saved ≤ counter ∧
        (counter = saved ↔ (∀ x ∈ ledger, x.member.length ≤ x.original.length) ∨
          ∀ x ∈ ledger, x.original.length ≤ x.member.length)) ∧
    (∀ m : Move π η,
      let counter' := savingsShown (Q.chronicle first (moves ++ [m]))
      let saved' := (Q.step t m).state.own.totals.saved
      (counter' = counter ∧ saved' = saved) ∨
        ∃ x : Entry, m = .pull x.call ∧ ¬IsComplete qs x.call ∧
          x.Right (Q.accountsNext t m as) (Q.perusalsNext t m qs) ∧
          counter' = counter + (x.original.length - x.member.length) ∧
          (saved' < saved ↔ 0 < saved ∧ x.original.length < x.member.length)) ∧
    ∀ (e : EdgeSpec) (d : Deployment π η) (s : (d.edge c e now).pipeline.State),
      let saved := s.inner.inner.inner.inner.own.totals.saved
      exported? ((d.edge c e now).pipeline.views s) =
        some (.json 200 (s.inner.inner.inner.inner.inner.own.snapshot saved).json) := by
  intro Q first as qs t counter saved
  obtain ⟨ledger, hkept, hnet⟩ := kept_counted_run hP (kept_quiet now pool s) moves
  refine ⟨⟨ledger, hkept.nodup, hkept.complete, hkept.right, ?_⟩, ?_, ?_⟩
  · have hcounter : counter = netSavings ledger := by
      rw [hnet]
      exact (savingsShown_eq _).trans (Nat.zero_add _).symm
    have hsaved : saved = (totalsOf ledger).saved := congrArg Gzip.Totals.saved hkept.totals
    rw [hcounter, hsaved]
    refine ⟨rfl, rfl, ?_, ?_⟩
    · exact sum_sub_le _ _ ledger
    · exact sum_sub_eq_iff
  · intro m counter' saved'
    have hcounter' : counter' = counter + countedSavings (Q.happenings t m) :=
      savingsShown_concat first moves m
    cases own_step hkept.perused m with
    | nothing hown hsame =>
      have htotals := congrArg Compressor.totals hown
      exact .inl ⟨hcounter'.trans (congrArg (counter + ·) (counted_of_same hP htotals)),
        congrArg Gzip.Totals.saved htotals⟩
    | begins n e hpoll hfirst hbegun hown hsame =>
      have htotals := congrArg Compressor.totals hown
      exact .inl ⟨hcounter'.trans (congrArg (counter + ·) (counted_of_same hP htotals)),
        congrArg Gzip.Totals.saved htotals⟩
    | completes x hpull hbefore hx hown hafter =>
      have htotals := congrArg Compressor.totals hown
      refine .inr ⟨x, hpull, hbefore, hx, ?_, ?_⟩
      · exact hcounter'.trans (congrArg (counter + ·) (counted_of_record hP htotals))
      · have hsaved' : saved' =
            (t.state.own.totals.record x.original.length x.member.length).saved :=
          congrArg Gzip.Totals.saved htotals
        rw [hsaved']
        exact saved_record_lt_iff _ _ _
  · intro e d s
    rfl

/-- Of 45 bytes that become 23 and one byte that becomes 21 the counter shows 22 and the totals 2,
    so some member is shorter than its data and some member longer. -/
theorem one_shorter_one_longer :
    let o : CompressorOptions := ⟨true, 0, 1, ⟨"api", []⟩⟩
    let Q := Handler.pipeline.compressed Gzip.deflating o
    let first := Q.quiet 0 ⟨⟨.new 1 4, .zero⟩, .fresh⟩
    let r : Request := ⟨"GET", ⟨"/", none⟩, [⟨"accept-encoding", Http.utf8 "gzip"⟩], none, none⟩
    let reply (n : Nat) : ScriptedAnswer :=
      .ok ⟨⟨200, "HTTP/1.1", [], none⟩, .whole (.ofBytes (List.replicate n 97))⟩
    let moves : List (Move Errand Handler) :=
      [.call r ⟨"a", some (reply 45)⟩, .poll 0, .pull 0, .pull 0,
        .call r ⟨"b", some (reply 1)⟩, .poll 1, .pull 1, .pull 1]
    let as := Q.accounts first moves []
    let qs := Q.perusals first moves fun _ => none
    savingsShown (Q.chronicle first moves) = 22 ∧
      (Q.run first moves).state.own.totals.saved = 2 ∧
      (∃ x : Entry, x.Right as qs ∧ x.member.length < x.original.length) ∧
      ∃ x : Entry, x.Right as qs ∧ x.original.length < x.member.length := by
  intro o Q first r reply moves as qs
  obtain ⟨hcounter, hsaved⟩ : savingsShown (Q.chronicle first moves) = 22 ∧
      (Q.run first moves).state.own.totals.saved = 2 := by decide +kernel
  obtain ⟨⟨ledger, -, -, hright, -, -, -, hagree⟩, -⟩ :=
    savings_of_ledger Gzip.deflating o Handler.pipeline (Handler.tells _) (.new 1 4) 0 .fresh moves
  have hdiffer : ¬((∀ x ∈ ledger, x.member.length ≤ x.original.length) ∨
      ∀ x ∈ ledger, x.original.length ≤ x.member.length) := by
    intro hsign
    have hsame := hagree.mpr hsign
    rw [hcounter, hsaved] at hsame
    cases hsame
  obtain ⟨hlonger, hshorter⟩ := not_or.mp hdiffer
  simp only [not_forall, Nat.not_le] at hlonger hshorter
  obtain ⟨x, hx, hlong⟩ := hlonger
  obtain ⟨y, hy, hshort⟩ := hshorter
  exact ⟨hcounter, hsaved, ⟨y, hright y hy, hshort⟩, ⟨x, hright x hx, hlong⟩⟩

/-- After the first of two responses counter and totals show the same; the second member is longer
    than its data, which takes something away from the totals and not from the counter. -/
theorem saved_bytes_taken_back :
    let o : CompressorOptions := ⟨true, 0, 1, ⟨"api", []⟩⟩
    let Q := Handler.pipeline.compressed Gzip.deflating o
    let first := Q.quiet 0 ⟨⟨.new 1 4, .zero⟩, .fresh⟩
    let r : Request := ⟨"GET", ⟨"/", none⟩, [⟨"accept-encoding", Http.utf8 "gzip"⟩], none, none⟩
    let reply (n : Nat) : ScriptedAnswer :=
      .ok ⟨⟨200, "HTTP/1.1", [], none⟩, .whole (.ofBytes (List.replicate n 97))⟩
    let once : List (Move Errand Handler) :=
      [.call r ⟨"a", some (reply 45)⟩, .poll 0, .pull 0, .pull 0]
    let twice := once ++ [.call r ⟨"b", some (reply 1)⟩, .poll 1, .pull 1, .pull 1]
    let counter (moves : List (Move Errand Handler)) := savingsShown (Q.chronicle first moves)
    let saved (moves : List (Move Errand Handler)) := (Q.run first moves).state.own.totals.saved
    (counter once = 22 ∧ saved once = 22) ∧ (counter twice = 22 ∧ saved twice = 2) ∧
      counter twice ≠ saved twice ∧ saved twice < saved once := by
  decide +kernel

end Compressed

end Floodgate
