/-
  Floodgate/Proofs/Circuit/Tally.lean
  ===================================
  **Which calls a closed circuit has counted.**  The number that a closed circuit keeps
  is the number of certain calls, all of which were made since the circuit closed and
  have failed (`Tally`).  So a closed circuit that opens without being told to has
  counted as many calls as its threshold says (`Dealt.tally`).
-/
import Floodgate.Proofs.Circuit.Permits
import Mathlib.Data.Finset.Card

namespace Floodgate

/-- A closed circuit has counted the failures of certain calls, with numbers from `since` on. -/
structure Tally (since : Nat) (failed : Finset Nat) (c : Circuit) (ps : Permits) : Prop where
  closed : c.phase = .closed failed.card
  ended : ∀ n ∈ failed, ps[n]? = some none
  recent : ∀ n ∈ failed, since ≤ n
  /-- So are the calls that are still to be counted. -/
  current : ∀ n, ps[n]? = some (some c.generation) → since ≤ n
  begun : since ≤ ps.length

variable {now : Instant} {c c' : Circuit} {ps ps' : Permits} {since : Nat} {failed : Finset Nat}
  {x : Deed}

namespace Tally

theorem append (h : Tally since failed c ps) (p : Option Generation) :
    Tally since failed c (ps ++ [p]) where
  closed := h.closed
  ended n hn := by
    obtain ⟨hlt, _⟩ := List.getElem?_eq_some_iff.mp (h.ended n hn)
    rw [List.getElem?_append_left hlt]
    exact h.ended n hn
  recent := h.recent
  current n hn := by
    rcases getElem?_concat_cases hn with ⟨hnew, _⟩ | ⟨_, hold⟩
    · rw [hnew]
      exact h.begun
    · exact h.current n hold
  begun := by
    rw [List.length_append]
    exact Nat.le_add_right_of_le h.begun

theorem ended_set {n n' : Nat} (h : ps[n]? = some none) : (ps.set n' none)[n]? = some none := by
  obtain ⟨hlt, _⟩ := List.getElem?_eq_some_iff.mp h
  by_cases hn : n' = n
  · rw [hn, List.getElem?_set_self hlt]
  · rw [List.getElem?_set_ne hn]
    exact h

theorem set (h : Tally since failed c ps) (n : Nat) : Tally since failed c (ps.set n none) where
  closed := h.closed
  ended n' hn := ended_set (h.ended n' hn)
  recent := h.recent
  current n' hn := h.current n' (Permits.getElem?_set hn)
  begun := by
    rw [List.length_set]
    exact h.begun

theorem state (h : Tally since failed c ps) : c.phase.state = .closed := by
  rw [h.closed]
  rfl

/-- A circuit that stays closed can be counted on to keep its generation. -/
theorem generation (h : Tally since failed c ps) (hf : Circuit.Follows c c')
    (hclosed : c'.phase.state = .closed) : c'.generation = c.generation :=
  hf.same (hclosed.trans h.state.symm)

/-- A failure that takes effect is counted, and it may be the last. -/
theorem failure (h : Tally since failed c ps) (now : Instant) {n : Nat}
    (held : ps[n]? = some (some c.generation)) :
    n ∉ failed ∧ since ≤ n ∧
      (Tally since (insert n failed) (c.settle now c.generation true).1 (ps.set n none) ∨
        ((c.settle now c.generation true).1.phase.state = .opened ∧
          c.threshold ≤ (insert n failed).card)) := by
  have hnew : n ∉ failed := by
    intro hmem
    rw [h.ended n hmem] at held
    cases held
  have hcard : (insert n failed).card = failed.card + 1 := Finset.card_insert_of_notMem hnew
  have hphase : (c.settle now c.generation true).1.phase = c.afterFailure now :=
    Circuit.settle_failure_phase
  refine ⟨hnew, h.current n held, ?_⟩
  by_cases hlast : c.threshold ≤ failed.card + 1
  · simp only [Circuit.afterFailure, h.closed, if_pos hlast] at hphase
    rw [hphase, hcard]
    exact .inr ⟨rfl, hlast⟩
  · simp only [Circuit.afterFailure, h.closed, if_neg hlast] at hphase
    have hgen := h.generation (Circuit.follows_settle c now c.generation true)
      (by rw [hphase]; rfl)
    obtain ⟨hlt, _⟩ := List.getElem?_eq_some_iff.mp held
    refine .inl ⟨?_, ?_, ?_, ?_, ?_⟩
    · rw [hphase, hcard]
    · intro n' hn'
      rcases Finset.mem_insert.mp hn' with rfl | hold
      · exact List.getElem?_set_self hlt
      · exact ended_set (h.ended n' hold)
    · intro n' hn'
      rcases Finset.mem_insert.mp hn' with rfl | hold
      · exact h.current n' held
      · exact h.recent n' hold
    · intro n' hn'
      rw [hgen] at hn'
      exact h.current n' (Permits.getElem?_set hn')
    · rw [List.length_set]
      exact h.begun

theorem restart (h : Tally since failed c ps) (hlength : ps'.length = ps.length)
    (hps : ∀ (n : Nat) (g : Generation), ps'[n]? = some (some g) → ps[n]? = some (some g))
    (hf : Circuit.Follows c c') (hclosed : c'.phase = .closed 0) : Tally since ∅ c' ps' where
  closed := hclosed
  ended n hn := by cases hn
  recent n hn := by cases hn
  current n hn := by
    rw [h.generation hf (by rw [hclosed]; rfl)] at hn
    exact h.current n (hps n _ hn)
  begun := by
    rw [hlength]
    exact h.begun

end Tally

/-- **What can happen to a closed circuit.**  It goes on counting, starts again, or counts one
    failure more; then it opens if these are as many as the threshold. -/
theorem Dealt.tally (hd : Dealt now c ps x c' ps') (h : Tally since failed c ps)
    (hforced : x ≠ .forced) :
    Tally since failed c' ps' ∨ Tally since ∅ c' ps' ∨
      ∃ n, x = .ended n true ∧ n ∉ failed ∧ since ≤ n ∧
        (Tally since (insert n failed) c' ps' ∨
          (c'.phase.state = .opened ∧ c.threshold ≤ (insert n failed).card)) := by
  cases hd with
  | idle => exact .inl h
  | skipped => exact .inl (h.append none)
  | admitted g asked =>
    have hsame : (c.acquire now).2.1 = c := by
      simp only [Circuit.acquire, h.closed]
    rw [hsame]
    exact .inl (h.append (some g))
  | refused asked =>
    rw [Circuit.acquire_none asked]
    exact .inl (h.append none)
  | ended n g failure held =>
    by_cases hg : g = c.generation
    · subst hg
      cases failure with
      | true =>
        obtain ⟨hnew, hrecent, hcounted⟩ := h.failure now held
        exact .inr (.inr ⟨n, rfl, hnew, hrecent, hcounted⟩)
      | false =>
        have hphase : (c.settle now c.generation false).1.phase = c.afterSuccess :=
          Circuit.settle_success_phase
        simp only [Circuit.afterSuccess, h.closed] at hphase
        exact .inr (.inl (h.restart (List.length_set ..) (fun _ _ => Permits.getElem?_set)
          (Circuit.follows_settle c now c.generation false) hphase))
    · rw [Circuit.settle_stale hg]
      exact .inl (h.set n)
  | dropped n g held =>
    rw [Circuit.release_other (by rw [h.state]; simp)]
    exact .inl (h.set n)
  | forced => exact absurd rfl hforced
  | reset =>
    exact .inr (.inl (h.restart rfl (fun _ _ hn => hn) (Circuit.follows_reset c now)
      Circuit.enter_phase))

/-- **A circuit that closes has counted nothing**, and none of the calls under way counts. -/
theorem Dealt.tally_closes (hd : Dealt now c ps x c' ps')
    (past : ∀ g, some g ∈ ps → g ≤ c.generation)
    (hother : c.phase.state ≠ .closed) (hclosed : c'.phase.state = .closed) :
    Tally ps'.length ∅ c' ps' := by
  have hgen := hd.follows.other (by rw [hclosed]; exact Ne.symm hother)
  suffices h : c'.phase = .closed 0 ∧ ∀ g, some g ∈ ps' → some g ∈ ps by
    refine ⟨h.1, ?_, ?_, ?_, Nat.le_refl _⟩
    · intro n hn
      cases hn
    · intro n hn
      cases hn
    · intro n hn
      have hle := past _ (h.2 _ (List.mem_of_getElem? hn))
      rw [hgen] at hle
      exact absurd hle (Nat.not_succ_le_self _)
  cases hd with
  | idle => exact absurd hclosed hother
  | skipped => exact absurd hclosed hother
  | admitted g asked =>
    obtain ⟨failures, hp, _, _⟩ | ⟨since, _, _, hc⟩ | ⟨issued, successes, _, _, _, hc⟩ :=
      Circuit.acquire_some asked
    · exact absurd (by rw [hp]; rfl) hother
    · rw [hc, Circuit.enter_phase] at hclosed
      cases hclosed
    · rw [hc] at hclosed
      cases hclosed
  | refused asked =>
    rw [Circuit.acquire_none asked] at hclosed
    exact absurd hclosed hother
  | ended n g failure held =>
    have hmem : ∀ g, some g ∈ ps.set n none → some g ∈ ps := fun _ => Permits.mem_of_mem_set
    by_cases hg : g = c.generation
    · subst hg
      refine ⟨?_, hmem⟩
      cases failure with
      | true =>
        rw [Circuit.settle_failure_phase] at hclosed
        exact absurd (Circuit.closed_of_afterFailure hclosed) hother
      | false =>
        rw [Circuit.settle_success_phase] at hclosed ⊢
        exact Circuit.afterSuccess_of_closed hclosed
    · rw [Circuit.settle_stale hg] at hclosed
      exact absurd hclosed hother
  | dropped n g held =>
    obtain hc | ⟨issued, successes, _, hc⟩ := Circuit.release_eq c g
    · rw [hc] at hclosed
      exact absurd hclosed hother
    · rw [hc] at hclosed
      cases hclosed
  | forced =>
    rw [Circuit.forceOpen, Circuit.enter_phase] at hclosed
    cases hclosed
  | reset => exact ⟨Circuit.enter_phase, fun _ hg => hg⟩

end Floodgate
