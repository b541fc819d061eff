/-
  Floodgate/Proofs/Json/Values.lean
  =================================
  **Reading single values.**  A reader takes the texts of a value if it reads them so in
  every place where they may stand: after blanks, and before anything that does not go on
  with a number (`Reads`).  Truth values and counts have one text each.  A floating-point
  value has many; any text that is read as it will do.
-/
import Floodgate.Proofs.Json.Grammar
import Mathlib.Data.List.Basic

namespace Floodgate.Json

/-- A reader takes every text of a kind for the value `a` and leaves what is after it. -/
def Reads {α : Type} (read : List Char → Reading α) (Text : List Char → Prop) (a : α) : Prop :=
  ∀ {ws cs rest : List Char}, Blank ws → Text cs → Follows rest →
    read (ws ++ (cs ++ rest)) = .ok (a, rest)

/-! ### Single values -/

theorem reads_bool (b : Bool) : Reads readBool (· = (Value.bool b).written) b := by
  rintro ws _ rest hws rfl -
  cases b with
  | false =>
    simp [readBool, Value.written, skipSpace_close hws (c := 'f') (by decide), skipWord, Except.map]
  | true =>
    simp [readBool, Value.written, skipSpace_close hws (c := 't') (by decide), skipWord, Except.map]

/-- A whole text that is read as a number is read so among others. -/
theorem readAnyNumber_append {n : Number} {ws cs rest : List Char}
    (h : readAnyNumber cs = .ok (n, [])) (hws : Blank ws) (hrest : Follows rest) :
    readAnyNumber (ws ++ (cs ++ rest)) = .ok (n, rest) := by
  obtain ⟨us, hus, hcs⟩ := exists_blank cs
  cases hskip : skipSpace cs with
  | nil => simp [readAnyNumber, hskip] at h
  | cons c ds =>
    have hc : isSpace c = false := by
      have hfirst := List.head?_dropWhile_not isSpace cs
      rwa [show cs.dropWhile isSpace = c :: ds from hskip] at hfirst
    have htext : skipSpace (ws ++ (cs ++ rest)) = c :: (ds ++ rest) := by
      rw [skipSpace_append hws, hcs, hskip, List.append_assoc, List.cons_append,
        skipSpace_close hus hc]
    simp only [readAnyNumber, hskip] at h
    split at h
    next hnumber =>
      simp only [readAnyNumber, htext, hnumber, if_true]
      exact readNumber_append h hrest
    · cases h

theorem le_ofDigitChars (ds : List Char) (s : Nat) : s ≤ Nat.ofDigitChars 10 ds s := by
  induction ds generalizing s with
  | nil => exact Nat.le_refl s
  | cons d ds ih =>
    rw [Nat.ofDigitChars_cons]
    exact Nat.le_trans (by omega) (ih _)

/-- Digits of a number that fits are all gathered. -/
theorem gather_fits (ds : List Char) (s : Nat) (h : Nat.ofDigitChars 10 ds s ≤ wordLimit) :
    gather s ds = (Nat.ofDigitChars 10 ds s, []) := by
  induction ds generalizing s with
  | nil => rfl
  | cons d ds ih =>
    have hvalue : s * 10 + digitValue d = 10 * s + (d.toNat - '0'.toNat) := by
      rw [Nat.mul_comm]
      rfl
    rw [Nat.ofDigitChars_cons] at h ⊢
    have hfits := Nat.le_trans (le_ofDigitChars ds _) h
    simp only [gather, hvalue, hfits, if_true]
    exact ih _ h

theorem digits_toDigits (n : Nat) : Digits (Nat.toDigits 10 n) :=
  ⟨Nat.toDigits_ne_nil, fun _ => Nat.isDigit_of_mem_toDigits (by decide) (by decide)⟩

theorem head_toDigits (n : Nat) (h : 0 < n) : (Nat.toDigits 10 n).head? ≠ some '0' := by
  induction n using Nat.strong_induction_on with
  | _ n ih =>
    rw [Nat.toDigits_eq_if (by decide)]
    split
    next hlt =>
      have hall : ∀ d < 10, 0 < d → [Nat.digitChar d].head? ≠ some '0' := by decide
      exact hall n hlt h
    next hge =>
      rw [List.head?_append_of_ne_nil _ Nat.toDigits_ne_nil]
      exact ih (n / 10) (by omega) (by omega)

theorem whole_toDigits (n : Nat) : Whole (Nat.toDigits 10 n) := by
  rcases Nat.eq_zero_or_pos n with rfl | hpos
  · exact .zero
  · exact .digits (digits_toDigits n) (head_toDigits n hpos)

theorem readNumber_toDigits {n : Nat} (h : n ≤ wordLimit) :
    readNumber (Nat.toDigits 10 n) = .ok (.natural n, []) := by
  have hspelled : NumberText.Spelled ⟨false, Nat.toDigits 10 n, none, none⟩ (Nat.toDigits 10 n) := by
    simpa using NumberText.Spelled.parts (t := ⟨false, Nat.toDigits 10 n, none, none⟩)
      (whole_toDigits n) .absent .absent
  have hvalue := Nat.ofDigitChars_toDigits (b := 10) (n := n) (by decide) (by decide)
  have hgather := gather_fits (Nat.toDigits 10 n) 0 (by rw [hvalue]; exact h)
  have hread := readNumberText_append hspelled .nil false
  have hhead : (Nat.toDigits 10 n).head? ≠ some '-' := by
    intro hminus
    exact absurd ((digits_toDigits n).2 '-' (List.mem_of_mem_head? hminus)) (by decide)
  rw [List.append_nil] at hread
  rw [readNumber_plain hhead]
  refine numberOf_ok_iff.2 ⟨_, hread, ?_⟩
  simp [NumberText.number?, hgather, hvalue]

theorem readAnyNumber_toDigits {n : Nat} (h : n ≤ wordLimit) :
    readAnyNumber (Nat.toDigits 10 n) = .ok (.natural n, []) := by
  have hread := readNumber_toDigits h
  obtain ⟨d, ds, heq, hd⟩ := (whole_toDigits n).head
  rw [heq] at hread ⊢
  simpa [readAnyNumber, skipSpace_cons (opens_of_isDigit hd).1, hd] using hread

/-- A count that fits, in digits. -/
theorem reads_count {n limit : Nat} (h : n ≤ limit) (hlimit : limit ≤ wordLimit) :
    Reads (readCount limit) (· = (Value.nat n).written) n := by
  rintro ws _ rest hws rfl hrest
  have hread := readAnyNumber_append (readAnyNumber_toDigits (Nat.le_trans h hlimit)) hws hrest
  simp only [readCount, Value.nat, Value.written, Number.text, hread, h, if_true]

/-- The floating-point value of a number. -/
def Number.toFloat : Number → Float
  | .natural n => Float.ofNat n
  | .negative n => -(Float.ofNat n)
  | .real x => x

theorem readReal_eq (cs : List Char) :
    readReal cs = (readAnyNumber cs).map fun (n, rest) => (n.toFloat, rest) := by
  rw [readReal.eq_def]
  split <;> simp [*, Except.map, Number.toFloat]

/-- An integer denotes a floating-point value. -/
theorem readReal_nat {n : Nat} (h : n ≤ wordLimit) :
    readReal (Value.nat n).written = .ok (Float.ofNat n, []) := by
  rw [readReal_eq, Value.nat, Value.written, Number.text, readAnyNumber_toDigits h]
  rfl

/-- A floating-point value, in any text that denotes it. -/
theorem reads_real (x : Float) : Reads readReal (fun cs => readReal cs = .ok (x, [])) x := by
  intro ws cs rest hws hcs hrest
  rw [readReal_eq] at hcs ⊢
  cases hread : readAnyNumber cs with
  | error e => simp [hread, Except.map] at hcs
  | ok read =>
    obtain ⟨n, after⟩ := read
    simp only [hread, Except.map, Except.ok.injEq, Prod.mk.injEq] at hcs
    obtain ⟨rfl, rfl⟩ := hcs
    rw [readAnyNumber_append hread hws hrest]
    rfl

/-! ### Arrays of counts -/

/-- What stands before an item or a member: blanks, and a comma unless it is the first. -/
def Lead (first : Bool) (l : List Char) : Prop := if first then Blank l else Mark ',' l

theorem lead_start : Lead true [] := Blank.nil

theorem Mark.lead {l : List Char} (h : Mark ',' l) : Lead false l := h

/-- The counts of an array after its opening bracket, and the closing one. -/
inductive Listed : Bool → List Nat → List Char → Prop where
  | closed {first : Bool} {ws : List Char} (hws : Blank ws) : Listed first [] (ws ++ [']'])
  | item {first : Bool} {l cs : List Char} {n : Nat} {ns : List Nat} (hl : Lead first l)
      (h : Listed false ns cs) : Listed first (n :: ns) (l ++ ((Value.nat n).written ++ cs))

/-- The text of an array of counts. -/
def CountsText (ns : List Nat) (cs : List Char) : Prop :=
  ∃ body, Listed true ns body ∧ cs = '[' :: body

theorem Listed.follows {ns : List Nat} {cs : List Char} (h : Listed false ns cs)
    (rest : List Char) : Follows (cs ++ rest) := by
  cases h with
  | closed hws =>
    rw [List.append_assoc]
    exact hws.follows_append (follows_cons (by decide) _)
  | item hl h =>
    rw [List.append_assoc]
    exact Mark.follows_append hl _

theorem nextItem_closed {first : Bool} {ws : List Char} (hws : Blank ws) (rest : List Char) :
    nextItem first (ws ++ ']' :: rest) = .ok (.closed rest) := by
  simp [nextItem, skipSpace_close hws (c := ']') (by decide)]

theorem nextItem_item {first : Bool} {l : List Char} {c : Char} (hl : Lead first l) (hc : Opens c)
    (rest : List Char) : nextItem first (l ++ c :: rest) = .ok (.item (c :: rest)) := by
  cases first with
  | true => simp [nextItem, skipSpace_close hl hc.1, hc.2.1]
  | false =>
    obtain ⟨v, hv, hcomma⟩ := Mark.skipSpace_append hl (by decide) (c :: rest)
    simp [nextItem, hcomma, skipSpace_close hv hc.1, hc.2.1]

theorem readCountsWithin_append {limit : Nat} (hlimit : limit ≤ wordLimit) {first : Bool}
    {ns : List Nat} {cs : List Char} (h : Listed first ns cs) (hns : ∀ n ∈ ns, n ≤ limit)
    (rest : List Char) (fuel : Nat) (hfuel : cs.length ≤ fuel) :
    readCountsWithin limit fuel first (cs ++ rest) = .ok (ns, rest) := by
  induction h generalizing fuel with
  | closed hws =>
    rw [List.length_append, List.length_singleton] at hfuel
    obtain ⟨fuel, rfl⟩ := Nat.exists_eq_add_of_le' (show 1 ≤ fuel by omega)
    simp [readCountsWithin, nextItem_closed hws]
  | @item first l cs n ns hl h ih =>
    obtain ⟨d, ds, hdigits, hd⟩ := (whole_toDigits n).head
    have hwritten : (Value.nat n).written = d :: ds := hdigits
    rw [List.length_append, List.length_append, hwritten, List.length_cons] at hfuel
    obtain ⟨fuel, rfl⟩ := Nat.exists_eq_add_of_le' (show 1 ≤ fuel by omega)
    have hitem : nextItem first (l ++ ((Value.nat n).written ++ (cs ++ rest))) =
        .ok (.item ((Value.nat n).written ++ (cs ++ rest))) := by
      rw [hwritten]
      exact nextItem_item hl (opens_of_isDigit hd) (ds ++ (cs ++ rest))
    have hcount := reads_count (hns n (by simp)) hlimit .nil rfl (h.follows rest)
    rw [List.nil_append] at hcount
    have hothers := ih (fun m hm => hns m (by simp [hm])) fuel (by omega)
    simp [readCountsWithin, hitem, hcount, hothers, Except.map]

theorem reads_counts {ns : List Nat} {limit : Nat} (h : ∀ n ∈ ns, n ≤ limit)
    (hlimit : limit ≤ wordLimit) : Reads (readCounts limit) (CountsText ns) ns := by
  rintro ws _ rest hws ⟨body, hbody, rfl⟩ -
  have hitems := readCountsWithin_append hlimit hbody h rest ((body ++ rest).length + 1)
    (by rw [List.length_append]; omega)
  simpa [readCounts, skipSpace_close hws (c := '[') (by decide)] using hitems

end Floodgate.Json
