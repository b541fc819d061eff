/-
  Floodgate/Proofs/Json/Numerals.lean
  ===================================
  **Numbers in JSON text.**  The grammar of numbers, part by part, and that the readers
  take exactly what it generates (`readNumberText_append`, `readNumberText_ok`).

  A number has no closing mark, so a reader goes on as long as the text looks like a
  number.  What stands after one must therefore not go on with it (`Follows`); then the
  reading does not depend on what it is (`readNumber_append`).
-/
import Floodgate.Json.Record
import Mathlib.Data.List.TakeWhile

namespace Floodgate.Json

/-! ### Blanks -/

/-- Nothing but blanks. -/
def Blank (ws : List Char) : Prop := ∀ c ∈ ws, isSpace c = true

theorem Blank.nil : Blank [] := List.forall_mem_nil _

theorem skipSpace_append {ws : List Char} (h : Blank ws) (cs : List Char) :
    skipSpace (ws ++ cs) = skipSpace cs :=
  List.dropWhile_append_of_pos h

theorem skipSpace_blank {ws : List Char} (h : Blank ws) : skipSpace ws = [] :=
  List.dropWhile_eq_nil_iff.2 h

theorem skipSpace_cons {c : Char} (h : isSpace c = false) (cs : List Char) :
    skipSpace (c :: cs) = c :: cs := by
  simp [skipSpace, h]

/-- What is passed over is blank. -/
theorem exists_blank (cs : List Char) : ∃ ws, Blank ws ∧ cs = ws ++ skipSpace cs :=
  ⟨cs.takeWhile isSpace, fun _ => List.mem_takeWhile_imp, List.takeWhile_append_dropWhile.symm⟩

/-! ### What stands after a number -/

/-- A number may go on with this character. -/
def goesOn (c : Char) : Bool := c.isDigit || c = '.' || c = 'e' || c = 'E'

/-- No number goes on with this text. -/
def Follows (rest : List Char) : Prop := ∀ c ∈ rest.head?, goesOn c = false

theorem Follows.nil : Follows [] := nofun

theorem follows_cons {c : Char} (h : goesOn c = false) (rest : List Char) :
    Follows (c :: rest) := by
  intro d hd
  cases hd
  exact h

theorem goesOn_of_isSpace {c : Char} (h : isSpace c = true) : goesOn c = false := by
  simp only [isSpace, Bool.or_eq_true, decide_eq_true_eq] at h
  rcases h with ((rfl | rfl) | rfl) | rfl <;> decide

/-- Blanks never go on with a number, whatever is after them. -/
theorem Blank.follows_append {ws cs : List Char} (h : Blank ws) (hcs : Follows cs) :
    Follows (ws ++ cs) := by
  cases ws with
  | nil => exact hcs
  | cons w ws => exact follows_cons (goesOn_of_isSpace (h w (by simp))) _

theorem Blank.follows {ws : List Char} (h : Blank ws) : Follows ws := by
  simpa using h.follows_append Follows.nil

/-- Not a digit first. -/
def Undigit (rest : List Char) : Prop := ∀ c ∈ rest.head?, c.isDigit = false

theorem Follows.undigit {rest : List Char} (h : Follows rest) : Undigit rest := by
  intro c hc
  have hgoes := h c hc
  simp only [goesOn, Bool.or_eq_false_iff] at hgoes
  exact hgoes.1.1.1

/-! ### The parts of a number -/

/-- Digits, at least one. -/
def Digits (ds : List Char) : Prop := ds ≠ [] ∧ ∀ d ∈ ds, d.isDigit = true

/-- The whole part: a zero, or digits that do not start with one. -/
inductive Whole : List Char → Prop where
  | zero : Whole ['0']
  | digits {ds : List Char} (h : Digits ds) (first : ds.head? ≠ some '0') : Whole ds

/-- The text of a fraction that may be there. -/
inductive Fraction : Option (List Char) → List Char → Prop where
  | absent : Fraction none []
  | digits {ds : List Char} (h : Digits ds) : Fraction (some ds) ('.' :: ds)

/-- The text of a sign; `true` for minus. -/
inductive Sign : Bool → List Char → Prop where
  | none : Sign false []
  | plus : Sign false ['+']
  | minus : Sign true ['-']

/-- The text of an exponent that may be there. -/
inductive Exponent : Option (Bool × List Char) → List Char → Prop where
  | absent : Exponent none []
  | digits {e : Char} {minus : Bool} {sign ds : List Char} (mark : e = 'e' ∨ e = 'E')
      (hsign : Sign minus sign) (h : Digits ds) : Exponent (some (minus, ds)) (e :: (sign ++ ds))

/-- The text of a number after its sign. -/
inductive NumberText.Spelled (t : NumberText) : List Char → Prop where
  | parts {f e : List Char} (hwhole : Whole t.whole) (hfraction : Fraction t.fraction f)
      (hexponent : Exponent t.exponent e) : t.Spelled (t.whole ++ (f ++ e))

/-- The text of a number. -/
inductive Numeral : List Char → Prop where
  | plain {t : NumberText} {cs : List Char} (h : t.Spelled cs) : Numeral cs
  | minus {t : NumberText} {cs : List Char} (h : t.Spelled cs) : Numeral ('-' :: cs)

/-! ### Runs of digits -/

theorem leadingDigits_append {ds rest : List Char} (h : ∀ d ∈ ds, d.isDigit = true)
    (hrest : Undigit rest) : leadingDigits (ds ++ rest) = ds := by
  rw [leadingDigits, List.takeWhile_append_of_pos h]
  cases rest with
  | nil => simp
  | cons c rest => simp [hrest c rfl]

theorem afterDigits_append {ds rest : List Char} (h : ∀ d ∈ ds, d.isDigit = true)
    (hrest : Undigit rest) : afterDigits (ds ++ rest) = rest := by
  rw [afterDigits, List.dropWhile_append_of_pos h]
  cases rest with
  | nil => simp
  | cons c rest => simp [hrest c rfl]

theorem leadingDigits_cons {c : Char} (h : c.isDigit = true) (rest : List Char) :
    leadingDigits (c :: rest) = c :: leadingDigits rest := by
  simp [leadingDigits, h]

theorem digits_leading {c : Char} (h : c.isDigit = true) (rest : List Char) :
    Digits (leadingDigits (c :: rest)) := by
  constructor
  · simp [leadingDigits_cons h]
  · intro d hd
    exact List.mem_takeWhile_imp hd

theorem leading_append_after (cs : List Char) : leadingDigits cs ++ afterDigits cs = cs :=
  List.takeWhile_append_dropWhile

theorem readDigits_append {ds rest : List Char} (h : Digits ds) (hrest : Undigit rest) :
    readDigits (ds ++ rest) = .ok (ds, rest) := by
  have hleading := leadingDigits_append h.2 hrest
  have hafter := afterDigits_append h.2 hrest
  cases ds with
  | nil => exact absurd rfl h.1
  | cons d ds =>
    simp only [List.cons_append] at hleading hafter ⊢
    simp [readDigits, h.2 d (by simp), hleading, hafter]

theorem readDigits_ok {cs ds rest : List Char} (h : readDigits cs = .ok (ds, rest)) :
    Digits ds ∧ cs = ds ++ rest := by
  cases cs with
  | nil => simp [readDigits] at h
  | cons c cs =>
    by_cases hdigit : c.isDigit = true
    · simp only [readDigits, hdigit, if_true, Except.ok.injEq, Prod.mk.injEq] at h
      obtain ⟨rfl, rfl⟩ := h
      exact ⟨digits_leading hdigit cs, (leading_append_after _).symm⟩
    · simp [readDigits, hdigit] at h

/-! ### Reading the parts -/

theorem readWhole_append {w rest : List Char} (h : Whole w) (hrest : Undigit rest) :
    readWhole (w ++ rest) = .ok (w, rest) := by
  cases h with
  | zero =>
    have hnone : leadingDigits rest = [] := leadingDigits_append (List.forall_mem_nil _) hrest
    simp [readWhole, hnone]
  | digits h first =>
    have hread := readDigits_append h hrest
    cases w with
    | nil => exact absurd rfl h.1
    | cons d ds =>
      have hzero : d ≠ '0' := fun heq => first (by simp [heq])
      simpa [readWhole, readDigits, hzero] using hread

theorem readWhole_ok {cs w rest : List Char} (h : readWhole cs = .ok (w, rest)) :
    Whole w ∧ cs = w ++ rest := by
  cases cs with
  | nil => simp [readWhole] at h
  | cons c cs =>
    by_cases hzero : c = '0'
    · subst hzero
      by_cases hnone : leadingDigits cs = []
      · simp only [readWhole, hnone, if_true, Except.ok.injEq, Prod.mk.injEq] at h
        obtain ⟨rfl, rfl⟩ := h
        exact ⟨.zero, rfl⟩
      · simp [readWhole, hnone] at h
    · have hread : readDigits (c :: cs) = .ok (w, rest) := by
        simpa [readWhole, readDigits, hzero] using h
      obtain ⟨hdigits, heq⟩ := readDigits_ok hread
      refine ⟨.digits hdigits fun hfirst => hzero ?_, heq⟩
      cases w with
      | nil => exact absurd rfl hdigits.1
      | cons d ds =>
        cases heq
        exact Option.some.inj hfirst

theorem readFraction_append {f : Option (List Char)} {cs rest : List Char} (h : Fraction f cs)
    (hdigit : Undigit rest) (hpoint : rest.head? ≠ some '.') :
    readFraction? (cs ++ rest) = .ok (f, rest) := by
  cases h with
  | absent =>
    rw [List.nil_append, readFraction?.eq_def]
    split
    · exact absurd rfl hpoint
    · rfl
  | digits h => simp [readFraction?, readDigits_append h hdigit, Except.map]

theorem readFraction_ok {f : Option (List Char)} {cs rest : List Char}
    (h : readFraction? cs = .ok (f, rest)) : ∃ fs, Fraction f fs ∧ cs = fs ++ rest := by
  rw [readFraction?.eq_def] at h
  split at h
  next cs =>
    cases hread : readDigits cs with
    | error e => simp [hread, Except.map] at h
    | ok read =>
      obtain ⟨hdigits, heq⟩ := readDigits_ok hread
      simp only [hread, Except.map, Except.ok.injEq, Prod.mk.injEq] at h
      obtain ⟨rfl, rfl⟩ := h
      exact ⟨_, .digits hdigits, by simp [heq]⟩
  next cs _ =>
    simp only [Except.ok.injEq, Prod.mk.injEq] at h
    obtain ⟨rfl, rfl⟩ := h
    exact ⟨[], .absent, rfl⟩

theorem readExponent_append {minus : Bool} {sign ds rest : List Char} (hsign : Sign minus sign)
    (h : Digits ds) (hrest : Undigit rest) :
    readExponent (sign ++ ds ++ rest) = .ok ((minus, ds), rest) := by
  have hread := readDigits_append h hrest
  cases hsign with
  | none =>
    cases ds with
    | nil => exact absurd rfl h.1
    | cons d ds =>
      have hd := h.2 d (by simp)
      have hplus : d ≠ '+' := by rintro rfl; exact absurd hd (by decide)
      have hminus : d ≠ '-' := by rintro rfl; exact absurd hd (by decide)
      simp only [List.nil_append, List.cons_append] at hread ⊢
      simp [readExponent, hplus, hminus, hread, Except.map]
  | plus => simp [readExponent, hread, Except.map]
  | minus => simp [readExponent, hread, Except.map]

/-- An exponent is a sign, maybe an empty one, and digits. -/
theorem readExponent_sign (cs : List Char) :
    ∃ minus sign ds, Sign minus sign ∧ cs = sign ++ ds ∧
      readExponent cs = (readDigits ds).map fun read => ((minus, read.1), read.2) := by
  rw [readExponent.eq_def]
  split
  next minus ds hsign =>
  split at hsign
  · cases hsign
    exact ⟨false, ['+'], _, .plus, rfl, rfl⟩
  · cases hsign
    exact ⟨true, ['-'], _, .minus, rfl, rfl⟩
  · cases hsign
    exact ⟨false, [], _, .none, rfl, rfl⟩

theorem readExponent_ok {e : Bool × List Char} {cs rest : List Char}
    (h : readExponent cs = .ok (e, rest)) :
    ∃ sign, Sign e.1 sign ∧ Digits e.2 ∧ cs = sign ++ e.2 ++ rest := by
  obtain ⟨minus, sign, ds, hsign, rfl, heq⟩ := readExponent_sign cs
  rw [heq] at h
  cases hread : readDigits ds with
  | error e => simp [hread, Except.map] at h
  | ok read =>
    simp only [hread, Except.map, Except.ok.injEq, Prod.mk.injEq] at h
    obtain ⟨rfl, rfl⟩ := h
    obtain ⟨hdigits, rfl⟩ := readDigits_ok hread
    exact ⟨sign, hsign, hdigits, (List.append_assoc _ _ _).symm⟩

theorem readExponent?_append {e : Option (Bool × List Char)} {cs rest : List Char}
    (h : Exponent e cs) (hrest : Follows rest) : readExponent? (cs ++ rest) = .ok (e, rest) := by
  cases h with
  | absent =>
    cases rest with
    | nil => rfl
    | cons c rest =>
      have hc := hrest c rfl
      simp only [goesOn, Bool.or_eq_false_iff, decide_eq_false_iff_not] at hc
      simp [readExponent?, hc.1.2, hc.2]
  | digits mark hsign h =>
    simp only [List.cons_append, readExponent?, mark, if_true]
    rw [readExponent_append hsign h hrest.undigit]
    rfl

theorem readExponent?_ok {e : Option (Bool × List Char)} {cs rest : List Char}
    (h : readExponent? cs = .ok (e, rest)) : ∃ es, Exponent e es ∧ cs = es ++ rest := by
  cases cs with
  | nil =>
    simp only [readExponent?, Except.ok.injEq, Prod.mk.injEq] at h
    obtain ⟨rfl, rfl⟩ := h
    exact ⟨[], .absent, rfl⟩
  | cons c cs =>
    by_cases hmark : c = 'e' ∨ c = 'E'
    · simp only [readExponent?, hmark, if_true] at h
      cases hread : readExponent cs with
      | error e => simp [hread, Except.map] at h
      | ok read =>
        obtain ⟨sign, hsign, hdigits, heq⟩ := readExponent_ok hread
        simp only [hread, Except.map, Except.ok.injEq, Prod.mk.injEq] at h
        obtain ⟨rfl, rfl⟩ := h
        exact ⟨_, .digits hmark hsign hdigits, by simp [heq]⟩
    · simp only [readExponent?, hmark, if_false, Except.ok.injEq, Prod.mk.injEq] at h
      obtain ⟨rfl, rfl⟩ := h
      exact ⟨[], .absent, rfl⟩

/-! ### Reading numbers -/

/-- An exponent or what follows a number starts with no digit and no point. -/
theorem Exponent.head {e : Option (Bool × List Char)} {cs rest : List Char} (h : Exponent e cs)
    (hrest : Follows rest) : Undigit (cs ++ rest) ∧ (cs ++ rest).head? ≠ some '.' := by
  cases h with
  | absent =>
    refine ⟨hrest.undigit, fun hpoint => ?_⟩
    exact absurd (hrest '.' hpoint) (by decide)
  | digits mark hsign h =>
    rcases mark with rfl | rfl <;> simp [Undigit]

theorem Fraction.undigit {f : Option (List Char)} {cs rest : List Char} (h : Fraction f cs)
    (hrest : Undigit rest) : Undigit (cs ++ rest) := by
  cases h with
  | absent => exact hrest
  | digits h => simp [Undigit]

/-- Every number is read to its end and no further. -/
theorem readNumberText_append {t : NumberText} {cs rest : List Char} (h : t.Spelled cs)
    (hrest : Follows rest) (negative : Bool) :
    readNumberText negative (cs ++ rest) = .ok ({ t with negative }, rest) := by
  rcases h with ⟨hwhole, hfraction, hexponent⟩
  obtain ⟨hdigit, hpoint⟩ := hexponent.head hrest
  simp only [readNumberText, List.append_assoc]
  rw [readWhole_append hwhole (hfraction.undigit hdigit)]
  simp only [readFraction_append hfraction hdigit hpoint, readExponent?_append hexponent hrest]

/-- Nothing else is read as a number. -/
theorem readNumberText_ok {t : NumberText} {negative : Bool} {cs rest : List Char}
    (h : readNumberText negative cs = .ok (t, rest)) :
    t.negative = negative ∧ ∃ ns, t.Spelled ns ∧ cs = ns ++ rest := by
  simp only [readNumberText] at h
  split at h
  · cases h
  next whole afterWhole hwhole =>
  split at h
  · cases h
  next fraction afterFraction hfraction =>
  split at h
  · cases h
  next exponent afterExponent hexponent =>
  cases h
  obtain ⟨hw, rfl⟩ := readWhole_ok hwhole
  obtain ⟨fs, hf, rfl⟩ := readFraction_ok hfraction
  obtain ⟨es, he, rfl⟩ := readExponent?_ok hexponent
  exact ⟨rfl, _, .parts hw hf he, by simp⟩

theorem skipNumber_append {t : NumberText} {cs rest : List Char} (h : t.Spelled cs)
    (hrest : Follows rest) : skipNumber (cs ++ rest) = .ok rest := by
  simp [skipNumber, readNumberText_append h hrest]

/-- The number that was read, from its parts. -/
def numberOf (parts : Reading NumberText) : Reading Number :=
  match parts with
  | .error e => .error e
  | .ok (t, rest) =>
    match t.number? with
    | some n => .ok (n, rest)
    | none => .error .malformed

theorem readNumber_plain {cs : List Char} (h : cs.head? ≠ some '-') :
    readNumber cs = numberOf (readNumberText false cs) := by
  rw [readNumber.eq_def]
  split
  · exact absurd rfl h
  · rfl

theorem numberOf_ok_iff {parts : Reading NumberText} {n : Number} {rest : List Char} :
    numberOf parts = .ok (n, rest) ↔ ∃ t, parts = .ok (t, rest) ∧ t.number? = some n := by
  constructor
  · intro h
    rw [numberOf.eq_def] at h
    split at h
    · cases h
    next t after =>
    split at h
    next m hnumber =>
      cases h
      exact ⟨t, rfl, hnumber⟩
    · cases h
  · rintro ⟨t, rfl, hnumber⟩
    simp [numberOf, hnumber]

theorem numberOf_append {negative : Bool} {n : Number} {cs rest : List Char}
    (h : numberOf (readNumberText negative cs) = .ok (n, [])) (hrest : Follows rest) :
    numberOf (readNumberText negative (cs ++ rest)) = .ok (n, rest) := by
  obtain ⟨t, hread, hnumber⟩ := numberOf_ok_iff.1 h
  obtain ⟨rfl, ns, hspelled, hcs⟩ := readNumberText_ok hread
  rw [List.append_nil] at hcs
  subst hcs
  exact numberOf_ok_iff.2 ⟨t, readNumberText_append hspelled hrest t.negative, hnumber⟩

/-- The number that a whole text is read as is read from it whatever stands after it. -/
theorem readNumber_append {n : Number} {cs rest : List Char} (h : readNumber cs = .ok (n, []))
    (hrest : Follows rest) : readNumber (cs ++ rest) = .ok (n, rest) := by
  cases cs with
  | nil => cases h
  | cons c cs =>
    by_cases hminus : c = '-'
    · subst hminus
      exact numberOf_append h hrest
    · have hhead (ds : List Char) : (c :: ds).head? ≠ some '-' := by simpa using hminus
      rw [readNumber_plain (hhead cs)] at h
      rw [List.cons_append, readNumber_plain (hhead _)]
      exact numberOf_append h hrest

end Floodgate.Json
