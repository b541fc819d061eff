/-
  Floodgate/Proofs/Json/Grammar.lean
  ==================================
  **JSON text and passing over it.**  The grammar of strings and of values, with blanks
  wherever they may stand, and two facts about it: a string that spells a name is read
  as this name however it is spelled (`readString_append`), and a value is passed over to
  its end whatever it is and however deep it goes (`skipValue_append`).

  The grammar is written down by itself and not by what the readers do.  A string that is
  passed over may hold code units that no character has, one that is read may not; so
  there is a relation for each (`Quoted` and `Spells`).
-/
import Floodgate.Proofs.Json.Numerals

namespace Floodgate.Json

/-! ### Hexadecimal digits and escapes -/

/-- A hexadecimal digit and its value. -/
def HexDigit (c : Char) (v : Nat) : Prop :=
  "0123456789abcdef".toList[v]? = some c ∨ "0123456789ABCDEF".toList[v]? = some c

/-- Four hexadecimal digits and their value. -/
inductive Hex : List Char → Nat → Prop where
  | digits {a b c d : Char} {i j k l : Nat} (ha : HexDigit a i) (hb : HexDigit b j)
      (hc : HexDigit c k) (hd : HexDigit d l) : Hex [a, b, c, d] (((i * 16 + j) * 16 + k) * 16 + l)

/-- The escapes of one letter and the characters they stand for. -/
def escapes : List (Char × Char) :=
  [('"', '"'), ('\\', '\\'), ('/', '/'), ('b', '\x08'), ('f', '\x0c'), ('n', '\n'), ('r', '\r'),
   ('t', '\t')]

theorem hexValue?_eq {c : Char} {v : Nat} (h : HexDigit c v) : hexValue? c = some v := by
  rcases h with h | h <;>
  · obtain ⟨hv, rfl⟩ := List.getElem?_eq_some_iff.1 h
    revert hv
    revert v
    decide

theorem readHex_append {hs : List Char} {n : Nat} (h : Hex hs n) (rest : List Char) :
    readHex (hs ++ rest) = .ok (n, rest) := by
  cases h with
  | digits ha hb hc hd =>
    simp [readHex, hexValue?_eq ha, hexValue?_eq hb, hexValue?_eq hc, hexValue?_eq hd]

theorem shortEscape?_eq {e c : Char} (h : (e, c) ∈ escapes) : shortEscape? e = some c := by
  have hall : ∀ p ∈ escapes, shortEscape? p.1 = some p.2 := by decide
  exact hall _ h

theorem ne_unit_of_mem_escapes {e c : Char} (h : (e, c) ∈ escapes) : e ≠ 'u' := by
  have hall : ∀ p ∈ escapes, p.1 ≠ 'u' := by decide
  exact hall _ h

/-! ### Strings -/

/-- A character that stands for itself in a string. -/
def Plain (c : Char) : Prop := c ≠ '"' ∧ c ≠ '\\' ∧ 32 ≤ c.toNat

/-- What stands between the quotes of a string. -/
inductive Quoted : List Char → Prop where
  | nil : Quoted []
  | plain {c : Char} {cs : List Char} (hc : Plain c) (h : Quoted cs) : Quoted (c :: cs)
  | escape {e c : Char} {cs : List Char} (he : (e, c) ∈ escapes) (h : Quoted cs) :
      Quoted ('\\' :: e :: cs)
  | unit {hs cs : List Char} {n : Nat} (hn : Hex hs n) (h : Quoted cs) :
      Quoted ('\\' :: 'u' :: (hs ++ cs))

/-- What stands between the quotes of a string of these characters. -/
inductive Spells : List Char → List Char → Prop where
  | nil : Spells [] []
  | plain {c : Char} {s cs : List Char} (hc : Plain c) (h : Spells s cs) : Spells (c :: s) (c :: cs)
  | escape {e c : Char} {s cs : List Char} (he : (e, c) ∈ escapes) (h : Spells s cs) :
      Spells (c :: s) ('\\' :: e :: cs)
  | unit {hs s cs : List Char} {n : Nat} (hn : Hex hs n) (alone : n < 0xD800 ∨ 0xDFFF < n)
      (h : Spells s cs) : Spells (Char.ofNat n :: s) ('\\' :: 'u' :: (hs ++ cs))
  | pair {hs ls s cs : List Char} {high low : Nat} (hhigh : Hex hs high) (hlow : Hex ls low)
      (first : 0xD800 ≤ high ∧ high ≤ 0xDBFF) (second : 0xDC00 ≤ low ∧ low ≤ 0xDFFF)
      (h : Spells s cs) :
      Spells (Char.ofNat (0x10000 + (high - 0xD800) * 1024 + (low - 0xDC00)) :: s)
        ('\\' :: 'u' :: (hs ++ '\\' :: 'u' :: (ls ++ cs)))

theorem skipChars_append {q : List Char} (h : Quoted q) (rest : List Char) :
    ∀ fuel, q.length < fuel → skipChars fuel (q ++ '"' :: rest) = .ok rest := by
  induction h with
  | nil =>
    intro fuel hfuel
    obtain ⟨fuel, rfl⟩ := Nat.exists_eq_succ_of_ne_zero (Nat.ne_of_gt hfuel)
    simp [skipChars]
  | plain hc h ih =>
    intro fuel hfuel
    obtain ⟨fuel, rfl⟩ := Nat.exists_eq_succ_of_ne_zero (Nat.ne_zero_of_lt hfuel)
    simp only [List.length_cons] at hfuel
    simp [skipChars, hc.1, hc.2.1, Nat.not_lt.2 hc.2.2, ih fuel (by omega)]
  | escape he h ih =>
    intro fuel hfuel
    obtain ⟨fuel, rfl⟩ := Nat.exists_eq_succ_of_ne_zero (Nat.ne_zero_of_lt hfuel)
    simp only [List.length_cons] at hfuel
    simp [skipChars, ne_unit_of_mem_escapes he, shortEscape?_eq he, ih fuel (by omega)]
  | unit hn h ih =>
    intro fuel hfuel
    obtain ⟨fuel, rfl⟩ := Nat.exists_eq_succ_of_ne_zero (Nat.ne_zero_of_lt hfuel)
    simp only [List.length_cons, List.length_append] at hfuel
    simp [skipChars, readHex_append hn, ih fuel (by omega)]

theorem skipString_append {q : List Char} (h : Quoted q) (rest : List Char) :
    skipString (q ++ '"' :: rest) = .ok rest :=
  skipChars_append h rest _ (by rw [List.length_append]; omega)

theorem readUnit_alone {hs : List Char} {n : Nat} (h : Hex hs n) (alone : n < 0xD800 ∨ 0xDFFF < n)
    (rest : List Char) : readUnit (hs ++ rest) = .ok (Char.ofNat n, rest) := by
  have hlow : ¬(0xDC00 ≤ n ∧ n ≤ 0xDFFF) := by omega
  have hhigh : n < 0xD800 ∨ 0xDBFF < n := by omega
  simp only [readUnit, readHex_append h, hlow, hhigh, if_true, if_false]

theorem readUnit_pair {hs ls : List Char} {high low : Nat} (hhigh : Hex hs high)
    (hlow : Hex ls low) (first : 0xD800 ≤ high ∧ high ≤ 0xDBFF)
    (second : 0xDC00 ≤ low ∧ low ≤ 0xDFFF) (rest : List Char) :
    readUnit (hs ++ '\\' :: 'u' :: (ls ++ rest)) =
      .ok (Char.ofNat (0x10000 + (high - 0xD800) * 1024 + (low - 0xDC00)), rest) := by
  have hnot : ¬(0xDC00 ≤ high ∧ high ≤ 0xDFFF) := by omega
  have hpair : ¬(high < 0xD800 ∨ 0xDBFF < high) := by omega
  simp only [readUnit, readHex_append hhigh, readHex_append hlow, hnot, hpair, second, and_self,
    if_true, if_false]

theorem readChars_append {s q : List Char} (h : Spells s q) (rest : List Char) :
    ∀ fuel, q.length < fuel → readChars fuel (q ++ '"' :: rest) = .ok (s, rest) := by
  induction h with
  | nil =>
    intro fuel hfuel
    obtain ⟨fuel, rfl⟩ := Nat.exists_eq_succ_of_ne_zero (Nat.ne_of_gt hfuel)
    simp [readChars]
  | plain hc h ih =>
    intro fuel hfuel
    obtain ⟨fuel, rfl⟩ := Nat.exists_eq_succ_of_ne_zero (Nat.ne_zero_of_lt hfuel)
    simp only [List.length_cons] at hfuel
    simp [readChars, hc.1, hc.2.1, Nat.not_lt.2 hc.2.2, ih fuel (by omega), Except.map]
  | escape he h ih =>
    intro fuel hfuel
    obtain ⟨fuel, rfl⟩ := Nat.exists_eq_succ_of_ne_zero (Nat.ne_zero_of_lt hfuel)
    simp only [List.length_cons] at hfuel
    simp [readChars, ne_unit_of_mem_escapes he, shortEscape?_eq he, ih fuel (by omega), Except.map]
  | unit hn alone h ih =>
    intro fuel hfuel
    obtain ⟨fuel, rfl⟩ := Nat.exists_eq_succ_of_ne_zero (Nat.ne_zero_of_lt hfuel)
    simp only [List.length_cons, List.length_append] at hfuel
    simp [readChars, readUnit_alone hn alone, ih fuel (by omega), Except.map]
  | pair hhigh hlow first second h ih =>
    intro fuel hfuel
    obtain ⟨fuel, rfl⟩ := Nat.exists_eq_succ_of_ne_zero (Nat.ne_zero_of_lt hfuel)
    simp only [List.length_cons, List.length_append] at hfuel
    simp [readChars, readUnit_pair hhigh hlow first second, ih fuel (by omega), Except.map]

theorem readString_append {s q : List Char} (h : Spells s q) (rest : List Char) :
    readString (q ++ '"' :: rest) = .ok (s, rest) :=
  readChars_append h rest _ (by rw [List.length_append]; omega)

/-! ### Values -/

/-- A mark with blanks around it. -/
def Mark (m : Char) (l : List Char) : Prop := ∃ u v, Blank u ∧ Blank v ∧ l = u ++ m :: v

/-- What a text is: a value, or what stands between the brackets of an array that has an
    item, or between the braces of an object that has a member. -/
inductive Shape where
  | value
  | items
  | members

/-- The text of a JSON value, of items or of members.  No value has blanks at its ends. -/
inductive Valid : Shape → List Char → Prop where
  | word {w : String} (hw : w ∈ ["null", "true", "false"]) : Valid .value w.toList
  | string {q : List Char} (h : Quoted q) : Valid .value ('"' :: (q ++ ['"']))
  | number {cs : List Char} (h : Numeral cs) : Valid .value cs
  | emptyArray {ws : List Char} (hws : Blank ws) : Valid .value ('[' :: (ws ++ [']']))
  | array {ws s : List Char} (hws : Blank ws) (h : Valid .items s) :
      Valid .value ('[' :: (ws ++ (s ++ [']'])))
  | emptyObject {ws : List Char} (hws : Blank ws) : Valid .value ('\x7b' :: (ws ++ ['\x7d']))
  | object {ws s : List Char} (hws : Blank ws) (h : Valid .members s) :
      Valid .value ('\x7b' :: (ws ++ (s ++ ['\x7d'])))
  | item {v ws : List Char} (h : Valid .value v) (hws : Blank ws) : Valid .items (v ++ ws)
  | items {v l s : List Char} (h : Valid .value v) (hl : Mark ',' l) (hs : Valid .items s) :
      Valid .items (v ++ (l ++ s))
  | member {q l v ws : List Char} (hq : Quoted q) (hl : Mark ':' l) (h : Valid .value v)
      (hws : Blank ws) : Valid .members ('"' :: (q ++ '"' :: (l ++ (v ++ ws))))
  | members {q l v m s : List Char} (hq : Quoted q) (hl : Mark ':' l) (h : Valid .value v)
      (hm : Mark ',' m) (hs : Valid .members s) :
      Valid .members ('"' :: (q ++ '"' :: (l ++ (v ++ (m ++ s)))))

theorem Mark.skipSpace_append {m : Char} {l : List Char} (h : Mark m l) (hm : isSpace m = false)
    (rest : List Char) : ∃ v, Blank v ∧ skipSpace (l ++ rest) = m :: (v ++ rest) := by
  obtain ⟨u, v, hu, hv, rfl⟩ := h
  refine ⟨v, hv, ?_⟩
  rw [List.append_assoc, Json.skipSpace_append hu, List.cons_append, skipSpace_cons hm]

theorem Mark.follows_append {l : List Char} (h : Mark ',' l) (rest : List Char) :
    Follows (l ++ rest) := by
  obtain ⟨u, v, hu, hv, rfl⟩ := h
  rw [List.append_assoc]
  exact hu.follows_append (follows_cons (by decide) _)

/-- A closing bracket or brace after blanks. -/
theorem skipSpace_close {ws : List Char} {c : Char} (h : Blank ws) (hc : isSpace c = false)
    (rest : List Char) : skipSpace (ws ++ c :: rest) = c :: rest := by
  rw [skipSpace_append h, skipSpace_cons hc]

/-! ### Where a text starts -/

/-- A character that a value may start with. -/
def Opens (c : Char) : Prop := isSpace c = false ∧ c ≠ ']' ∧ c ≠ '\x7d'

theorem opens_of_isDigit {c : Char} (h : c.isDigit = true) : Opens c := by
  refine ⟨?_, ?_, ?_⟩
  · by_contra hspace
    have hgoes := goesOn_of_isSpace (by simpa using hspace)
    simp [goesOn, h] at hgoes
  all_goals
    rintro rfl
    exact absurd h (by decide)

theorem Whole.head {w : List Char} (h : Whole w) : ∃ d ds, w = d :: ds ∧ d.isDigit = true := by
  cases h with
  | zero => exact ⟨'0', [], rfl, by decide⟩
  | digits h first =>
    cases w with
    | nil => exact absurd rfl h.1
    | cons d ds => exact ⟨d, ds, rfl, h.2 d (by simp)⟩

theorem NumberText.Spelled.head {t : NumberText} {cs : List Char} (h : t.Spelled cs) :
    ∃ d ds, cs = d :: ds ∧ d.isDigit = true := by
  cases h with
  | parts hwhole hfraction hexponent =>
    obtain ⟨d, ds, heq, hd⟩ := hwhole.head
    exact ⟨d, _, by rw [heq]; rfl, hd⟩

theorem Valid.head {k : Shape} {cs : List Char} (h : Valid k cs) :
    ∃ c t, cs = c :: t ∧ Opens c := by
  induction h with
  | number h =>
    cases h with
    | plain h =>
      obtain ⟨d, ds, rfl, hd⟩ := h.head
      exact ⟨d, ds, rfl, opens_of_isDigit hd⟩
    | minus h => exact ⟨'-', _, rfl, by decide, by decide, by decide⟩
  | item h hws ih =>
    obtain ⟨c, t, rfl, hc⟩ := ih
    exact ⟨c, _, rfl, hc⟩
  | items h hl hs ih ihs =>
    obtain ⟨c, t, rfl, hc⟩ := ih
    exact ⟨c, _, rfl, hc⟩
  | word hw =>
    simp only [List.mem_cons, List.not_mem_nil, or_false] at hw
    rcases hw with rfl | rfl | rfl <;> exact ⟨_, _, rfl, by decide, by decide, by decide⟩
  | string | emptyArray | array | emptyObject | object | member | members =>
    exact ⟨_, _, rfl, by decide, by decide, by decide⟩

/-! ### Passing over values -/

/-- The reader that passes over texts of a shape. -/
def Shape.skip : Shape → Nat → List Char → Except Fault (List Char)
  | .value => skipValueWithin
  | .items => skipItemsWithin
  | .members => skipMembersWithin

/-- What closes a text of a shape, for the reader that passes over it. -/
def Shape.close : Shape → List Char
  | .value => []
  | .items => [']']
  | .members => ['\x7d']

/-- Steps beyond the length of the text. -/
def Shape.slack : Shape → Nat
  | .value => 0
  | .items => 1
  | .members => 1

theorem skipValueWithin_digit {c : Char} {cs rest : List Char} (hc : c.isDigit = true)
    (h : skipSpace cs = c :: rest) (fuel : Nat) :
    skipValueWithin (fuel + 1) cs = skipNumber (c :: rest) := by
  rw [skipValueWithin.eq_def]
  simp only [h]
  split
  -- every other case starts with a character that is no digit
  case h_9 heq =>
    cases heq
    simp [hc]
  all_goals
    rename_i heq
    cases heq
    try exact absurd hc (by decide)

theorem skipValueWithin_numeral {cs ws rest : List Char} (h : Numeral cs) (hws : Blank ws)
    (hrest : Follows rest) (fuel : Nat) :
    skipValueWithin (fuel + 1) (ws ++ (cs ++ rest)) = .ok rest := by
  cases h with
  | plain h =>
    obtain ⟨d, ds, rfl, hd⟩ := h.head
    rw [List.cons_append, skipValueWithin_digit hd (skipSpace_close hws (opens_of_isDigit hd).1 _)]
    exact skipNumber_append h hrest
  | minus h =>
    rw [skipValueWithin.eq_def]
    simp only [List.cons_append, skipSpace_close hws (c := '-') (by decide)]
    exact skipNumber_append h hrest

theorem skipValueWithin_word {w : String} {ws : List Char} (hw : w ∈ ["null", "true", "false"])
    (hws : Blank ws) (rest : List Char) (fuel : Nat) :
    skipValueWithin (fuel + 1) (ws ++ (w.toList ++ rest)) = .ok rest := by
  simp only [List.mem_cons, List.not_mem_nil, or_false] at hw
  rcases hw with rfl | rfl | rfl
  · simp [skipValueWithin, skipSpace_close hws (c := 'n') (by decide), skipWord]
  · simp [skipValueWithin, skipSpace_close hws (c := 't') (by decide), skipWord]
  · simp [skipValueWithin, skipSpace_close hws (c := 'f') (by decide), skipWord]

theorem skipItemsWithin_last {cs after rest : List Char} {fuel : Nat}
    (hvalue : skipValueWithin fuel cs = .ok after) (hclose : skipSpace after = ']' :: rest) :
    skipItemsWithin (fuel + 1) cs = .ok rest := by
  simp [skipItemsWithin, hvalue, hclose]

theorem skipItemsWithin_more {cs after rest : List Char} {fuel : Nat}
    (hvalue : skipValueWithin fuel cs = .ok after) (hcomma : skipSpace after = ',' :: rest) :
    skipItemsWithin (fuel + 1) cs = skipItemsWithin fuel rest := by
  simp [skipItemsWithin, hvalue, hcomma]

section Member

variable {ws q l cs after rest : List Char} {fuel : Nat} (hws : Blank ws) (hq : Quoted q)
  (hl : Mark ':' l)
  (hvalue : ∀ {ws : List Char}, Blank ws → skipValueWithin fuel (ws ++ cs) = .ok after)

include hws hq hl hvalue

theorem skipMembersWithin_last (hclose : skipSpace after = '\x7d' :: rest) :
    skipMembersWithin (fuel + 1) (ws ++ '"' :: (q ++ '"' :: (l ++ cs))) = .ok rest := by
  obtain ⟨v, hv, hcolon⟩ := hl.skipSpace_append (by decide) cs
  simp [skipMembersWithin, skipSpace_close hws (c := '"') (by decide), skipString_append hq, hcolon,
    hvalue hv, hclose]

theorem skipMembersWithin_more (hcomma : skipSpace after = ',' :: rest) :
    skipMembersWithin (fuel + 1) (ws ++ '"' :: (q ++ '"' :: (l ++ cs))) =
      skipMembersWithin fuel rest := by
  obtain ⟨v, hv, hcolon⟩ := hl.skipSpace_append (by decide) cs
  simp [skipMembersWithin, skipSpace_close hws (c := '"') (by decide), skipString_append hq, hcolon,
    hvalue hv, hcomma]

end Member

theorem Valid.length_pos {k : Shape} {cs : List Char} (h : Valid k cs) : 0 < cs.length := by
  obtain ⟨c, t, rfl, -⟩ := h.head
  exact Nat.succ_pos _

/-- By induction on the text.  The steps are no more than the characters of a value, and
    one more for items and members, whose opening mark has been passed. -/
theorem Valid.skip {k : Shape} {cs ws rest : List Char} {fuel : Nat} (h : Valid k cs)
    (hws : Blank ws) (hrest : k = .value → Follows rest) (hfuel : cs.length + k.slack ≤ fuel + 1) :
    k.skip (fuel + 1) (ws ++ (cs ++ (k.close ++ rest))) = .ok rest := by
  induction h generalizing ws rest fuel with
  | word hw => exact skipValueWithin_word hw hws rest fuel
  | string h =>
    simp [Shape.skip, Shape.close, skipValueWithin, skipSpace_close hws (c := '"') (by decide),
      skipString_append h]
  | number h => exact skipValueWithin_numeral h hws (hrest rfl) fuel
  | emptyArray hb =>
    simp [Shape.skip, Shape.close, skipValueWithin, skipSpace_close hws (c := '[') (by decide),
      skipSpace_close hb (c := ']') (by decide)]
  | emptyObject hb =>
    simp [Shape.skip, Shape.close, skipValueWithin, skipSpace_close hws (c := '\x7b') (by decide),
      skipSpace_close hb (c := '\x7d') (by decide)]
  | @array us s hb h ih =>
    simp only [List.length_cons, List.length_append, List.length_nil, Shape.slack] at hfuel
    obtain ⟨fuel, rfl⟩ := Nat.exists_eq_add_of_le' (show 1 ≤ fuel by omega)
    have hitems : skipItemsWithin (fuel + 1) (s ++ ']' :: rest) = .ok rest :=
      ih .nil nofun (by simp only [Shape.slack]; omega)
    obtain ⟨c, t, rfl, hc⟩ := h.head
    simpa [Shape.skip, Shape.close, skipValueWithin, skipSpace_close hws (c := '[') (by decide),
      skipSpace_close hb hc.1, hc.2.1] using hitems
  | @object us s hb h ih =>
    simp only [List.length_cons, List.length_append, List.length_nil, Shape.slack] at hfuel
    obtain ⟨fuel, rfl⟩ := Nat.exists_eq_add_of_le' (show 1 ≤ fuel by omega)
    have hmembers : skipMembersWithin (fuel + 1) (s ++ '\x7d' :: rest) = .ok rest :=
      ih .nil nofun (by simp only [Shape.slack]; omega)
    obtain ⟨c, t, rfl, hc⟩ := h.head
    simpa [Shape.skip, Shape.close, skipValueWithin, skipSpace_close hws (c := '\x7b') (by decide),
      skipSpace_close hb hc.1, hc.2.2] using hmembers
  | @item v us h hb ih =>
    simp only [List.length_append, Shape.slack] at hfuel
    obtain ⟨fuel, rfl⟩ := Nat.exists_eq_add_of_le' (show 1 ≤ fuel by have := h.length_pos; omega)
    have hvalue : skipValueWithin (fuel + 1) (ws ++ (v ++ (us ++ ']' :: rest))) =
        .ok (us ++ ']' :: rest) :=
      ih hws (fun _ => hb.follows_append (follows_cons (by decide) _))
        (by simp only [Shape.slack]; omega)
    rw [List.append_assoc]
    exact skipItemsWithin_last hvalue (skipSpace_close hb (by decide) rest)
  | @items v l s h hl hs ih ihs =>
    simp only [List.length_append, Shape.slack] at hfuel
    obtain ⟨fuel, rfl⟩ := Nat.exists_eq_add_of_le' (show 1 ≤ fuel by have := h.length_pos; omega)
    have hvalue : skipValueWithin (fuel + 1) (ws ++ (v ++ (l ++ (s ++ ']' :: rest)))) =
        .ok (l ++ (s ++ ']' :: rest)) :=
      ih hws (fun _ => hl.follows_append _) (by simp only [Shape.slack]; omega)
    obtain ⟨us, hus, hcomma⟩ := hl.skipSpace_append (by decide) (s ++ ']' :: rest)
    rw [List.append_assoc, List.append_assoc]
    refine (skipItemsWithin_more hvalue hcomma).trans ?_
    exact ihs hus nofun (by simp only [Shape.slack]; have := h.length_pos; omega)
  | @member q l v us hq hl h hb ih =>
    simp only [List.length_cons, List.length_append, Shape.slack] at hfuel
    obtain ⟨fuel, rfl⟩ := Nat.exists_eq_add_of_le' (show 1 ≤ fuel by omega)
    have hvalue {bs : List Char} (hbs : Blank bs) :
        skipValueWithin (fuel + 1) (bs ++ (v ++ (us ++ '\x7d' :: rest))) =
          .ok (us ++ '\x7d' :: rest) :=
      ih hbs (fun _ => hb.follows_append (follows_cons (by decide) _))
        (by simp only [Shape.slack]; omega)
    have hmember := skipMembersWithin_last hws hq hl hvalue (skipSpace_close hb (by decide) rest)
    simpa [Shape.skip, Shape.close] using hmember
  | @members q l v m s hq hl h hm hs ih ihs =>
    simp only [List.length_cons, List.length_append, Shape.slack] at hfuel
    obtain ⟨fuel, rfl⟩ := Nat.exists_eq_add_of_le' (show 1 ≤ fuel by omega)
    have hvalue {bs : List Char} (hbs : Blank bs) :
        skipValueWithin (fuel + 1) (bs ++ (v ++ (m ++ (s ++ '\x7d' :: rest)))) =
          .ok (m ++ (s ++ '\x7d' :: rest)) :=
      ih hbs (fun _ => hm.follows_append _) (by simp only [Shape.slack]; omega)
    obtain ⟨us, hus, hcomma⟩ := hm.skipSpace_append (by decide) (s ++ '\x7d' :: rest)
    have hmember := skipMembersWithin_more hws hq hl hvalue hcomma
    have hothers : skipMembersWithin (fuel + 1) (us ++ (s ++ '\x7d' :: rest)) = .ok rest :=
      ihs hus nofun (by simp only [Shape.slack]; omega)
    simpa [Shape.skip, Shape.close, hothers] using hmember

/-- Every value is passed over to its end and no further. -/
theorem skipValue_append {v ws rest : List Char} (h : Valid .value v) (hws : Blank ws)
    (hrest : Follows rest) : skipValue (ws ++ (v ++ rest)) = .ok rest := by
  refine Valid.skip h hws (fun _ => hrest) ?_
  simp only [Shape.slack, List.length_append]
  omega

end Floodgate.Json
