/-
  Floodgate/Text/Scan.lean
  ========================
  **Cutting header text.**  Header values are lists: items between commas, each
  with parameters between semicolons, with blanks around them that do not count.
  `split` cuts a text at a separator and always yields at least one piece; joining
  two texts with the separator appends their pieces.
-/

namespace Floodgate.Text

/-- The pieces of a text between occurrences of a separator. -/
def split (sep : Char) : List Char → List (List Char)
  | [] => [[]]
  | c :: rest =>
    if c = sep then [] :: split sep rest
    else
      match split sep rest with
      | [] => [[c]]
      | piece :: pieces => (c :: piece) :: pieces

theorem split_ne_nil (sep : Char) (s : List Char) : split sep s ≠ [] := by
  induction s with
  | nil => simp [split]
  | cons c rest ih =>
    simp only [split]
    split
    · simp
    · split <;> simp

/-- Joining two texts with the separator joins their lists of pieces. -/
theorem split_append_sep (sep : Char) (s t : List Char) :
    split sep (s ++ sep :: t) = split sep s ++ split sep t := by
  induction s with
  | nil => simp [split]
  | cons c rest ih =>
    simp only [List.cons_append, split, ih]
    by_cases hc : c = sep
    · simp [hc]
    · simp only [hc, if_false]
      cases hs : split sep rest with
      | nil => exact absurd hs (split_ne_nil sep rest)
      | cons piece pieces => simp

/-- The blanks that can stand in header text: the space and the tab. -/
def isBlank (c : Char) : Bool := c = ' ' || c = '\t'

def trim (s : List Char) : List Char :=
  ((s.dropWhile isBlank).reverse.dropWhile isBlank).reverse

/-- The letter in lower case, for ASCII letters. -/
def lower (c : Char) : Char := c.toLower

/-- The two texts are equal but for the case of ASCII letters. -/
def sameLetters (s t : List Char) : Bool := s.map lower == t.map lower

/-- The text after a given beginning, if it has that beginning. -/
def after? : List Char → List Char → Option (List Char)
  | [], s => some s
  | _ :: _, [] => none
  | p :: ps, c :: cs => if p = c then after? ps cs else none

end Floodgate.Text
