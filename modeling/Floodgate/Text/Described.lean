/-
  Floodgate/Text/Described.lean
  =============================
  **Descriptions of components.**  Developers see a component as its name and its
  fields between braces, a value that may be missing as `Some` or `None`, a list
  between brackets.
-/
import Floodgate.Text.Elapsed
import Floodgate.Text.Quoted

namespace Floodgate.Text

def fieldTexts (fields : List (String × String)) : String :=
  String.intercalate ", " (fields.map fun (label, value) => label ++ ": " ++ value)

def record (name : String) (fields : List (String × String)) : String :=
  name ++ " \x7b " ++ fieldTexts fields ++ " \x7d"

def partialRecord (name : String) (fields : List (String × String)) : String :=
  name ++ " \x7b " ++ fieldTexts fields ++ ", .. \x7d"

def wrapped (name value : String) : String := name ++ "(" ++ value ++ ")"

def optional : Option String → String
  | none => "None"
  | some value => wrapped "Some" value

def row (values : List String) : String := "[" ++ String.intercalate ", " values ++ "]"

def truth (b : Bool) : String := if b then "true" else "false"

end Floodgate.Text
