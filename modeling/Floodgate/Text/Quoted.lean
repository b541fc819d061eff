/-
  Floodgate/Text/Quoted.lean
  ==========================
  **Quoted text.**  Descriptions of components show their names between double
  quotes: a quote and a backslash are escaped, line breaks, tabs and the null
  character have short escapes, and every other unprintable character is given by
  its code point in hexadecimal.
-/
import Floodgate.Text.Unprintable

namespace Floodgate.Text

/-- A brace is written by its code, since it stands for itself here. -/
def leftBrace : Char := '\x7b'

/-- The closing counterpart of `leftBrace`. -/
def rightBrace : Char := '\x7d'

def quotedChar (c : Char) : List Char :=
  if c = '"' then ['\\', '"']
  else if c = '\\' then ['\\', '\\']
  else if c = '\n' then ['\\', 'n']
  else if c = '\r' then ['\\', 'r']
  else if c = '\t' then ['\\', 't']
  else if c.toNat = 0 then ['\\', '0']
  else if unprintable c then
    '\\' :: 'u' :: leftBrace :: (Nat.toDigits 16 c.toNat ++ [rightBrace])
  else [c]

def quoted (s : String) : String :=
  String.ofList ('"' :: (s.toList.flatMap quotedChar ++ ['"']))

end Floodgate.Text
