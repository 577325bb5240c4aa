import Chip8.Text.Hex
import Chip8.Text.Printable

/-!
# Quoted text

A text as messages quote it: between single quotes, or between double quotes when it holds single
quotes and no double ones. The backslash and the quote in use are escaped, and so is every
character that is not printable.
-/

namespace Chip8.Text

/-- The mark that encloses a text: a double quote only where that saves escapes. -/
def quoteMark (text : List Char) : Char :=
  if '\'' ∈ text ∧ '"' ∉ text then '"' else '\''

/-- One character between the quotes `mark`. -/
def quotedChar (mark c : Char) : String :=
  if c = mark ∨ c = '\\' then String.ofList ['\\', c]
  else if c = '\t' then "\\t"
  else if c = '\n' then "\\n"
  else if c = '\r' then "\\r"
  else if isPrintable c then String.singleton c
  else if c.toNat < 0x100 then "\\x" ++ hex 2 c.toNat
  else if c.toNat < 0x10000 then "\\u" ++ hex 4 c.toNat
  else "\\U" ++ hex 8 c.toNat

/-- `text` as a message quotes it. -/
def quoted (text : String) : String :=
  let mark := quoteMark text.toList
  String.singleton mark ++ String.join (text.toList.map (quotedChar mark)) ++ String.singleton mark

end Chip8.Text
