import Chip8.Text.Blank
import Chip8.Text.DecimalDigit

/-!
# Numerals

Reading an integer from a text: blanks around it, one sign, digits of any script, single
underscores between digits. `integer?` reads decimal numerals only; `prefixedInteger?` also takes
the marks `0x`, `0o` and `0b`, and then refuses a decimal numeral with leading zeros unless it is
zero.

* `plainText?` is the text with the digits and blanks of all scripts brought to ASCII;
* `digits?` reads the digits of a base, `magnitude?` a decimal numeral of bounded length;
* `integer?`, `prefixedInteger?` read a whole text.
-/

namespace Chip8.Text

/-- A character of a numeral in ASCII: digits and blanks of any script are brought to ASCII, and
no other character beyond ASCII may stand in a numeral. -/
def plainChar? (c : Char) : Option Char :=
  if c.toNat < 0x80 then some c
  else if isWideBlank c then some ' '
  else (decimalDigit? c).map fun d => Char.ofNat ('0'.toNat + d)

/-- A text in ASCII, if it can be part of a numeral. -/
def plainText? (text : List Char) : Option (List Char) := text.mapM plainChar?

/-- The value of a digit in bases up to sixteen. -/
def digitValue? (base : Nat) (c : Char) : Option Nat :=
  let value? :=
    if '0' ≤ c ∧ c ≤ '9' then some (c.toNat - '0'.toNat)
    else if 'a' ≤ c ∧ c ≤ 'f' then some (c.toNat - 'a'.toNat + 10)
    else if 'A' ≤ c ∧ c ≤ 'F' then some (c.toNat - 'A'.toNat + 10)
    else none
  value?.filter (· < base)

/-- The digits of a numeral, at least one, with single underscores allowed between digits. -/
def digits? (base : Nat) : List Char → Option (List Nat)
  | [] => none
  | [c] => (digitValue? base c).map fun d => [d]
  | c :: '_' :: rest => do return (← digitValue? base c) :: (← digits? base rest)
  | c :: rest => do return (← digitValue? base c) :: (← digits? base rest)

/-- The number with these digits, highest first. -/
def ofDigits (base : Nat) (digits : List Nat) : Nat :=
  digits.foldl (fun n d => base * n + d) 0

/-- The longest decimal numeral that is read, in digits. -/
def maxDecimalDigits : Nat := 4300

/-- The number that a decimal numeral without sign stands for. -/
def magnitude? (text : List Char) : Option Nat := do
  let digits ← digits? 10 text
  if digits.length ≤ maxDecimalDigits then some (ofDigits 10 digits) else none

/-- Applies the sign in front of a numeral, if there is one, to what `read` makes of the rest. -/
def signed? (read : List Char → Option Nat) : List Char → Option Int
  | '-' :: rest => (read rest).map fun n => -(n : Int)
  | '+' :: rest => (read rest).map Int.ofNat
  | text => (read text).map Int.ofNat

/-- The integer that a decimal numeral stands for. -/
def integer? (text : String) : Option Int := do
  signed? magnitude? (trim (← plainText? text.toList))

/-- The digits after the mark of a base: one underscore may follow the mark. -/
def markedMagnitude? (base : Nat) : List Char → Option Nat
  | '_' :: rest => (digits? base rest).map (ofDigits base)
  | text => (digits? base text).map (ofDigits base)

/-- The number that a numeral without sign stands for, in the base that its mark names. -/
def prefixedMagnitude? (text : List Char) : Option Nat :=
  match text with
  | '0' :: mark :: rest =>
    if mark = 'x' ∨ mark = 'X' then markedMagnitude? 16 rest
    else if mark = 'o' ∨ mark = 'O' then markedMagnitude? 8 rest
    else if mark = 'b' ∨ mark = 'B' then markedMagnitude? 2 rest
    else (magnitude? text).filter (· = 0)
  | _ => magnitude? text

/-- The integer that a numeral in decimal or with the mark of a base stands for. -/
def prefixedInteger? (text : String) : Option Int := do
  signed? prefixedMagnitude? (trim (← plainText? text.toList))

end Chip8.Text
