/-!
# Blank characters

The blanks that may surround a number: the six of ASCII that a terminal treats as blank, and
beyond ASCII the characters of Unicode's white space property. The four separators `U+001C` to
`U+001F` are not blank here.
-/

namespace Chip8.Text

/-- The blanks of ASCII: tab, line feed, vertical tab, form feed, carriage return, space. -/
def isAsciiBlank (c : Char) : Bool :=
  c.toNat == 0x20 || (0x09 ≤ c.toNat && c.toNat ≤ 0x0D)

/-- The white space characters beyond ASCII. -/
def isWideBlank (c : Char) : Bool :=
  [0x85, 0xA0, 0x1680, 0x2028, 0x2029, 0x202F, 0x205F, 0x3000].contains c.toNat ||
    (0x2000 ≤ c.toNat && c.toNat ≤ 0x200A)

/-- A text without the ASCII blanks at its two ends. -/
def trim (text : List Char) : List Char :=
  ((text.dropWhile isAsciiBlank).reverse.dropWhile isAsciiBlank).reverse

end Chip8.Text
