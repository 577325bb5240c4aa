/-!
# The system font

The glyphs of the sixteen hexadecimal digits, five rows each. Programs find them at the bottom of
memory.
-/

namespace Chip8.Font

/-- How many rows, and so bytes, a glyph has. -/
def glyphSize : Nat := 5

/-- The glyphs of the digits `0` to `F`, one after the other. -/
def glyphs : List UInt8 :=
  [0xF0, 0x90, 0x90, 0x90, 0xF0,
   0x20, 0x60, 0x20, 0x20, 0x70,
   0xF0, 0x10, 0xF0, 0x80, 0xF0,
   0xF0, 0x10, 0xF0, 0x10, 0xF0,
   0x90, 0x90, 0xF0, 0x10, 0x10,
   0xF0, 0x80, 0xF0, 0x10, 0xF0,
   0xF0, 0x80, 0xF0, 0x90, 0xF0,
   0xF0, 0x10, 0x20, 0x40, 0x40,
   0xF0, 0x90, 0xF0, 0x90, 0xF0,
   0xF0, 0x90, 0xF0, 0x10, 0xF0,
   0xF0, 0x90, 0xF0, 0x90, 0x90,
   0xE0, 0x90, 0xE0, 0x90, 0xE0,
   0xF0, 0x80, 0x80, 0x80, 0xF0,
   0xE0, 0x90, 0x90, 0x90, 0xE0,
   0xF0, 0x80, 0xF0, 0x80, 0xF0,
   0xF0, 0x80, 0xF0, 0x80, 0x80]

/-- The length of a font in bytes. -/
def size : Nat := 16 * glyphSize

/-- The rows of a digit's glyph. -/
def glyph (digit : Fin 16) : List UInt8 := (glyphs.drop (glyphSize * digit)).take glyphSize

@[simp] theorem length_glyphs : glyphs.length = size := rfl

end Chip8.Font
