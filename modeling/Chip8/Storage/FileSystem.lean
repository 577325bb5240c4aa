import Chip8.Error

/-!
# File systems

A file system answers a name with the bytes of the file or with the reason why it cannot be read.
Programs and fonts are read from it whole, without any header.
-/

namespace Chip8

/-- What a file system knows of each name. -/
abbrev FileSystem := String → Except FileError (List UInt8)

namespace FileSystem

/-- The bytes of a file. A name with the character `U+0000` does not reach the file system. -/
def read (fs : FileSystem) (name : String) : Except Error (List UInt8) :=
  if '\x00' ∈ name.toList then .error .nullInName
  else (fs name).mapError (.file name)

/-- A program, which must not be empty. -/
def readProgram (fs : FileSystem) (name : String) : Except Error (List UInt8) :=
  match fs.read name with
  | .ok [] => .error (.load (.empty name))
  | .ok program => .ok program
  | .error (.file name reason) => .error (.load (.unreadable name reason))
  | .error e => .error e

/-- A font, which must have the size of a font. -/
def checkFont (font : List UInt8) : Except Error (List UInt8) :=
  if font.length = Font.size then .ok font else .error (.load (.wrongFontSize font.length))

/-- The font of a file, or the system font if no file is named. -/
def readFont (fs : FileSystem) : Option String → Except Error (List UInt8)
  | none => checkFont Font.glyphs
  | some name => do checkFont (← fs.read name)

theorem checkFont_of_length {font : List UInt8} (h : font.length = Font.size) :
    checkFont font = .ok font := if_pos h

theorem checkFont_of_length_ne {font : List UInt8} (h : font.length ≠ Font.size) :
    checkFont font = .error (.load (.wrongFontSize font.length)) := if_neg h

end FileSystem

end Chip8
