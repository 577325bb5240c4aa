import Chip8.Fault
import Chip8.Font
import Chip8.Text.Quoted

/-!
# Errors

Everything that can go wrong: faults of a running machine, and what is refused before a machine
runs or when a host asks for something that does not exist. Each error is a cause; its wording is
in `Error.message`.
-/

namespace Chip8

/-- Why a file cannot be read. -/
inductive FileError
  | notFound
  | isDirectory
  | notDirectory
  | nameTooLong
  /-- Any other reason that the system gives, by its number and in its words. -/
  | other (number : Nat) (text : String)
  deriving DecidableEq

namespace FileError

def text : FileError → String
  | .notFound => "No such file or directory"
  | .isDirectory => "Is a directory"
  | .notDirectory => "Not a directory"
  | .nameTooLong => "File name too long"
  | .other _ text => text

/-- The number by which the system knows the error. -/
def number : FileError → Nat
  | .notFound => 2
  | .isDirectory => 21
  | .notDirectory => 20
  | .nameTooLong => 36
  | .other number _ => number

end FileError

/-- Why a program or a font is not loaded. -/
inductive LoadError
  | unreadable (name : String) (reason : FileError)
  | empty (name : String)
  | wrongFontSize (size : Nat)
  /-- The load address is not an address. -/
  | outside (location : Int)
  /-- The load address is protected. -/
  | reserved (location : Int)
  | tooLarge (size : Nat) (room location : Int)
  deriving DecidableEq

def LoadError.text : LoadError → String
  | .unreadable name reason => "Cannot read program '" ++ name ++ "': " ++ reason.text
  | .empty name => "Program '" ++ name ++ "' is empty"
  | .wrongFontSize size =>
    "System font is " ++ toString size ++ " bytes long, not " ++ toString Font.size
  | .outside location => "Load address 0x" ++ Text.hex 1 location ++ " is outside memory"
  | .reserved location => "Load address 0x" ++ Text.hex 3 location ++ " overlaps reserved memory"
  | .tooLarge size room location =>
    "Program is too large: " ++ toString size ++ " bytes do not fit in the " ++ toString room ++
      " bytes above 0x" ++ Text.hex 3 location

/-- Why a keymap is refused. -/
inductive KeymapError
  | wrongCount
  | notAnInteger
  | duplicate
  deriving DecidableEq

def KeymapError.text : KeymapError → String
  | .wrongCount => "Incorrect number of keys defined -- 16 required.  Use commas to split numbers"
  | .notAnInteger => "Defined keys are not all integer values"
  | .duplicate => "Duplicate keys defined"

/-- Why a window is not opened. -/
inductive WindowError
  /-- Its size is beyond the numbers that a window system takes. -/
  | uncountable
  | negative
  | tooLarge
  deriving DecidableEq

def WindowError.text : WindowError → String
  | .uncountable => "size must be two numbers"
  | .negative => "Cannot set negative sized display mode"
  | .tooLarge => "Window is too large."

/-- The options that the program is started with. -/
inductive OptionName
  | renderer
  | filename
  | scale
  | keymap
  | debug
  | start
  | cycles
  | timerReload
  deriving DecidableEq

def OptionName.text : OptionName → String
  | .renderer => "renderer"
  | .filename => "filename"
  | .scale => "scale"
  | .keymap => "keymap"
  | .debug => "debug"
  | .start => "start"
  | .cycles => "cycles"
  | .timerReload => "timer_reload"

/-- An error of any part of the program. -/
inductive Error
  | fault (f : Fault)
  | load (e : LoadError)
  | keymap (e : KeymapError)
  /-- The window system that the renderer needs is missing. -/
  | noWindowSystem
  | unknownRenderer (name : String)
  | file (name : String) (e : FileError)
  /-- A file name holds the character `U+0000`. -/
  | nullInName
  | timerReload (value : Int)
  /-- A value that does not fit in a byte is stored in memory or in a register. -/
  | notAByte (value : Int)
  | noRegister (index : Int)
  | noKey (index : Int)
  /-- A store of a size that is not even an index. -/
  | notAnIndex (size : Int)
  /-- A store that is larger than all the room there is. -/
  | noRoom (size : Int)
  /-- A coordinate is wrapped around a side of length zero. -/
  | emptySide
  /-- A pixel outside a window's picture. -/
  | noPixel (x y : Int)
  /-- A picture with a side below one cannot be shown in a window. -/
  | emptyPicture (width height : Int)
  | window (e : WindowError)
  /-- A point outside a window. -/
  | noPoint (x y : Int)
  /-- A window's title holds the character `U+0000`. -/
  | nullInTitle
  | missingOption (name : OptionName)
  /-- An option that must have a value was given as its default, and has none. -/
  | unsetOption (name : OptionName)
  /-- An option was given without a value where one is needed. -/
  | blankOption (name : OptionName)
  /-- The clock gives no more readings. -/
  | clockExhausted
  deriving DecidableEq

/-- An error in words. -/
def Error.message : Error → String
  | .fault f => f.message
  | .load e => e.text
  | .keymap e => e.text
  | .noWindowSystem =>
    "PyGame does not appear to be installed.  Install it, or use the null renderer."
  | .unknownRenderer name => "Unknown renderer '" ++ name ++ "'"
  | .file name e =>
    "[Errno " ++ toString e.number ++ "] " ++ e.text ++ ": " ++ Text.quoted name
  | .nullInName => "embedded null byte"
  | .timerReload value => "Timer reload value " ++ toString value ++ " does not fit in 8 bits"
  | .notAByte value => "Value " ++ toString value ++ " does not fit in 8 bits"
  | .noRegister index => "There is no register " ++ toString index
  | .noKey index => "There is no key " ++ toString index
  | .notAnIndex size => "Size " ++ toString size ++ " does not fit in 64 bits"
  | .noRoom size => "There is no room for " ++ toString size ++ " places"
  | .emptySide => "The screen has a side of length zero"
  | .noPixel x y =>
    "Pixel (" ++ toString x ++ ", " ++ toString y ++ ") is outside the picture"
  | .emptyPicture _ _ => "Resolution must be nonzero positive values"
  | .window e => e.text
  | .noPoint x y => "Point (" ++ toString x ++ ", " ++ toString y ++ ") is outside the window"
  | .nullInTitle => "embedded null character"
  | .missingOption name => Text.quoted name.text
  | .unsetOption name => "Option " ++ Text.quoted name.text ++ " has no default"
  | .blankOption name => "Option " ++ Text.quoted name.text ++ " needs a value"
  | .clockExhausted => "clock exhausted"

end Chip8
