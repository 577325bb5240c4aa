import Chip8.Error

/-!
# Options

What the program is started with. An option may be missing altogether; where it is present, it may
be given as its default, given without a value, or given a value.
-/

namespace Chip8

/-- The name of the renderer with a window, which is the default. -/
def windowedName : String := "pygame"

/-- The name of the renderer without a window. -/
def headlessName : String := "null"

/-- How an option is given. -/
inductive Given (α : Type)
  /-- The option's default is meant. -/
  | unset
  /-- The option stands there without a value. -/
  | blank
  | value (a : α)
  deriving DecidableEq

/-- The value of an option that has one. -/
def Given.value? {α : Type} : Given α → Option α
  | .value a => some a
  | _ => none

/-- Reads the value of an option that has one. -/
def Given.read {α β ε : Type} (f : α → Except ε β) : Given α → Except ε (Given β)
  | .unset => .ok .unset
  | .blank => .ok .blank
  | .value a => (f a).map .value

/-- The options, each of which may be missing. -/
structure Options where
  filename : Option (Given String)
  start : Option (Given Int)
  cycles : Option (Given Int)
  renderer : Option (Given String)
  scale : Option (Given Int)
  keymap : Option (Given String)
  timerReload : Option (Given Int)
  debug : Option (Given Bool)
  deriving DecidableEq

/-- An option that must be present. -/
def require {α : Type} (name : OptionName) : Option α → Except Error α
  | none => .error (.missingOption name)
  | some a => .ok a

/-- An option that must have a value. -/
def Given.requireValue {α : Type} (name : OptionName) : Given α → Except Error α
  | .unset => .error (.unsetOption name)
  | .blank => .error (.blankOption name)
  | .value a => .ok a

/-- An option that may be left at its default, but not without a value. -/
def Given.optionalValue {α : Type} (name : OptionName) : Given α → Except Error (Option α)
  | .unset => .ok none
  | .blank => .error (.blankOption name)
  | .value a => .ok (some a)

end Chip8
