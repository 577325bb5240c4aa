import Chip8.Error

/-!
# Switches

The switches of the command line and how they are spelt. A switch has one or two names, a short one
behind one dash or a long one behind two; a long name may be cut short where that stays clear.

* `Switch.names` gives the names, `spellings` all of them in order;
* `Switch.ofName?` finds a switch by its whole name, `candidates` the switches that a shortened or
  joined spelling can mean.
-/

namespace Chip8.CommandLine

/-- A switch of the command line. -/
inductive Switch
  | help
  | start
  | cycles
  | renderer
  | scale
  | keymap
  | timerReload
  | debug
  deriving DecidableEq

namespace Switch

/-- The names of a switch, the short one first. -/
def names : Switch → List String
  | .help => ["-h", "--help"]
  | .start => ["-s", "--start"]
  | .cycles => ["-c", "--cycles"]
  | .renderer => ["-r", "--renderer"]
  | .scale => ["--scale"]
  | .keymap => ["-k", "--keymap"]
  | .timerReload => ["-t", "--timer_reload"]
  | .debug => ["-d", "--debug"]

/-- Whether a value follows the switch. -/
def takesValue : Switch → Bool
  | .help | .debug => false
  | _ => true

/-- All switches, in the order in which they are listed. -/
def all : List Switch := [.help, .start, .cycles, .renderer, .scale, .keymap, .timerReload, .debug]

/-- The names of a switch as messages give them. -/
def title (s : Switch) : String := String.intercalate "/" s.names

end Switch

/-- All names with their switches, in the order in which they are listed. -/
def spellings : List (String × Switch) :=
  Switch.all.flatMap fun s => s.names.map fun name => (name, s)

/-- The switch with this name. -/
def Switch.ofName? (name : String) : Option Switch := spellings.lookup name

/-- A way to read an argument as a switch: the switch, its name, and the value joined to it. -/
structure Reading where
  switch : Switch
  name : String
  joined : Option String
  deriving DecidableEq

/-- Splits a text at its first equals sign. -/
def splitAtEquals (text : List Char) : List Char × Option (List Char) :=
  match text.dropWhile (· != '=') with
  | [] => (text, none)
  | _ :: value => (text.takeWhile (· != '='), some value)

/-- The ways to read an argument that is no switch's name as it stands. Behind two dashes, it is the
beginning of a name, and a value may follow an equals sign. Behind one dash, the value directly
follows the letter. -/
def candidates (argument : List Char) : List Reading :=
  match argument with
  | '-' :: '-' :: _ =>
    let (stem, value) := splitAtEquals argument
    spellings.filterMap fun (name, switch) =>
      if stem.isPrefixOf name.toList then some ⟨switch, name, value.map String.ofList⟩ else none
  | '-' :: letter :: value =>
    spellings.filterMap fun (name, switch) =>
      if name = String.ofList ['-', letter] then some ⟨switch, name, some (String.ofList value)⟩
      else none
  | _ => []

end Chip8.CommandLine
