import Chip8.CommandLine.Token
import Chip8.Keymap
import Chip8.Machine.Basic
import Chip8.Options
import Chip8.Text.Numeral

/-!
# Parsing the command line

The second pass: the tokens are taken from the left, a switch together with its value. The first
plain text is the program's file name; every further one is left over, and in the end whatever is
left over is refused, unless the file name is missing, which is said first.

* `resolve` unfolds a token like `-ds5`, short switches written as one;
* `setOption` sets the option of a switch from the text of its value;
* `State.take` takes the next token, `State.finish` gives the options when there are no more;
* `parse` reads a whole command line.
-/

namespace Chip8.CommandLine

/-- The options of a command line that says nothing but a file name. -/
def defaults : Options where
  filename := none
  start := some (.value Machine.defaultStart)
  cycles := some (.value Machine.defaultCycles)
  renderer := some (.value windowedName)
  scale := some .unset
  keymap := some (.value Keymap.defaultText)
  timerReload := some .unset
  debug := some (.value false)

/-- The refusal of a switch. -/
def refuse {α : Type} (s : Switch) (message : String) : Except Exit α :=
  .error (.refused ("argument " ++ s.title ++ ": " ++ message))

/-- The refusal of a value that cannot be read as a value of the named type. -/
def refuseValue {α : Type} (s : Switch) (type text : String) : Except Exit α :=
  refuse s ("invalid " ++ type ++ " value: " ++ Text.quoted text)

/-- A value for a switch: the text that was read, or no value where `--` was joined to it. That a
joined `--` is no value is so in the older releases of the argument parser only: they drop it as the
mark that ends the switches, where the newer ones read it as the text of the value. -/
def given (text : String) : Given String := if text = "--" then .blank else .value text

/-- Reads a start address. -/
def readStart (text : String) : Except Exit Int :=
  match Text.prefixedInteger? text with
  | some n => .ok n
  | none => refuseValue .start "<lambda>" text

/-- Reads an integer for a switch. -/
def readInteger (s : Switch) (text : String) : Except Exit Int :=
  match Text.integer? text with
  | some n => .ok n
  | none => refuseValue s "int" text

/-- Reads a reload value, which has to fit in a byte. -/
def readReload (text : String) : Except Exit Int :=
  match Text.integer? text with
  | none => refuseValue .timerReload "timer_value" text
  | some n =>
    if 0 ≤ n ∧ n < 256 then .ok n
    else
      refuse .timerReload ("timer reload must be between 0 and 255, got " ++ toString n)

/-- Reads the name of a renderer. -/
def readRenderer (text : String) : Except Exit String :=
  if text = windowedName ∨ text = headlessName then .ok text
  else
    refuse .renderer ("invalid choice: " ++ Text.quoted text ++ " (choose from " ++
      Text.quoted windowedName ++ ", " ++ Text.quoted headlessName ++ ")")

/-- Sets the option of a switch with a value. -/
def setOption (o : Options) (s : Switch) (value : Given String) : Except Exit Options :=
  match s with
  | .start => do return { o with start := some (← value.read readStart) }
  | .cycles => do return { o with cycles := some (← value.read (readInteger .cycles)) }
  | .renderer => do return { o with renderer := some (← value.read readRenderer) }
  | .scale => do return { o with scale := some (← value.read (readInteger .scale)) }
  | .keymap => .ok { o with keymap := some value }
  | .timerReload => do return { o with timerReload := some (← value.read readReload) }
  | .debug => .ok { o with debug := some (.value true) }
  | .help => .error .help

/-- Short switches written as one: `letters` are those behind the switch `s`. All but the last are
without a value; the value of the last one is given if it is written in the same argument. -/
def resolveLetters (s : Switch) : List Char → Except Exit (List Switch × Switch × Option String)
  | [] => .ok ([], s, none)
  | letter :: letters =>
    if s.takesValue then .ok ([], s, some (String.ofList (letter :: letters)))
    else
      match Switch.ofName? (String.ofList ['-', letter]) with
      | none =>
        refuse s ("ignored explicit argument " ++ Text.quoted (String.ofList (letter :: letters)))
      | some next => do
        let (before, last, value) ← resolveLetters next letters
        return (s :: before, last, value)

/-- The switches of one token: those without a value, the last one, and its value if that is
written in the same argument. -/
def resolve (s : Switch) (short : Bool) (joined : Option String) :
    Except Exit (List Switch × Switch × Option String) :=
  match joined with
  | none => .ok ([], s, none)
  | some text =>
    if s.takesValue then .ok ([], s, some text)
    else if short ∧ text ≠ "" then resolveLetters s text.toList
    else refuse s ("ignored explicit argument " ++ Text.quoted text)

/-- Sets the options of switches without a value, from the left. -/
def setFlags (o : Options) (flags : List Switch) : Except Exit Options :=
  flags.foldlM (fun o s => setOption o s .unset) o

/-- What has been read of a command line. -/
structure State where
  options : Options
  /-- Texts that are not used. -/
  leftOver : List String
  /-- Switches of which the last one waits for its value. -/
  pending : Option (List Switch × Switch)
  /-- The last token was the file name. -/
  named : Bool

namespace State

/-- Before the first token. -/
def initial : State := ⟨defaults, [], none, false⟩

/-- Keeps a text that is not used. -/
def leave (st : State) (text : String) : State :=
  { st with leftOver := st.leftOver ++ [text], named := false }

/-- Sets options and goes on to the next token. -/
def withOptions (st : State) (options : Options) : State :=
  { st with options, pending := none, named := false }

/-- Takes a plain text: the file name, if there is none yet. -/
def takePlain (st : State) (text : String) : State :=
  if st.options.filename.isNone then
    { st with options := { st.options with filename := some (.value text) }, named := true }
  else st.leave text

/-- Takes the separator, which goes with the file name directly before or behind it. -/
def takeSeparator (st : State) : State :=
  if st.options.filename.isNone || st.named then { st with named := false } else st.leave "--"

/-- Takes a switch. If its value is still to come, nothing is set yet. -/
def takeSwitch (st : State) (s : Switch) (short : Bool) (joined : Option String) :
    Except Exit State := do
  let (flags, last, value) ← resolve s short joined
  match value with
  | some text => return st.withOptions (← setOption (← setFlags st.options flags) last (given text))
  | none =>
    if last.takesValue then return { st with pending := some (flags, last), named := false }
    else return st.withOptions (← setFlags st.options (flags ++ [last]))

/-- Takes the next token. -/
def take (st : State) (t : Token) : Except Exit State :=
  match st.pending with
  | some (flags, last) =>
    match t with
    | .plain text => do
      return st.withOptions (← setOption (← setFlags st.options flags) last (.value text))
    | _ => refuse last "expected one argument"
  | none =>
    match t with
    | .plain text => .ok (st.takePlain text)
    | .unknown text => .ok (st.leave text)
    | .separator => .ok st.takeSeparator
    | .switch s short joined => st.takeSwitch s short joined

/-- The options, once all tokens are taken. -/
def finish (st : State) : Except Exit Options :=
  match st.pending with
  | some (_, last) => refuse last "expected one argument"
  | none =>
    if st.options.filename.isNone then
      .error (.refused "the following arguments are required: filename")
    else if st.leftOver ≠ [] then
      .error (.refused ("unrecognized arguments: " ++ String.intercalate " " st.leftOver))
    else .ok st.options

end State

/-- Reads a command line. -/
def parse (arguments : List String) : Except Exit Options := do
  State.finish (← (← tokenize arguments).foldlM State.take .initial)

end Chip8.CommandLine
