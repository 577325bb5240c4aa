import Chip8.CommandLine.Switch
import Chip8.Text.DecimalDigit

/-!
# Tokens

The first pass over the command line. Each argument is a switch or a plain text, up to the first
`--`, behind which everything is plain. A negative number is plain, and so is a text with a blank in
it. What looks like a switch and is none is kept as unknown.
-/

namespace Chip8.CommandLine

/-- An argument as the first pass sees it. -/
inductive Token
  /-- A switch; `short` when its name stands behind one dash. -/
  | switch (s : Switch) (short : Bool) (joined : Option String)
  /-- What looks like a switch. -/
  | unknown (text : String)
  | plain (text : String)
  /-- The first `--`. -/
  | separator
  deriving DecidableEq

/-- Why a command line is not run: it asks for help, or it is refused with a message. -/
inductive Exit
  | help
  | refused (message : String)
  deriving DecidableEq

/-- Digits of any script, at least one. -/
def isDigits (text : List Char) : Bool :=
  !text.isEmpty && text.all fun c => (Text.decimalDigit? c).isSome

/-- A text without the line feed at its end. -/
def dropLineEnd (text : List Char) : List Char :=
  if text.getLast? = some '\n' then text.dropLast else text

/-- A negative number: a dash and digits, of which the last ones may follow a point. A line feed may
stand behind it. -/
def isNegativeNumber (argument : List Char) : Bool :=
  match dropLineEnd argument with
  | '-' :: number =>
    isDigits number ||
      (match number.dropWhile (· != '.') with
       | [] => false
       | _ :: fraction =>
         let whole := number.takeWhile (· != '.')
         (whole.isEmpty || isDigits whole) && isDigits fraction)
  | _ => false

/-- Whether a name stands behind one dash. -/
def isShort (name : String) : Bool := !(['-', '-'].isPrefixOf name.toList)

/-- A switch that is read in one way. -/
def Reading.token (r : Reading) : Token := .switch r.switch (isShort r.name) r.joined

/-- The switch that an argument names in full, alone or before an equals sign. -/
def exactReading? (argument : String) : Option Reading :=
  match Switch.ofName? argument with
  | some s => some ⟨s, argument, none⟩
  | none =>
    match splitAtEquals argument.toList with
    | (_, none) => none
    | (stem, some value) =>
      let name := String.ofList stem
      (Switch.ofName? name).map fun s => ⟨s, name, some (String.ofList value)⟩

/-- The refusal of an argument that can be read in several ways. -/
def ambiguous (argument : String) (readings : List Reading) : Exit :=
  .refused ("ambiguous option: " ++ argument ++ " could match " ++
    String.intercalate ", " (readings.map Reading.name))

/-- Whether an argument begins like a switch. -/
def looksLikeSwitch : List Char → Bool
  | '-' :: _ :: _ => true
  | _ => false

/-- The token of an argument before the first `--`. -/
def classify (argument : String) : Except Exit Token :=
  if !looksLikeSwitch argument.toList then .ok (.plain argument)
  else
    match exactReading? argument with
    | some r => .ok r.token
    | none =>
      match candidates argument.toList with
      | [r] => .ok r.token
      | [] =>
        if isNegativeNumber argument.toList || argument.toList.contains ' ' then
          .ok (.plain argument)
        else .ok (.unknown argument)
      | readings => .error (ambiguous argument readings)

/-- The tokens of a command line. -/
def tokenize : List String → Except Exit (List Token)
  | [] => .ok []
  | argument :: arguments =>
    if argument = "--" then .ok (.separator :: arguments.map .plain)
    else do return (← classify argument) :: (← tokenize arguments)

end Chip8.CommandLine
