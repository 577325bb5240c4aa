import Chip8.Machine.Step

/-!
# Setting a machine by hand

What a host can do to a machine besides running it: store values in its registers and timers, and
follow a run instruction by instruction.
-/

namespace Chip8.Machine

/-- Stores a value in the register with a given index; a negative index counts from the back. -/
def setRegisterAt (index value : Int) : Action Machine Unit :=
  match place? 16 index with
  | none => throw (.noRegister index)
  | some x => store x value

/-- Sets the number of instructions in a frame. -/
def setCycles (cycles : Int) (m : Machine) : Machine := { m with cyclesPerFrame := cycles }

/-- Sets the delay timer. -/
def setDelay (value : Int) (m : Machine) : Machine :=
  { m with timers := { m.timers with delay := value } }

/-- Sets the sound timer. -/
def setSound (value : Int) (m : Machine) : Machine :=
  { m with timers := { m.timers with sound := value } }

/-- How a machine stands after an instruction, and the kind of fault if it ended in one. -/
structure Standing where
  fault : Option Fault.Kind
  line : String

/-- Runs up to `n` instructions and tells after each one how the machine stands; a fault ends the
list. -/
def follow : Nat → Action Machine (List Standing)
  | 0 => pure []
  | n + 1 => fun m =>
    match step m with
    | .ok _ m =>
      let text := (m.instruction.map Instruction.mnemonic).getD unknownInstruction
      match follow n m with
      | .ok rest after => .ok (⟨none, m.line text⟩ :: rest) after
      | .error e after => .error e after
    | .error (.fault f) m => .ok [⟨some f.kind, m.line unknownInstruction⟩] m
    | .error e m => .error e m

end Chip8.Machine
