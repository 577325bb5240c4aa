import Chip8.Banner
import Chip8.Text.Hex

/-!
# Faults

What stops a machine while it runs. A fault has a cause, and once the machine knows the
instruction that it belongs to, that instruction's address and opcode.

* `Fault.Kind` is the family of faults and its ordering from special to general;
* `Cause` is what went wrong, with `Cause.kind` and `Cause.text`;
* `Fault` adds the place, `Fault.attach` fills it in once, and `Fault.message` is the full text.
-/

namespace Chip8

/-- The kinds of fault. -/
inductive Fault.Kind
  | machine
  | memory
  | addressOutOfRange
  | stack
  | stackOverflow
  | stackUnderflow
  | processor
  | unimplementedInstruction
  deriving DecidableEq

namespace Fault.Kind

/-- The next more general kind. -/
def parent? : Kind → Option Kind
  | .machine => none
  | .memory | .stack | .processor => some .machine
  | .addressOutOfRange => some .memory
  | .stackOverflow | .stackUnderflow => some .stack
  | .unimplementedInstruction => some .processor

/-- A kind and all the more general ones, the kind itself first. -/
def lineage (k : Kind) : List Kind :=
  match k.parent? with
  | none => [k]
  | some p =>
    match p.parent? with
    | none => [k, p]
    | some q => [k, p, q]

end Fault.Kind

/-- Why an opcode cannot be run: it encodes no instruction, or it calls native code. -/
inductive Unsupported
  | notAnInstruction
  | nativeRoutine
  deriving DecidableEq

/-- The end of the report on an opcode that cannot be run. -/
def Unsupported.text : Unsupported → String
  | .notAnInstruction => "is not a CHIP-8 instruction"
  | .nativeRoutine => "calls a machine code routine, which cannot be emulated"

/-- What went wrong. -/
inductive Cause
  /-- A block from `first` to `last` leaves the memory. -/
  | outOfRange (first last : Int)
  /-- A block that begins at `location` would overwrite protected memory. -/
  | readOnly (location : Int)
  /-- A pixel outside a screen of the given size. -/
  | offScreen (x y width height : Int)
  | stackFull (depth : Int)
  | stackEmpty
  /-- A word that the decoder does not know. -/
  | undecodable (opcode : Int)
  /-- The machine met an opcode that it cannot run; `dump` is its state at that point. -/
  | unsupported (reason : Unsupported) (opcode address : Int) (dump : String)
  /-- A fault that a host reports in words of its own. -/
  | reported (kind : Fault.Kind) (text : String)
  deriving DecidableEq

namespace Cause

/-- The kind of fault that a cause makes. -/
def kind : Cause → Fault.Kind
  | .outOfRange .. | .readOnly _ | .offScreen .. => .addressOutOfRange
  | .stackFull _ => .stackOverflow
  | .stackEmpty => .stackUnderflow
  | .undecodable _ | .unsupported .. => .unimplementedInstruction
  | .reported k _ => k

/-- The cause in words, without the place. -/
def text : Cause → String
  | .outOfRange first last =>
    "Memory access out of range: 0x" ++ Text.hex 4 first ++ "-0x" ++ Text.hex 4 last
  | .readOnly location => "Write into read-only memory at 0x" ++ Text.hex 4 location
  | .offScreen x y width height =>
    "Pixel (" ++ toString x ++ ", " ++ toString y ++ ") is outside the " ++ toString width ++ "x" ++
      toString height ++ " display"
  | .stackFull depth => "Stack overflow: all " ++ toString depth ++ " levels in use"
  | .stackEmpty => "Stack underflow: return with no matching call"
  | .undecodable opcode => "Opcode 0x" ++ Text.hex 4 opcode ++ " is not a CHIP-8 instruction"
  | .unsupported reason opcode address dump =>
    "Emulation halted.\n\n" ++ appIntro ++ "Debug info:\n" ++ dump ++ "\n\nOpcode 0x" ++
      Text.hex 4 opcode ++ " at address 0x" ++ Text.hex 3 address ++ " " ++ reason.text ++ "."
  | .reported _ text => text

end Cause

/-- A cause, and the address and opcode of the instruction it belongs to as far as they are known.
The opcode is missing when the instruction could not be fetched. -/
structure Fault where
  cause : Cause
  address : Option Int
  opcode : Option Int
  deriving DecidableEq

namespace Fault

/-- A fault whose place is not known yet. -/
def ofCause (cause : Cause) : Fault := ⟨cause, none, none⟩

def kind (f : Fault) : Kind := f.cause.kind

/-- Fills in the place of a fault that has none; a fault that has one keeps it. -/
def attach (f : Fault) (address opcode : Option Int) : Fault :=
  if f.address = none then { f with address, opcode } else f

/-- The cause in words, followed by the place as far as it is known. -/
def message (f : Fault) : String :=
  match f.address, f.opcode with
  | none, _ => f.cause.text
  | some a, none => f.cause.text ++ " (fetching from address 0x" ++ Text.hex 3 a ++ ")"
  | some a, some w =>
    f.cause.text ++ " (opcode 0x" ++ Text.hex 4 w ++ " at address 0x" ++ Text.hex 3 a ++ ")"

theorem attach_of_address_eq_none {f : Fault} (h : f.address = none) (address opcode : Option Int) :
    f.attach address opcode = ⟨f.cause, address, opcode⟩ := by
  simp [attach, h]

theorem attach_of_address_eq_some {f : Fault} {a : Int} (h : f.address = some a)
    (address opcode : Option Int) : f.attach address opcode = f := by
  simp [attach, h]

@[simp] theorem cause_attach (f : Fault) (address opcode : Option Int) :
    (f.attach address opcode).cause = f.cause := by
  unfold attach; split <;> rfl

/-- A second place changes nothing. -/
theorem attach_attach (f : Fault) (a : Int) (b v w : Option Int) :
    (f.attach (some a) v).attach b w = f.attach (some a) v := by
  cases h : f.address with
  | none =>
    rw [attach_of_address_eq_none h]
    exact attach_of_address_eq_some rfl b w
  | some c => rw [attach_of_address_eq_some h, attach_of_address_eq_some h]

end Fault

end Chip8
