import Chip8.Machine.Perform
import Chip8.Proofs.Screen.Drawing

/-!
# The effect of an operation

On a machine whose parts are as it was built, an instruction is either refused, and then changes
nothing, or it is completed.

* `Machine.Intact` says that the parts of a machine have the sizes and ranges they are built with;
* `Machine.refusal?` is the fault in which an instruction ends, if it is refused;
* `Machine.effect` is the machine after an operation that is not refused, field by field;
* `perform_eq` says that performing an instruction is just that;
* `Machine.withRecord` is a machine with another record of its run, which `effect_withRecord` says
  that no operation looks at.
-/

namespace Chip8

/-- All values of the timers are bytes. -/
structure Timers.WellFormed (t : Timers) : Prop where
  reload : ∀ r, t.reload = some r → 0 ≤ r ∧ r < 256
  delay : 0 ≤ t.delay ∧ t.delay < 256
  sound : 0 ≤ t.sound ∧ t.sound < 256

namespace Machine

/-- The parts of a machine are as they were built: memory, screen and stack have their sizes, and
every value that is kept is in the range of its place. -/
structure Intact (m : Machine) : Prop where
  size_memory : m.memory.size = 0x1000
  size_cells : m.memory.cells.size = 0x1000
  protectedTop : m.memory.protectedTop = 79
  screen : m.screen.WellFormed
  width : m.screen.width = 64
  height : m.screen.height = 32
  index : 0 ≤ m.index ∧ m.index < 0x10000
  depth : m.stack.depth = 48
  size_stack : m.stack.size ≤ 48
  returns : ∀ a ∈ m.stack.returns, 2 ≤ a ∧ a ≤ 0x1000
  timers : m.timers.WellFormed

/-! ### Refusal -/

/-- The fault at an opcode that cannot be run. -/
def unsupportedFault (m : Machine) (reason : Unsupported) (opcode : Int) : Fault :=
  ⟨.unsupported reason opcode m.begun (m.dump unknownInstruction), some m.begun, some opcode⟩

/-- The fault in which performing an instruction ends, if it does not complete. -/
def refusal? (m : Machine) (i : Instruction) : Option Fault :=
  match i.operation with
  | .machineCode _ => some (m.unsupportedFault .nativeRoutine i.opcode)
  | .ret => if m.stack.returns = [] then some (.ofCause .stackEmpty) else none
  | .call _ =>
    if m.stack.depth ≤ m.stack.size then some (.ofCause (.stackFull m.stack.depth)) else none
  | .draw _ _ n => (m.memory.readRefusal? m.index n).map .ofCause
  | .storeDigits _ => (m.memory.writeRefusal? m.index 3).map .ofCause
  | .storeRegisters x => (m.memory.writeRefusal? m.index (x + 1)).map .ofCause
  | .loadRegisters x => (m.memory.readRefusal? m.index (x + 1)).map .ofCause
  | .clearScreen | .jump _ | .skipIfByte .. | .skipUnlessByte .. | .skipIfSame .. | .loadByte ..
  | .addByte .. | .copy .. | .or .. | .and .. | .xor .. | .add .. | .subtract .. | .shiftRight ..
  | .subtractFrom .. | .shiftLeft .. | .skipUnlessSame .. | .loadIndex _ | .jumpOffset _
  | .random .. | .skipIfPressed _ | .skipUnlessPressed _ | .loadDelay _ | .waitKey _ | .setDelay _
  | .setSound _ | .addIndex _ | .loadGlyph _ => none

/-- A refusal does not know its place, or it is the report on a call of native code. -/
theorem refusal?_cases {m : Machine} {i : Instruction} {f : Fault} (h : m.refusal? i = some f) :
    (∃ c, f = .ofCause c) ∨
      (∃ a, i.operation = .machineCode a) ∧ f = m.unsupportedFault .nativeRoutine i.opcode := by
  unfold refusal? at h
  cases hop : i.operation with simp only [hop] at h
  | machineCode a =>
    cases h
    exact .inr ⟨⟨a, rfl⟩, rfl⟩
  | ret | call a =>
    split_ifs at h
    cases h
    exact .inl ⟨_, rfl⟩
  | draw x y n | storeDigits x | storeRegisters x | loadRegisters x =>
    obtain ⟨c, -, rfl⟩ := Option.map_eq_some_iff.1 h
    exact .inl ⟨c, rfl⟩
  | _ => cases h

/-- Once its place is filled in, a refusal names the instruction that was begun. -/
theorem attach_refusal {m : Machine} {i : Instruction} {g : Fault} (h : m.refusal? i = some g) :
    (g.attach (some m.begun) (some i.opcode)).address = some m.begun ∧
      (g.attach (some m.begun) (some i.opcode)).opcode = some i.opcode := by
  rcases refusal?_cases h with ⟨c, rfl⟩ | ⟨-, rfl⟩ <;> exact ⟨rfl, rfl⟩

/-! ### Completion -/

/-- Where a machine goes on if it skips the next instruction when `c` holds. -/
def skipTarget (m : Machine) (c : Bool) : Int := if c then (m.pc + 2) % 0x10000 else m.pc

/-- Where a machine goes on after it asked for a key: back to where it asked if none is held. -/
def waitTarget (m : Machine) : Int := if m.keypad.sample.isSome then m.pc else (m.pc - 2) % 0x10000

-- The sixteen places of this vector are never to be computed when two machines are compared.
/-- The registers of a machine, filled from the first one on. -/
@[irreducible] def filled (m : Machine) (bytes : List UInt8) : Vector UInt8 16 :=
  Vector.ofFn fun r => bytes.getD r (m.register r)

/-- The machine after an operation that is not refused. -/
def effect (m : Machine) : Operation → Machine
  | .machineCode _ => m
  | .clearScreen => { m with screen := m.screen.blanked }
  | .ret =>
    { m with
      pc := m.stack.returns.headD 0
      stack := { m.stack with returns := m.stack.returns.tail } }
  | .jump a => { m with pc := a }
  | .call a => { m with pc := a, stack := { m.stack with returns := m.pc :: m.stack.returns } }
  | .skipIfByte x b => { m with pc := m.skipTarget (m.register x == b) }
  | .skipUnlessByte x b => { m with pc := m.skipTarget (m.register x != b) }
  | .skipIfSame x y _ => { m with pc := m.skipTarget (m.register x == m.register y) }
  | .loadByte x b => m.setRegister x b
  | .addByte x b => m.setRegister x (m.register x + b)
  | .copy x y => m.setRegister x (m.register y)
  | .or x y => m.setRegister x (m.register x ||| m.register y)
  | .and x y => m.setRegister x (m.register x &&& m.register y)
  | .xor x y => m.setRegister x (m.register x ^^^ m.register y)
  | .add x y => m.addRegisters x y
  | .subtract x y => m.subtractRegisters x y
  | .shiftRight x _ => m.shiftRight x
  | .subtractFrom x y => m.subtractFromRegisters x y
  | .shiftLeft x _ => m.shiftLeft x
  | .skipUnlessSame x y _ => { m with pc := m.skipTarget (m.register x != m.register y) }
  | .loadIndex a => { m with index := a }
  | .jumpOffset a => { m with pc := a + (m.register offset).toNat }
  | .random x b => m.drawRandom x b
  | .draw x y n =>
    let p := m.screen.drawn (m.register x).toNat (m.register y).toNat (m.memory.bytes m.index n)
    { m with screen := p.2 }.setRegister flag (if p.1 then 1 else 0)
  | .skipIfPressed x =>
    { m with
      keypad := m.keypad.refresh
      pc := m.skipTarget (m.keypad.refresh.isPressed (m.register x).toNat) }
  | .skipUnlessPressed x =>
    { m with
      keypad := m.keypad.refresh
      pc := m.skipTarget (!m.keypad.refresh.isPressed (m.register x).toNat) }
  | .loadDelay x => m.setRegister x (UInt8.ofNat m.timers.delay.toNat)
  | .waitKey x =>
    { m with
      registers := m.keypad.sample.elim m.registers fun key =>
        (m.setRegister x (UInt8.ofNat key)).registers
      keypad := m.keypad.refresh
      pc := m.waitTarget
      awaitingKey := m.keypad.sample.isNone }
  | .setDelay x => { m with timers := { m.timers with delay := (m.register x).toNat } }
  | .setSound x => { m with timers := { m.timers with sound := (m.register x).toNat } }
  | .addIndex x => { m with index := (m.index + (m.register x).toNat) % 0x10000 }
  | .loadGlyph x =>
    { m with index := fontLocation + Font.glyphSize * ((m.register x).toNat % 16 : Nat) }
  | .storeDigits x =>
    { m with memory := m.memory.written m.index (decimalDigits (m.register x)) }
  | .storeRegisters x =>
    { m with memory := m.memory.written m.index (m.registers.toList.take (x + 1)) }
  | .loadRegisters x => { m with registers := m.filled (m.memory.bytes m.index (x + 1)) }

/-! ### Performing an instruction -/

theorem skipIf_eq (m : Machine) (c : Bool) : m.skipIf c = { m with pc := m.skipTarget c } := by
  cases c <;> rfl

theorem fillRegisters_eq (m : Machine) (bytes : List UInt8) :
    fillRegisters bytes m = { m with registers := m.filled bytes } := by
  unfold filled
  rfl

theorem waitKey_eq (m : Machine) (x : Register) : m.waitKey x = m.effect (.waitKey x) := by
  unfold waitKey effect refreshKeypad Keypad.refresh waitTarget
  cases h : m.keypad.sample <;> simp [setRegister, rewind]

theorem Intact.size_cells_eq {m : Machine} (hm : m.Intact) :
    (m.memory.cells.size : Int) = m.memory.size := by
  rw [hm.size_memory, hm.size_cells]
  rfl

theorem onMemory_readBlock {m : Machine} (hm : m.Intact) (location : Int) (n : Nat) :
    onMemory (Memory.readBlock location n) m = match m.memory.readRefusal? location n with
      | none => .ok (m.memory.bytes location n) m
      | some c => .error (.fault (.ofCause c)) m := by
  rw [onMemory_apply, Memory.readBlock_eq _ _ hm.size_cells_eq]
  cases m.memory.readRefusal? location n <;> rfl

theorem onMemory_writeBlock (m : Machine) (location : Int) (block : List UInt8) :
    onMemory (Memory.writeBlock location block) m =
      match m.memory.writeRefusal? location block.length with
      | none => .ok () { m with memory := m.memory.written location block }
      | some c => .error (.fault (.ofCause c)) m := by
  rw [onMemory_apply, Memory.writeBlock_eq]
  cases m.memory.writeRefusal? location block.length <;> rfl

/-- **An instruction is refused, which changes nothing, or completed.** -/
theorem perform_eq {m : Machine} (hm : m.Intact) (i : Instruction) :
    perform i m = match m.refusal? i with
      | some f => .error (.fault f) m
      | none => .ok () (m.effect i.operation) := by
  unfold perform refusal?
  generalize i.operation = op
  cases op with
  | machineCode a => rfl
  | clearScreen =>
    simp only [onScreen_apply, Screen.clear_eq hm.screen]
    rfl
  | ret =>
    simp only [Action.bind_apply, onStack_apply, CallStack.pop_apply, effect]
    cases m.stack.returns <;> rfl
  | call a =>
    simp only [Action.bind_apply, Action.get_apply, onStack_apply, CallStack.push_apply, effect]
    split_ifs <;> rfl
  | draw x y n =>
    simp only [drawSprite, Action.bind_apply, Action.get_apply, onMemory_readBlock hm]
    cases m.memory.readRefusal? m.index n with
    | some c => rfl
    | none =>
      simp only [onScreen_apply, Screen.drawSprite_eq hm.screen]
      rfl
  | loadDelay x =>
    obtain ⟨h0, h1⟩ := hm.timers.delay
    simp only [store, Action.bind_apply, Action.get_apply, if_pos (And.intro h0 h1)]
    rfl
  | waitKey x =>
    simp only [Action.modify_apply, waitKey_eq]
  | storeDigits x =>
    have hlength : ((decimalDigits (m.register x)).length : Int) = 3 := rfl
    simp only [storeDigits, Action.bind_apply, Action.get_apply, onMemory_writeBlock, hlength]
    cases m.memory.writeRefusal? m.index 3 <;> rfl
  | storeRegisters x =>
    have hlength : ((m.registers.toList.take (x + 1)).length : Int) = x + 1 := by
      rw [List.length_take, Vector.length_toList]
      omega
    simp only [storeRegisters, Action.bind_apply, Action.get_apply, onMemory_writeBlock, hlength]
    cases m.memory.writeRefusal? m.index (x + 1) <;> rfl
  | loadRegisters x =>
    simp only [loadRegisters, Action.bind_apply, Action.get_apply, Action.modify_apply,
      fillRegisters_eq]
    rw [show ((x : Nat) : Int) + 1 = ((x + 1 : Nat) : Int) from rfl, onMemory_readBlock hm]
    cases m.memory.readRefusal? m.index (x + 1 : Nat) <;> rfl
  | skipIfByte x b | skipUnlessByte x b | skipIfSame x y n | skipUnlessSame x y n
  | skipIfPressed x | skipUnlessPressed x =>
    simp only [Action.modify_apply, skipIf_eq]
    rfl
  | _ => rfl

/-! ### The record of a run -/

/-- A machine with what another one keeps about its own run. -/
def withRecord (m n : Machine) : Machine :=
  { m with
    fault := n.fault
    completed := n.completed
    begun := n.begun
    opcode := n.opcode
    instruction := n.instruction
    live := n.live
    trace := n.trace }

/-- No operation takes anything from the record of a run, or changes it. -/
theorem effect_withRecord (m n : Machine) (op : Operation) :
    (m.withRecord n).effect op = (m.effect op).withRecord n := by
  cases op with
  | loadRegisters x =>
    have hfilled : ∀ bytes, (m.withRecord n).filled bytes = m.filled bytes := fun bytes => by
      unfold filled
      rfl
    simp only [effect, hfilled]
    rfl
  | _ => rfl

end Machine

end Chip8
