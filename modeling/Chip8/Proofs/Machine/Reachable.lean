import Chip8.Machine.Host
import Chip8.Proofs.Machine.Creation

/-!
# Reachable machines

What a host can do with a machine, and the machines that it can get to.

* `Machine.Event` are the things that happen to a machine, `Event.after` is what each of them leaves
  behind, also when it fails;
* `Machine.Reachable` are the machines that come about from one that was created;
* `Reachable.wellFormed` says that they are all well formed;
* `Machine.Attainable` are the machines that come about if a reset may lead to any address, and
  `Attainable.induction` is how to prove something of all of them.
-/

namespace Chip8.Machine

/-- What can happen to a machine. -/
inductive Event
  /-- One instruction is run. -/
  | step
  /-- One frame is run. -/
  | frame
  /-- The host's key `code` goes down or up. -/
  | hostKey (code : Int) (down : Bool)
  /-- The key with a given index is marked as held or not. -/
  | hold (index : Int) (down : Bool)
  /-- Frames get another length. -/
  | setCycles (cycles : Int)
  /-- The machine goes on at `address`. -/
  | reset (address : Int)

namespace Event

/-- What an event does to a machine. -/
def action : Event → Action Machine Unit
  | .step => Machine.step
  | .frame => Machine.frame
  | .hostKey code down => modify fun m => { m with keypad := m.keypad.hostKey code down }
  | .hold index down => onKeypad (Keypad.hold index down)
  | .setCycles cycles => modify (Machine.setCycles cycles)
  | .reset address => modify (Machine.reset address)

/-- The machine after an event, whether the event is completed or fails. -/
def after (e : Event) (m : Machine) : Machine := Action.state (e.action m)

/-- A machine may be made to go on at an address in memory only. -/
def Allowed : Event → Prop
  | .reset address => 0 ≤ address ∧ address ≤ 0xFFF
  | .step | .frame | .hostKey .. | .hold .. | .setCycles _ => True

end Event

/-- A machine that comes about from one that was created by events that are allowed, in any number
and order. -/
inductive Reachable : Machine → Prop
  | created {program : List UInt8} {keymap : Keymap} {display : Display} {random : RandomSource}
      {settings : Settings} {m : Machine}
      (h : create program keymap display random settings = .ok m) : Reachable m
  | after {m : Machine} (hm : Reachable m) (e : Event) (he : e.Allowed) : Reachable (e.after m)

/-- The keymap in which each key stands for its own value. -/
def digitKeymap : Keymap := ⟨(List.range 16).map Nat.cast, rfl, by decide⟩

/-- A machine about to run `program`, for which nothing else is asked. -/
def standard (program : List UInt8) : Machine :=
  powerOn program digitKeymap (.headless none) (.cycle []) ⟨none, none, none, false⟩ ⟨none, 0, 0⟩

theorem create_standard (program : List UInt8) (h : program.length ≤ 0xE00) :
    create program digitKeymap (.headless none) (.cycle []) ⟨none, none, none, false⟩ =
      .ok (standard program) := by
  have hload : fontMemory.loadRefusal? (Settings.origin ⟨none, none, none, false⟩)
      program.length = none := by
    rw [Memory.loadRefusal?_eq_none_iff]
    refine ⟨by decide, by decide, ?_⟩
    show (0x200 : Int) + program.length ≤ 0x1000
    omega
  exact create_of_fits hload rfl

theorem reachable_standard (program : List UInt8) (h : program.length ≤ 0xE00) :
    (standard program).Reachable := .created (create_standard program h)

theorem byteAt_standard {program : List UInt8} {j : Nat} (hj : j < program.length)
    (h : j < 0xE00) : (standard program).memory.byteAt (0x200 + j) = program[j] := by
  refine Memory.byteAt_written fontMemory 0x200 (by decide) hj ?_
  rw [size_cells_fontMemory]
  omega

/-- What a machine has ahead of it as long as its program is still in memory. -/
theorem nextWord_of_standard {m : Machine} {program : List UInt8} {j : Nat}
    (hmemory : m.memory = (standard program).memory) (hpc : m.pc = 0x200 + j)
    (hj : j + 1 < program.length) (h : j + 1 < 0xE00) :
    m.nextWord = 256 * program[j].toNat + program[j + 1].toNat := by
  have hnext : m.pc + 1 = 0x200 + (j + 1 : Nat) := by
    rw [hpc]
    omega
  unfold nextWord
  rw [hnext, hpc, hmemory, byteAt_standard (by omega) (by omega), byteAt_standard hj h]

theorem nextWord_standard {a b : UInt8} {program : List UInt8} :
    (standard (a :: b :: program)).nextWord = 256 * a.toNat + b.toNat :=
  nextWord_of_standard (j := 0) rfl rfl (by simp) (by decide)

/-! ### The invariant along events -/

theorem WellFormed.reset {m : Machine} (hm : m.WellFormed) {address : Int}
    (h : 0 ≤ address ∧ address ≤ 0xFFF) : (m.reset address).WellFormed :=
  { hm with
    pc := ⟨h.1, by show address ≤ 0x10FE; omega⟩
    awaiting := nofun
    halted := nofun }

theorem WellFormed.hold {m : Machine} (hm : m.WellFormed) (index : Int) (down : Bool) :
    (Action.state (onKeypad (Keypad.hold index down) m)).WellFormed := by
  unfold onKeypad Keypad.hold
  cases place? 16 index <;> exact { hm with }

/-- What an allowed event keeps: the invariant of machines that run. -/
theorem WellFormed.after {m : Machine} (hm : m.WellFormed) {e : Event} (he : e.Allowed) :
    (e.after m).WellFormed := by
  cases e with
  | step => exact hm.step
  | frame => exact hm.frame
  | hostKey code down => exact { hm with }
  | hold index down => exact hm.hold index down
  | setCycles cycles => exact { hm with }
  | reset address => exact hm.reset he

theorem Reachable.wellFormed {m : Machine} (hm : m.Reachable) : m.WellFormed := by
  induction hm with
  | created h => exact .of_create h
  | after _ e he ih => exact ih.after he

/-! ### Resets to any address -/

/-- A machine that comes about from one that was created by any events at all, also by a reset to
an address outside of memory. -/
inductive Attainable : Machine → Prop
  | created {program : List UInt8} {keymap : Keymap} {display : Display} {random : RandomSource}
      {settings : Settings} {m : Machine}
      (h : create program keymap display random settings = .ok m) : Attainable m
  | after {m : Machine} (hm : Attainable m) (e : Event) : Attainable (e.after m)

theorem Reachable.attainable {m : Machine} (hm : m.Reachable) : m.Attainable := by
  induction hm with
  | created h => exact .created h
  | after _ e _ ih => exact ih.after e

theorem Attainable.of_step {m m' : Machine} (hm : m.Attainable) (h : step m = .ok () m') :
    m'.Attainable := by
  have hafter := hm.after .step
  rwa [show Event.step.after m = m' from congrArg Action.state h] at hafter

/-- What each step and each tick keeps, and everything that a host does between frames, holds after
an event. -/
theorem Event.after_induction {P : Machine → Prop}
    (step : ∀ m, P m → P (Action.state (Machine.step m))) (tick : ∀ m, P m → P m.tick)
    (keypad : ∀ (m : Machine) pad, P m → P { m with keypad := pad })
    (cycles : ∀ (m : Machine) c, P m → P (m.setCycles c))
    (reset : ∀ (m : Machine) a, P m → P (m.reset a)) {m : Machine} (hm : P m) (e : Event) :
    P (e.after m) := by
  cases e with
  | step => exact step m hm
  | frame => exact frame_induction step tick hm
  | hostKey code down => exact keypad m _ hm
  | hold index down =>
    show P (Action.state (onKeypad (Keypad.hold index down) m))
    unfold onKeypad Keypad.hold
    cases place? 16 index <;> exact keypad m _ hm
  | setCycles c => exact cycles m c hm
  | reset a => exact reset m a hm

theorem Intact.after {m : Machine} (hm : m.Intact) (e : Event) : (e.after m).Intact :=
  Event.after_induction (fun _ h => h.step) (fun _ h => h.tick) (fun _ _ h => { h with })
    (fun _ _ h => { h with }) (fun _ _ h => { h with }) hm e

theorem Attainable.intact {m : Machine} (hm : m.Attainable) : m.Intact := by
  induction hm with
  | created h => exact (WellFormed.of_create h).toIntact
  | after _ e ih => exact ih.after e

/-- What holds of each machine that is created, and is kept by each step of an intact machine, by
each tick and by everything that a host does between frames, holds of all machines that can come
about. -/
theorem Attainable.induction {P : Machine → Prop}
    (created : ∀ {program keymap display random settings m},
      create program keymap display random settings = .ok m → P m)
    (step : ∀ m, m.Intact → P m → P (Action.state (Machine.step m)))
    (tick : ∀ m, P m → P m.tick)
    (keypad : ∀ (m : Machine) pad, P m → P { m with keypad := pad })
    (cycles : ∀ (m : Machine) c, P m → P (m.setCycles c))
    (reset : ∀ (m : Machine) a, P m → P (m.reset a)) {m : Machine} (hm : m.Attainable) : P m := by
  induction hm with
  | created h => exact created h
  | @after m hm e ih =>
    have hboth : (e.after m).Intact ∧ P (e.after m) :=
      Event.after_induction (P := fun m => m.Intact ∧ P m)
        (fun m h => ⟨h.1.step, step m h.1 h.2⟩) (fun m h => ⟨h.1.tick, tick m h.2⟩)
        (fun m pad h => ⟨{ h.1 with }, keypad m pad h.2⟩)
        (fun m c h => ⟨{ h.1 with }, cycles m c h.2⟩)
        (fun m a h => ⟨{ h.1 with }, reset m a h.2⟩) ⟨hm.intact, ih⟩ e
    exact hboth.2

/-! ### The invariant, part by part -/

/-- **Every machine that can be reached is in range, and is halted or waits only where it should.**
No step from such a machine wraps the program counter around, neither at a skip nor on the way
back. -/
theorem Reachable.invariant {m : Machine} (hm : m.Reachable) :
    (m.memory.size = 0x1000 ∧ m.memory.cells.size = 0x1000 ∧ m.memory.protectedTop = 79) ∧
      (m.screen.width = 64 ∧ m.screen.height = 32 ∧ m.screen.cells.cells.size = 64 * 32 ∧
        ∀ c ∈ m.screen.cells.cells, c = 0x00 ∨ c = 0xFF) ∧
      (∀ x, (m.register x).toNat ≤ 255) ∧
      (0 ≤ m.timers.delay ∧ m.timers.delay ≤ 255) ∧
      (0 ≤ m.timers.sound ∧ m.timers.sound ≤ 255) ∧
      (0 ≤ m.index ∧ m.index ≤ 0xFFFF) ∧
      (0 ≤ m.pc ∧ m.pc ≤ 0x10FE) ∧
      (m.advance.pc = m.pc + 2 ∧ m.advance.advance.pc = m.pc + 4 ∧ m.advance.rewind.pc = m.pc) ∧
      (m.stack.size ≤ 48 ∧ ∀ a ∈ m.stack.toList, 2 ≤ a ∧ a ≤ 0x1000) ∧
      (m.keypad.latch.key : Nat) ≤ 15 ∧
      (m.awaitingKey = true → m.fault = none ∧ m.pc ≤ 0xFFE ∧
        ∃ x : Register, m.nextWord = 0xF00A + 0x100 * (x : Nat)) ∧
      ∀ f, m.fault = some f → m.pc = m.begun ∧ f.address = some m.pc := by
  have h := hm.wellFormed
  obtain ⟨hpc0, hpc1⟩ := h.pc
  obtain ⟨hindex0, hindex1⟩ := h.index
  obtain ⟨hdelay0, hdelay1⟩ := h.timers.delay
  obtain ⟨hsound0, hsound1⟩ := h.timers.sound
  have hcells : m.screen.cells.cells.size = 64 * 32 := by
    have hsize := h.screen.size_cells
    rw [h.width, h.height] at hsize
    omega
  have hregister : ∀ x, (m.register x).toNat ≤ 255 := by
    intro x
    have := (m.register x).toNat_lt
    omega
  have hmask : m.advance.pc = m.pc + 2 ∧ m.advance.advance.pc = m.pc + 4 ∧
      m.advance.rewind.pc = m.pc := by
    simp only [advance, rewind]
    omega
  have hreturns : ∀ a ∈ m.stack.toList, 2 ≤ a ∧ a ≤ 0x1000 := by
    intro a ha
    exact h.returns a (List.mem_reverse.1 ha)
  have hwait : m.awaitingKey = true → m.fault = none ∧ m.pc ≤ 0xFFE ∧
      ∃ x : Register, m.nextWord = 0xF00A + 0x100 * (x : Nat) := by
    intro ha
    obtain ⟨hf, hpc, x, hx⟩ := h.awaiting ha
    exact ⟨hf, hpc, x, hx⟩
  exact ⟨⟨h.size_memory, h.size_cells, h.protectedTop⟩,
    ⟨h.width, h.height, hcells, h.screen.cell⟩, hregister, ⟨hdelay0, by omega⟩,
    ⟨hsound0, by omega⟩, ⟨hindex0, by omega⟩, ⟨hpc0, hpc1⟩, hmask, ⟨h.size_stack, hreturns⟩,
    by omega, hwait, h.halted⟩

/-- A machine that has met `F00A` waits there. -/
theorem invariant_of_waiting :
    (Event.step.after (standard [0xF0, 0x0A])).Reachable ∧
      (Event.step.after (standard [0xF0, 0x0A])).awaitingKey = true ∧
      (Event.step.after (standard [0xF0, 0x0A])).pc ≤ 0xFFE ∧
      ∃ x : Register,
        (Event.step.after (standard [0xF0, 0x0A])).nextWord = 0xF00A + 0x100 * (x : Nat) := by
  have hm := reachable_standard [0xF0, 0x0A] (by decide)
  have hi : Instruction.decode? (standard [0xF0, 0x0A]).nextWord =
      some ⟨.waitKey, 0xF00A, 0x00A, offset, 0, 10, 0x0A⟩ := by
    rw [nextWord_standard]
    rfl
  have hstep := step_of_not_refused hm.wellFormed.toIntact (by decide) rfl (by decide) hi rfl
  have ha : (Event.step.after (standard [0xF0, 0x0A])).awaitingKey = true := by
    show (Action.state (Machine.step (standard [0xF0, 0x0A]))).awaitingKey = true
    rw [hstep]
    rfl
  have hafter := hm.after .step trivial
  obtain ⟨-, -, -, -, -, -, -, -, -, -, hwait, -⟩ := hafter.invariant
  obtain ⟨-, hpc, hx⟩ := hwait ha
  exact ⟨hafter, ha, hpc, hx⟩

end Chip8.Machine
