import Chip8.Proofs.Machine.Reachable

/-!
# Footprints of operations

What an instruction that is completed can change.

* `Operation.targets` are the registers in which an operation puts results;
* `Machine.Footprint` says which parts of a machine may differ before and after an operation;
* `Reachable.footprint` says that every step that is completed keeps to the footprint of the
  operation that it performs.
-/

namespace Chip8

/-- The registers in which an operation puts results; `held` tells whether a key is held. -/
def Operation.targets (held : Bool) : Operation → List Register
  | .loadByte x _ | .addByte x _ | .copy x _ | .or x _ | .and x _ | .xor x _ | .random x _
  | .loadDelay x => [x]
  | .waitKey x => if held then [x] else []
  | .add x _ | .subtract x _ | .shiftRight x _ | .subtractFrom x _ | .shiftLeft x _ =>
    [x, Machine.flag]
  | .draw .. => [Machine.flag]
  | .loadRegisters x => (List.finRange 16).filter (· ≤ x)
  | .machineCode _ | .clearScreen | .ret | .jump _ | .call _ | .skipIfByte .. | .skipUnlessByte ..
  | .skipIfSame .. | .skipUnlessSame .. | .loadIndex _ | .jumpOffset _ | .skipIfPressed _
  | .skipUnlessPressed _ | .setDelay _ | .setSound _ | .addIndex _ | .loadGlyph _ | .storeDigits _
  | .storeRegisters _ => []

namespace Machine

/-- What may differ between a machine `m` and the machine `m'` after one operation. -/
structure Footprint (op : Operation) (m m' : Machine) : Prop where
  registers : ∀ r, m'.register r ≠ m.register r → r ∈ op.targets m.keypad.sample.isSome
  index : m'.index ≠ m.index →
    (∃ a, op = .loadIndex a) ∨ (∃ x, op = .addIndex x) ∨ ∃ x, op = .loadGlyph x
  cells : ∀ k : Nat, m'.memory.cells[k]? ≠ m.memory.cells[k]? →
    (∃ x, op = .storeDigits x ∧ m.index ≤ k ∧ k ≤ m.index + 2) ∨
      ∃ x, op = .storeRegisters x ∧ m.index ≤ k ∧ k ≤ m.index + (x : Nat)
  bank : m'.memory.size = m.memory.size ∧ m'.memory.protectedTop = m.memory.protectedTop
  stack : m'.stack ≠ m.stack → op = .ret ∨ ∃ a, op = .call a
  delay : m'.timers.delay ≠ m.timers.delay → ∃ x, op = .setDelay x
  sound : m'.timers.sound ≠ m.timers.sound → ∃ x, op = .setSound x
  reload : m'.timers.reload = m.timers.reload
  screen : m'.screen ≠ m.screen → op = .clearScreen ∨ ∃ x y n, op = .draw x y n
  latch : m'.keypad.latch ≠ m.keypad.latch →
    (∃ x, op = .skipIfPressed x) ∨ (∃ x, op = .skipUnlessPressed x) ∨ ∃ x, op = .waitKey x
  held : m'.keypad.held = m.keypad.held ∧ m'.keypad.keymap = m.keypad.keymap
  awaitingKey : m'.awaitingKey ≠ m.awaitingKey → ∃ x, op = .waitKey x
  random : (∃ x b, op = .random x b) ∧ m'.random = m.random.advance ∨
    (∀ x b, op ≠ .random x b) ∧ m'.random = m.random
  completed : m'.completed = m.completed + 1

variable {m : Machine}

/-! ### Registers -/

theorem register_setRegister_of_ne {x r : Register} (h : r ≠ x) (v : UInt8) :
    (m.setRegister x v).register r = m.register r :=
  Vector.getElem_set_ne x.isLt r.isLt fun hx => h (Fin.ext hx.symm)

theorem register_setWithFlag_of_ne {x r : Register} (h : r ≠ x) (hflag : r ≠ flag) (v : UInt8)
    (f : Bool) : (m.setWithFlag x v f).register r = m.register r := by
  unfold setWithFlag
  rw [register_setRegister_of_ne hflag, register_setRegister_of_ne h]

theorem get_filled (bytes : List UInt8) (r : Register) :
    (m.filled bytes).get r = bytes.getD r (m.register r) := by
  unfold filled
  exact Vector.getElem_ofFn r.isLt

theorem get_filled_of_length_le {bytes : List UInt8} {r : Register}
    (h : bytes.length ≤ (r : Nat)) : (m.filled bytes).get r = m.register r := by
  rw [get_filled, List.getD_eq_getElem?_getD, List.getElem?_eq_none h]
  rfl

/-- An operation changes no register but its targets. -/
theorem register_effect (op : Operation) {r : Register}
    (h : r ∉ op.targets m.keypad.sample.isSome) : (m.effect op).register r = m.register r := by
  cases op with
  | loadByte x b | addByte x b | copy x y | or x y | and x y | xor x y | random x b | loadDelay x
  | draw x y n => exact register_setRegister_of_ne (List.ne_of_not_mem_cons h) _
  | add x y | subtract x y | shiftRight x y | subtractFrom x y | shiftLeft x y =>
    obtain ⟨hx, hflag⟩ := List.ne_and_not_mem_of_not_mem_cons h
    exact register_setWithFlag_of_ne hx (List.ne_of_not_mem_cons hflag) _ _
  | waitKey x =>
    show (m.keypad.sample.elim m.registers fun key => m.registers.set x (UInt8.ofNat key)).get r =
      m.registers.get r
    cases hs : m.keypad.sample with
    | none => rfl
    | some key =>
      rw [hs] at h
      exact register_setRegister_of_ne (List.ne_of_not_mem_cons h) _
  | loadRegisters x =>
    refine get_filled_of_length_le ?_
    rw [Memory.length_bytes]
    by_contra hr
    refine h (List.mem_filter.2 ⟨List.mem_finRange r, ?_⟩)
    rw [decide_eq_true_eq, Fin.le_def]
    omega
  | _ => rfl

/-! ### Memory -/

/-- An operation changes no cell but those of the block that it stores. -/
theorem cells_effect (h0 : 0 ≤ m.index) (op : Operation) {k : Nat}
    (h : (m.effect op).memory.cells[k]? ≠ m.memory.cells[k]?) :
    (∃ x, op = .storeDigits x ∧ m.index ≤ k ∧ k ≤ m.index + 2) ∨
      ∃ x, op = .storeRegisters x ∧ m.index ≤ k ∧ k ≤ m.index + (x : Nat) := by
  cases op with
  | storeDigits x =>
    have hblock := mt (Memory.getElem?_cells_written m.memory m.index h0) h
    rw [not_not] at hblock
    have hlength : (decimalDigits (m.register x)).length = 3 := rfl
    refine .inl ⟨x, rfl, ?_⟩
    omega
  | storeRegisters x =>
    have hblock := mt (Memory.getElem?_cells_written m.memory m.index h0) h
    rw [not_not, List.length_take, Vector.length_toList] at hblock
    refine .inr ⟨x, rfl, ?_⟩
    omega
  | _ => exact absurd rfl h

/-! ### Steps -/

/-- An operation keeps to its footprint. -/
theorem footprint_effect (h0 : 0 ≤ m.index) (op : Operation) :
    Footprint op m { m.effect op with completed := m.completed + 1 } where
  registers r h := by
    by_contra hr
    exact h (register_effect op hr)
  index h := by
    cases op with
    | loadIndex a => exact .inl ⟨a, rfl⟩
    | addIndex x => exact .inr (.inl ⟨x, rfl⟩)
    | loadGlyph x => exact .inr (.inr ⟨x, rfl⟩)
    | _ => exact absurd rfl h
  cells k h := cells_effect h0 op h
  bank := by cases op <;> exact ⟨rfl, rfl⟩
  stack h := by
    cases op with
    | ret => exact .inl rfl
    | call a => exact .inr ⟨a, rfl⟩
    | _ => exact absurd rfl h
  delay h := by
    cases op with
    | setDelay x => exact ⟨x, rfl⟩
    | _ => exact absurd rfl h
  sound h := by
    cases op with
    | setSound x => exact ⟨x, rfl⟩
    | _ => exact absurd rfl h
  reload := by cases op <;> rfl
  screen h := by
    cases op with
    | clearScreen => exact .inl rfl
    | draw x y n => exact .inr ⟨x, y, n, rfl⟩
    | _ => exact absurd rfl h
  latch h := by
    cases op with
    | skipIfPressed x => exact .inl ⟨x, rfl⟩
    | skipUnlessPressed x => exact .inr (.inl ⟨x, rfl⟩)
    | waitKey x => exact .inr (.inr ⟨x, rfl⟩)
    | _ => exact absurd rfl h
  held := by
    have hrefresh : m.keypad.refresh.held = m.keypad.held ∧
        m.keypad.refresh.keymap = m.keypad.keymap := by
      unfold Keypad.refresh
      cases m.keypad.sample <;> exact ⟨rfl, rfl⟩
    cases op with
    | skipIfPressed x | skipUnlessPressed x | waitKey x => exact hrefresh
    | _ => exact ⟨rfl, rfl⟩
  awaitingKey h := by
    cases op with
    | waitKey x => exact ⟨x, rfl⟩
    | _ => exact absurd rfl h
  random := by
    cases op with
    | random x b => exact .inl ⟨⟨x, b, rfl⟩, rfl⟩
    | _ => exact .inr ⟨nofun, rfl⟩
  completed := rfl

/-- **A step that is completed performs the operation at the program counter and keeps to its
footprint.** -/
theorem Reachable.footprint {m m' : Machine} (hm : m.Reachable) (hf : m.fault = none)
    (h : step m = .ok () m') :
    ∃ op : Operation, Operation.ofOpcode? m.nextWord = some op ∧ Footprint op m m' := by
  have hm := hm.wellFormed
  have hends := step_ends hm.toIntact hm.pc.1 hf
  rw [h] at hends
  cases hends with
  | completed i hpc hi hg =>
    obtain ⟨hop, -⟩ := Instruction.of_decode?_eq_some hi
    obtain ⟨-, hcompleted, -⟩ := effect_bookkeeping (m.ready i) i.operation
    rw [hcompleted]
    have hfoot := footprint_effect (m := m.ready i) hm.index.1 i.operation
    exact ⟨i.operation, hop, { hfoot with }⟩

/-- A machine about to run `6A2A` completes it, and keeps to its footprint. -/
theorem footprint_of_constant :
    ∃ op m', step (standard [0x6A, 0x2A]) = .ok () m' ∧
      Operation.ofOpcode? (standard [0x6A, 0x2A]).nextWord = some op ∧
      Footprint op (standard [0x6A, 0x2A]) m' := by
  have hm := reachable_standard [0x6A, 0x2A] (by decide)
  have hi : Instruction.decode? (standard [0x6A, 0x2A]).nextWord =
      some ⟨.loadByte, 0x6A2A, 0xA2A, 10, 2, 10, 0x2A⟩ := by
    rw [nextWord_standard]
    rfl
  have h := step_of_not_refused hm.wellFormed.toIntact (by decide) rfl (by decide) hi rfl
  obtain ⟨op, hop, hfoot⟩ := hm.footprint rfl h
  exact ⟨op, _, h, hop, hfoot⟩

end Machine

end Chip8
