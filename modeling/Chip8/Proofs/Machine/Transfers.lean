import Chip8.Proofs.Machine.Footprint

/-!
# From registers to memory and back

The operations that move a block between the registers and the place in memory to which the index
register points. None of them moves the index register, so that a block that is stored can be loaded
from where it is.

* `Machine.HasRoom` says that a block may be stored there;
* `step_storeRegisters`, `step_loadRegisters` and `step_storeDigits` complete the operations,
  `register_loaded` and `block_loaded` are the registers that are loaded;
* `Attainable.transfers_invert` says that a load gets back what was stored, that a store puts back
  what was loaded, and that the three decimal digits of a byte add up to it.
-/

namespace Chip8.Machine

variable {m : Machine} {x y r : Register}

/-- There is room for `size` bytes where the index register points: in memory, and above the part
that is protected. -/
def HasRoom (m : Machine) (size : Int) : Prop := 80 ≤ m.index ∧ m.index + size ≤ 0x1000

theorem HasRoom.of_index_eq {n : Machine} {size : Int} (h : m.HasRoom size)
    (hindex : n.index = m.index) : n.HasRoom size := by
  rw [HasRoom, hindex]
  exact h

/-! ### Decimal digits -/

theorem digits_le_nine (b : UInt8) :
    (b / 100).toNat ≤ 9 ∧ (b / 10 % 10).toNat ≤ 9 ∧ (b % 10).toNat ≤ 9 := by
  have hb := b.toNat_lt
  simp only [UInt8.toNat_div, UInt8.toNat_mod, UInt8.reduceToNat]
  omega

theorem digits_sum (b : UInt8) :
    100 * (b / 100).toNat + 10 * (b / 10 % 10).toNat + (b % 10).toNat = b.toNat := by
  simp only [UInt8.toNat_div, UInt8.toNat_mod, UInt8.reduceToNat]
  omega

/-! ### The block of registers -/

/-- The registers from the first one up to `x`. -/
def block (m : Machine) (x : Register) : List UInt8 := m.registers.toList.take (x + 1)

theorem length_block (m : Machine) (x : Register) : (m.block x).length = x + 1 := by
  rw [block, List.length_take, Vector.length_toList]
  omega

theorem getElem?_block (m : Machine) (x r : Register) :
    (m.block x)[(r : Nat)]? = if r ≤ x then some (m.register r) else none := by
  split_ifs with hr <;> rw [Fin.le_def] at hr
  · have hlt : (r : Nat) < m.registers.toList.length := by
      rw [Vector.length_toList]
      exact r.isLt
    rw [block, List.getElem?_take_of_lt (by omega), List.getElem?_eq_getElem hlt,
      Vector.getElem_toList]
    rfl
  · exact List.getElem?_eq_none (by rw [length_block]; omega)

/-! ### Steps -/

theorem HasRoom.readRefusal? {size : Int} (h : m.HasRoom size) (hm : m.Intact) :
    m.memory.readRefusal? m.index size = none := by
  obtain ⟨hlow, hhigh⟩ := h
  rw [Memory.readRefusal?_eq_none_iff, Memory.InRange, Memory.top, hm.size_memory]
  omega

theorem HasRoom.writeRefusal? {size : Int} (h : m.HasRoom size) (hm : m.Intact) :
    m.memory.writeRefusal? m.index size = none := by
  have hrange := Memory.readRefusal?_eq_none_iff.1 (h.readRefusal? hm)
  rw [Memory.writeRefusal?_eq_none_iff, Memory.Writable, hm.protectedTop]
  exact ⟨hrange, h.1⟩

theorem step_storeRegisters (hm : m.Intact) (hf : m.fault = none)
    (hnext : m.NextIs (.storeRegisters x)) (hroom : m.HasRoom (x + 1)) :
    step m = .ok () (m.stepped ((Operation.storeRegisters x).instruction m.nextWord)) :=
  hnext.step_eq nofun hm hf (Option.map_eq_none_iff.2 (hroom.writeRefusal? hm))

theorem step_loadRegisters (hm : m.Intact) (hf : m.fault = none)
    (hnext : m.NextIs (.loadRegisters x)) (hroom : m.HasRoom (x + 1)) :
    step m = .ok () (m.stepped ((Operation.loadRegisters x).instruction m.nextWord)) :=
  hnext.step_eq nofun hm hf (Option.map_eq_none_iff.2 (hroom.readRefusal? hm))

theorem step_storeDigits (hm : m.Intact) (hf : m.fault = none)
    (hnext : m.NextIs (.storeDigits y)) (hroom : m.HasRoom 3) :
    step m = .ok () (m.stepped ((Operation.storeDigits y).instruction m.nextWord)) :=
  hnext.step_eq nofun hm hf (Option.map_eq_none_iff.2 (hroom.writeRefusal? hm))

/-- An operation that moves neither the program counter nor the index register goes on with the next
instruction. -/
theorem Attainable.goes_straight_on {m' : Machine} {op : Operation} (hm : m.Attainable)
    (hf : m.fault = none) (h : m.NextIs op) (hop : ∀ a, op ≠ .machineCode a)
    (hsame : ∀ n : Machine, (n.effect op).pc = n.pc ∧ (n.effect op).index = n.index)
    (hstep : step m = .ok () m') :
    m'.Attainable ∧ m'.fault = none ∧ m'.pc = m.pc + 2 ∧ m'.index = m.index := by
  refine ⟨hm.of_step hstep, ?_⟩
  rw [h.eq_stepped hop hm.intact hstep]
  refine ⟨(fault_stepped ..).trans hf, ?_⟩
  rw [stepped_instruction]
  obtain ⟨hpc, hindex⟩ := hsame (m.ready (op.instruction m.nextWord))
  exact ⟨hpc.trans (pc_fetched h.1), hindex⟩

/-! ### Two transfers one after the other -/

theorem register_loaded (m : Machine) (w : Int) (x r : Register) :
    (m.stepped ((Operation.loadRegisters x).instruction w)).register r =
      (m.memory.bytes m.index (x + 1)).getD r (m.register r) :=
  get_filled (m := m.ready ((Operation.loadRegisters x).instruction w)) _ r

/-- The registers that a load fills are the block that was loaded. -/
theorem block_loaded (m : Machine) (w : Int) (x : Register) :
    (m.stepped ((Operation.loadRegisters x).instruction w)).block x =
      m.memory.bytes m.index (x + 1) := by
  let i := (Operation.loadRegisters x).instruction w
  have hlength := m.memory.length_bytes m.index (x + 1)
  refine List.ext_getElem ((length_block ..).trans hlength.symm) fun j hj hj' => ?_
  have hx : j ≤ x := by omega
  have hblock := getElem?_block (m.stepped i) x ⟨j, by omega⟩
  rw [if_pos (Fin.le_def.2 hx), register_loaded, List.getD_eq_getElem?_getD,
    List.getElem?_eq_getElem hj'] at hblock
  exact (List.getElem_eq_iff _).2 hblock

/-- A store puts the bytes back that were loaded from its place. -/
theorem written_of_loaded (hm : m.Intact) (hroom : m.HasRoom (x + 1)) (w : Int) :
    m.memory.written m.index ((m.stepped ((Operation.loadRegisters x).instruction w)).block x) =
      m.memory := by
  obtain ⟨hlow, hhigh⟩ := hroom
  rw [block_loaded]
  refine m.memory.written_bytes m.index (by omega) ?_
  rw [hm.size_cells]
  omega

/-- What is loaded from where a block was stored is that block. -/
theorem register_of_written {n : Machine} {bytes : List UInt8} (hm : m.Intact)
    (hroom : m.HasRoom (x + 1)) (hlength : bytes.length = x + 1) (hindex : n.index = m.index)
    (hmemory : n.memory = m.memory.written m.index bytes) (w : Int) (r : Register) :
    (n.stepped ((Operation.loadRegisters x).instruction w)).register r =
      bytes.getD r (n.register r) := by
  obtain ⟨hlow, hhigh⟩ := hroom
  have hsize : m.index + bytes.length ≤ m.memory.cells.size := by
    rw [hm.size_cells, hlength]
    exact hhigh
  rw [register_loaded, hindex, hmemory, ← hlength, Memory.bytes_written _ _ (by omega) hsize]

/-- Registers that are stored are loaded again, however they have changed. -/
theorem Attainable.load_of_store (hm : m.Attainable) (hf : m.fault = none)
    (hnext : m.NextIs (.storeRegisters x)) (hroom : m.HasRoom (x + 1)) :
    ∃ m₁, step m = .ok () m₁ ∧ m₁.index = m.index ∧
      ∀ n : Machine, n.Intact → n.fault = none → n.NextIs (.loadRegisters x) →
        n.index = m₁.index → n.memory = m₁.memory →
        ∃ n₁, step n = .ok () n₁ ∧ n₁.index = m.index ∧
          ∀ r, n₁.register r = if r ≤ x then m.register r else n.register r := by
  have hstep := step_storeRegisters hm.intact hf hnext hroom
  refine ⟨_, hstep, rfl, fun n hn hf' hnext' hindex hmemory => ?_⟩
  have hroom' := hroom.of_index_eq hindex
  refine ⟨_, step_loadRegisters hn hf' hnext' hroom', hindex, fun r => ?_⟩
  rw [register_of_written hm.intact hroom (m.length_block x) hindex hmemory,
    List.getD_eq_getElem?_getD, getElem?_block]
  split_ifs <;> rfl

/-- A store of registers that were just loaded from its place changes nothing in memory. -/
theorem Attainable.store_of_load (hm : m.Attainable) (hf : m.fault = none)
    (hnext : m.NextIs (.loadRegisters x)) (hroom : m.HasRoom (x + 1)) :
    ∃ m₁, step m = .ok () m₁ ∧
      (m₁.NextIs (.storeRegisters x) → ∃ m₂, step m₁ = .ok () m₂ ∧ m₂.memory = m.memory) := by
  have hstep := step_loadRegisters hm.intact hf hnext hroom
  refine ⟨_, hstep, fun hnext' => ?_⟩
  have hm₁ := (hm.of_step hstep).intact
  have hf₁ := (fault_stepped m ((Operation.loadRegisters x).instruction m.nextWord)).trans hf
  exact ⟨_, step_storeRegisters hm₁ hf₁ hnext' hroom, written_of_loaded hm.intact hroom _⟩

/-- The digits of a byte, stored and then loaded, spell it, and no other part of memory changes. -/
theorem Attainable.load_of_digits (hm : m.Attainable) (hf : m.fault = none)
    (hnext : m.NextIs (.storeDigits y)) (hroom : m.HasRoom 3) :
    ∃ m₁, step m = .ok () m₁ ∧
      (m₁.NextIs (.loadRegisters 2) →
        ∃ m₂, step m₁ = .ok () m₂ ∧
          ((m₂.register 0).toNat ≤ 9 ∧ (m₂.register 1).toNat ≤ 9 ∧ (m₂.register 2).toNat ≤ 9) ∧
          100 * (m₂.register 0).toNat + 10 * (m₂.register 1).toNat + (m₂.register 2).toNat =
            (m.register y).toNat ∧
          ∀ k : Nat, ¬ (m.index ≤ k ∧ k ≤ m.index + 2) →
            m₂.memory.cells[k]? = m.memory.cells[k]?) := by
  have hstep := step_storeDigits hm.intact hf hnext hroom
  have hm₁ := (hm.of_step hstep).intact
  have hf₁ := (fault_stepped m ((Operation.storeDigits y).instruction m.nextWord)).trans hf
  have hindex : (m.stepped ((Operation.storeDigits y).instruction m.nextWord)).index =
      m.index := rfl
  have hmemory : (m.stepped ((Operation.storeDigits y).instruction m.nextWord)).memory =
      m.memory.written m.index (decimalDigits (m.register y)) := rfl
  have hlength : (decimalDigits (m.register y)).length = 3 := rfl
  generalize m.stepped ((Operation.storeDigits y).instruction m.nextWord) = m₁
    at hstep hm₁ hf₁ hindex hmemory
  refine ⟨m₁, hstep, fun hnext' => ?_⟩
  have hroom' := hroom.of_index_eq hindex
  have hdigits := register_of_written (x := 2) hm.intact hroom hlength hindex hmemory m₁.nextWord
  refine ⟨_, step_loadRegisters hm₁ hf₁ hnext' hroom', ?_, ?_, fun k hk => ?_⟩
  · rw [hdigits 0, hdigits 1, hdigits 2]
    exact digits_le_nine (m.register y)
  · rw [hdigits 0, hdigits 1, hdigits 2]
    exact digits_sum (m.register y)
  · show m₁.memory.cells[k]? = m.memory.cells[k]?
    rw [hmemory]
    exact Memory.getElem?_cells_written m.memory m.index hm.intact.index.1 (by omega)

/-- **Loads and stores of the same registers at the same place undo each other.** What was stored is
loaded again, whatever the registers have come to hold since, and no register beyond the last one is
touched; what was loaded and is stored again leaves memory as it was; and the digits of a byte, once
loaded, spell it. -/
theorem Attainable.transfers_invert (hm : m.Attainable) (hf : m.fault = none) :
    (∀ x, m.NextIs (.storeRegisters x) → m.HasRoom (x + 1) →
      ∃ m₁, step m = .ok () m₁ ∧ m₁.index = m.index ∧
        ∀ n : Machine, n.Intact → n.fault = none → n.NextIs (.loadRegisters x) →
          n.index = m₁.index → n.memory = m₁.memory →
          ∃ n₁, step n = .ok () n₁ ∧ n₁.index = m.index ∧
            ∀ r, n₁.register r = if r ≤ x then m.register r else n.register r) ∧
    (∀ x, m.NextIs (.loadRegisters x) → m.HasRoom (x + 1) →
      ∃ m₁, step m = .ok () m₁ ∧
        (m₁.NextIs (.storeRegisters x) → ∃ m₂, step m₁ = .ok () m₂ ∧ m₂.memory = m.memory)) ∧
    ∀ y, m.NextIs (.storeDigits y) → m.HasRoom 3 →
      ∃ m₁, step m = .ok () m₁ ∧
        (m₁.NextIs (.loadRegisters 2) →
          ∃ m₂, step m₁ = .ok () m₂ ∧
            ((m₂.register 0).toNat ≤ 9 ∧ (m₂.register 1).toNat ≤ 9 ∧ (m₂.register 2).toNat ≤ 9) ∧
            100 * (m₂.register 0).toNat + 10 * (m₂.register 1).toNat + (m₂.register 2).toNat =
              (m.register y).toNat ∧
            ∀ k : Nat, ¬ (m.index ≤ k ∧ k ≤ m.index + 2) →
              m₂.memory.cells[k]? = m.memory.cells[k]?) :=
  ⟨fun _ hnext hroom => hm.load_of_store hf hnext hroom,
    fun _ hnext hroom => hm.store_of_load hf hnext hroom,
    fun _ hnext hroom => hm.load_of_digits hf hnext hroom⟩

/-- A program that stores the digits of 156 at `0x300`, loads them, stores them and loads them once
more. -/
def digitsProgram : List UInt8 :=
  [0xA3, 0x00, 0x60, 0x9C, 0xF0, 0x33, 0xF2, 0x65, 0xF2, 0x55, 0xF2, 0x65]

/-- The program is ahead as long as nothing is written but a block at `0x300`. -/
theorem nextIs_of_digitsProgram {block : List UInt8} {j : Nat} {op : Operation}
    (hmemory : m.memory = (standard digitsProgram).memory.written 0x300 block)
    (hpc : m.pc = 0x200 + j) (hj : j + 1 < digitsProgram.length)
    (hop : 256 * digitsProgram[j].toNat + digitsProgram[j + 1].toNat = op.encode) :
    m.NextIs op := by
  have hlength : digitsProgram.length = 12 := rfl
  have hnext : m.pc + 1 = 0x200 + (j + 1 : Nat) := by omega
  refine ⟨by omega, ?_⟩
  unfold nextWord
  rw [hnext, hpc, hmemory, Memory.byteAt_written_of_not_mem _ _ (by decide) (by omega) (by omega),
    Memory.byteAt_written_of_not_mem _ _ (by decide) (by omega) (by omega),
    byteAt_standard (by omega) (by omega), byteAt_standard hj (by omega), ← hop]
  rfl

/-- The first two instructions set the index register and the byte. -/
theorem steps_digitsProgram :
    ∃ m, steps 2 (standard digitsProgram) = .ok () m ∧ m.Attainable ∧ m.fault = none ∧
      m.pc = 0x204 ∧ m.HasRoom 3 ∧ m.register 0 = 156 ∧ m.index = 0x300 ∧
      m.memory = (standard digitsProgram).memory := by
  have h₀ := (reachable_standard digitsProgram (by decide)).attainable
  have hnext : (standard digitsProgram).NextIs (.loadIndex 0x300) := ⟨by decide, nextWord_standard⟩
  have hstep := hnext.step_eq nofun h₀.intact rfl rfl
  have h₁ := h₀.of_step hstep
  generalize hm₁ : stepped _ _ = m₁ at hstep h₁
  have hmemory : m₁.memory = (standard digitsProgram).memory := hm₁ ▸ rfl
  have hpc : m₁.pc = 0x200 + (2 : Nat) := hm₁ ▸ rfl
  have hnext' : m₁.NextIs (.loadByte 0 0x9C) :=
    ⟨hpc ▸ by decide, nextWord_of_standard hmemory hpc (by decide) (by decide)⟩
  have hstep' := hnext'.step_eq nofun h₁.intact (hm₁ ▸ rfl) rfl
  refine ⟨_, ?_, h₁.of_step hstep', hm₁ ▸ rfl, hm₁ ▸ rfl, ?_, Vector.getElem_set_self _,
    hm₁ ▸ rfl, hm₁ ▸ rfl⟩
  · simp only [steps, hstep, hstep']
    rfl
  · exact hm₁ ▸ ⟨by decide, by decide⟩

/-- The digits 1, 5 and 6 are in the registers after each of the two loads. -/
theorem transfers_invert_of_digits :
    ∃ m m₁ m₂ m₃ m₄ : Machine, steps 2 (standard digitsProgram) = .ok () m ∧
      m.register 0 = 156 ∧ step m = .ok () m₁ ∧
      step m₁ = .ok () m₂ ∧ (m₂.register 0 = 1 ∧ m₂.register 1 = 5 ∧ m₂.register 2 = 6) ∧
      step m₂ = .ok () m₃ ∧ m₃.memory = m₁.memory ∧
      step m₃ = .ok () m₄ ∧ (m₄.register 0 = 1 ∧ m₄.register 1 = 5 ∧ m₄.register 2 = 6) := by
  obtain ⟨m, hrun, hm, hf, hpc, hroom, hbyte, hindex, hmemory⟩ := steps_digitsProgram
  -- The digits are stored and loaded.
  have hnext : m.NextIs (.storeDigits 0) :=
    ⟨hpc ▸ by decide, nextWord_of_standard (j := 4) hmemory hpc (by decide) (by decide)⟩
  obtain ⟨m₁, hstep, hload⟩ := (hm.transfers_invert hf).2.2 0 hnext hroom
  obtain ⟨hm₁, hf₁, hpc₁, hindex₁⟩ := hm.goes_straight_on hf hnext nofun (fun _ => ⟨rfl, rfl⟩) hstep
  have hmemory₁ : m₁.memory =
      (standard digitsProgram).memory.written 0x300 (decimalDigits (m.register 0)) := by
    rw [← hmemory, ← hindex, hnext.eq_stepped nofun hm.intact hstep]
    rfl
  rw [hpc] at hpc₁
  have hnext₁ : m₁.NextIs (.loadRegisters 2) :=
    nextIs_of_digitsProgram (j := 6) hmemory₁ hpc₁ (by decide) rfl
  obtain ⟨m₂, hstep₁, hnine, hsum, -⟩ := hload hnext₁
  have hspelled : m₂.register 0 = 1 ∧ m₂.register 1 = 5 ∧ m₂.register 2 = 6 := by
    rw [hbyte] at hsum
    change _ = 156 at hsum
    exact ⟨UInt8.toNat_inj.1 (show _ = 1 by omega), UInt8.toNat_inj.1 (show _ = 5 by omega),
      UInt8.toNat_inj.1 (show _ = 6 by omega)⟩
  -- They are stored again, which changes nothing.
  obtain ⟨hm₂, hf₂, hpc₂, hindex₂⟩ :=
    hm₁.goes_straight_on hf₁ hnext₁ nofun (fun _ => ⟨rfl, rfl⟩) hstep₁
  have hmemory₂ : m₂.memory = m₁.memory := by
    rw [hnext₁.eq_stepped nofun hm₁.intact hstep₁]
    rfl
  rw [hpc₁] at hpc₂
  have hnext₂ : m₂.NextIs (.storeRegisters 2) :=
    nextIs_of_digitsProgram (j := 8) (hmemory₂.trans hmemory₁) hpc₂ (by decide) rfl
  have hroom₁ := hroom.of_index_eq hindex₁
  obtain ⟨n, hn, hstored⟩ := (hm₁.transfers_invert hf₁).2.1 2 hnext₁ hroom₁
  rw [hstep₁] at hn
  cases hn
  obtain ⟨m₃, hstep₂, hmemory₃⟩ := hstored hnext₂
  -- They are loaded once more.
  obtain ⟨hm₃, hf₃, hpc₃, hindex₃⟩ :=
    hm₂.goes_straight_on hf₂ hnext₂ nofun (fun _ => ⟨rfl, rfl⟩) hstep₂
  rw [hpc₂] at hpc₃
  have hnext₃ : m₃.NextIs (.loadRegisters 2) :=
    nextIs_of_digitsProgram (j := 10) (hmemory₃.trans hmemory₁) hpc₃ (by decide) rfl
  have hroom₂ := hroom₁.of_index_eq hindex₂
  obtain ⟨n, hn, -, hagain⟩ := (hm₂.transfers_invert hf₂).1 2 hnext₂ hroom₂
  rw [hstep₂] at hn
  cases hn
  obtain ⟨m₄, hstep₃, -, hregister⟩ := hagain m₃ hm₃.intact hf₃ hnext₃ rfl rfl
  refine ⟨m, m₁, m₂, m₃, m₄, hrun, hbyte, hstep, hstep₁, hspelled, hstep₂, hmemory₃, hstep₃, ?_⟩
  rw [hregister 0, hregister 1, hregister 2, if_pos (by decide), if_pos (by decide),
    if_pos (by decide)]
  exact hspelled

end Chip8.Machine
