import Chip8.Proofs.Keypad.Sampling
import Chip8.Proofs.Machine.Reachable

/-!
# Where a machine goes on

The address of the instruction after the one that is run. While it runs, the program counter moves
forward once, then wherever the operation sends it, and back at a wait for a key, and it may wrap
around each time; no wrap is ever seen.

* `Machine.skips` tells whether an operation skips the next one, and `Machine.successor?` is the
  address at which a machine goes on;
* `pc_effect` says that each operation leads there, and `Intact.successor_of_step` that each step
  that is completed does;
* `Operation.Opposite` are the pairs of skips on opposite conditions, and `Attainable.goes_on` says
  what follows for them as well.
-/

namespace Chip8

namespace Operation

/-- The two bytes of the opcode, the high byte first. -/
def bytes (op : Operation) : List UInt8 := [UInt8.ofNat (op.encode / 256), UInt8.ofNat op.encode]

/-- Two skips on opposite conditions. The nibble that a comparison of registers ignores may be any
in either of them. -/
inductive Opposite : Operation → Operation → Prop
  | byte (x : Register) (b : UInt8) : Opposite (.skipIfByte x b) (.skipUnlessByte x b)
  | same (x y : Register) (n k : Fin 16) : Opposite (.skipIfSame x y n) (.skipUnlessSame x y k)
  | pressed (x : Register) : Opposite (.skipIfPressed x) (.skipUnlessPressed x)

end Operation

namespace Machine

/-- Some key is held, and the lowest of those held is the number in a register. -/
def LowestHeld (m : Machine) (x : Register) : Prop :=
  ∃ key : Key, m.keypad.held.get key = true ∧ (∀ j < key, m.keypad.held.get j = false) ∧
    (key : Int) = (m.register x).toNat

instance (m : Machine) (x : Register) : Decidable (m.LowestHeld x) :=
  inferInstanceAs (Decidable (∃ _ : Key, _ ∧ _ ∧ _))

/-- Whether an operation skips the next one. -/
def skips (m : Machine) : Operation → Bool
  | .skipIfByte x b => m.register x == b
  | .skipUnlessByte x b => m.register x != b
  | .skipIfSame x y _ => m.register x == m.register y
  | .skipUnlessSame x y _ => m.register x != m.register y
  | .skipIfPressed x => m.LowestHeld x
  | .skipUnlessPressed x => !m.LowestHeld x
  | _ => false

/-- Where a machine goes on after an operation, if that can be completed at all. -/
def successor? (m : Machine) : Operation → Option Int
  | .machineCode _ => none
  | .jump a | .call a => some a
  | .jumpOffset a => some (a + (m.register offset).toNat)
  | .ret => m.stack.returns.head?
  | .waitKey _ => some (if ∃ key : Key, m.keypad.held.get key = true then m.pc + 2 else m.pc)
  | op => some (if m.skips op then m.pc + 4 else m.pc + 2)

variable {m m' : Machine} {i : Instruction} {op op' : Operation}

/-! ### One operation -/

theorem skipTarget_ready (hpc : 0 ≤ m.pc ∧ m.pc ≤ 0xFFE) (c : Bool) :
    (m.ready i).skipTarget c = if c then m.pc + 4 else m.pc + 2 := by
  have hnext : (m.ready i).pc = m.pc + 2 := pc_fetched hpc
  simp only [skipTarget, hnext]
  split_ifs <;> omega

theorem waitTarget_ready (hpc : 0 ≤ m.pc ∧ m.pc ≤ 0xFFE) :
    (m.ready i).waitTarget =
      if ∃ key : Key, m.keypad.held.get key = true then m.pc + 2 else m.pc := by
  have hnext : (m.ready i).pc = m.pc + 2 := pc_fetched hpc
  have hheld : (m.ready i).keypad.sample.isSome = true ↔
      ∃ key : Key, m.keypad.held.get key = true := Keypad.isSome_sample_iff
  simp only [waitTarget, hnext, hheld]
  split_ifs <;> omega

/-- An operation that is not refused leads to its successor. -/
theorem pc_effect (hpc : 0 ≤ m.pc ∧ m.pc ≤ 0xFFE) (hi : (m.ready i).refusal? i = none) :
    m.successor? i.operation = some ((m.ready i).effect i.operation).pc := by
  have hnext : (m.ready i).pc = m.pc + 2 := pc_fetched hpc
  have hpressed : ∀ x, (m.ready i).keypad.refresh.isPressed ((m.ready i).register x).toNat =
      decide (m.LowestHeld x) := fun x => Bool.eq_iff_iff.2 <| by
    rw [decide_eq_true_iff]
    exact Keypad.isPressed_refresh_iff
  unfold refusal? at hi
  generalize i.operation = op at hi
  cases op with
  | machineCode a => cases hi
  | jump a | call a | jumpOffset a => rfl
  | ret =>
    cases hs : m.stack.returns with
    | nil =>
      have hempty : (m.ready i).stack.returns = [] := hs
      simp only [if_pos hempty] at hi
      cases hi
    | cons a returns =>
      show m.stack.returns.head? = some (m.stack.returns.headD 0)
      rw [hs]
      rfl
  | waitKey x => exact congrArg some (waitTarget_ready hpc).symm
  | skipIfByte x b | skipUnlessByte x b | skipIfSame x y n | skipUnlessSame x y n =>
    exact congrArg some (skipTarget_ready hpc _).symm
  | skipIfPressed x | skipUnlessPressed x =>
    refine Eq.trans ?_ (congrArg some (skipTarget_ready hpc _).symm)
    rw [hpressed]
    rfl
  | _ => exact congrArg some hnext.symm

theorem Intact.successor_of_step (hm : m.Intact) (h : Machine.step m = .ok () m') :
    ∃ op, Operation.ofOpcode? m.nextWord = some op ∧ m.successor? op = some m'.pc := by
  obtain ⟨-, hpc, i, hi, hg, rfl⟩ := hm.of_step_ok h
  exact ⟨i.operation, (Instruction.of_decode?_eq_some hi).1, pc_effect hpc hg⟩

/-! ### Skips on opposite conditions -/

/-- The same machine with another operation ahead of it. -/
def facing (m : Machine) (op : Operation) : Machine :=
  { m with memory := m.memory.written m.pc op.bytes }

theorem Intact.facing (hm : m.Intact) (op : Operation) : (m.facing op).Intact :=
  { hm with size_cells := (Memory.size_cells_written ..).trans hm.size_cells }

theorem Intact.nextIs_facing (hm : m.Intact) (hpc : 0 ≤ m.pc ∧ m.pc ≤ 0xFFE) (op : Operation) :
    (m.facing op).NextIs op := by
  have hencode := op.encode_lt
  have hsize := hm.size_cells
  have hlength : op.bytes.length = 2 := rfl
  have hhigh : (m.facing op).memory.byteAt (m.pc + 0) = UInt8.ofNat (op.encode / 256) :=
    m.memory.byteAt_written m.pc hpc.1 (show 0 < op.bytes.length by omega) (by omega)
  have hlow : (m.facing op).memory.byteAt (m.pc + 1) = UInt8.ofNat op.encode :=
    m.memory.byteAt_written m.pc hpc.1 (show 1 < op.bytes.length by omega) (by omega)
  refine ⟨hpc, ?_⟩
  show 256 * (((m.facing op).memory.byteAt m.pc).toNat : Int) +
    ((m.facing op).memory.byteAt (m.pc + 1)).toNat = op.encode
  rw [← Int.add_zero m.pc, hhigh, Int.add_zero, hlow, UInt8.toNat_ofNat', UInt8.toNat_ofNat']
  omega

theorem successor?_facing (m : Machine) (op op' : Operation) :
    (m.facing op).successor? op' = m.successor? op' := by
  cases op' <;> rfl

/-- A machine made to face an operation that is never refused goes on as that operation says. -/
theorem Intact.step_facing (hm : m.Intact) (hf : m.fault = none) (hpc : 0 ≤ m.pc ∧ m.pc ≤ 0xFFE)
    (hg : ∀ (n : Machine) w, n.refusal? (op.instruction w) = none) :
    ∃ m', Machine.step (m.facing op) = .ok () m' ∧ m.successor? op = some m'.pc := by
  have hnext := hm.nextIs_facing hpc op
  refine ⟨_, hnext.step_eq (ne_machineCode (hg m 0)) (hm.facing op) hf (hg _ _), ?_⟩
  have hsuccessor := pc_effect (m := m.facing op) hpc (hg _ (m.facing op).nextWord)
  rw [Operation.operation_instruction] at hsuccessor
  rw [← successor?_facing m op op, stepped_instruction]
  exact hsuccessor

theorem refusal?_of_opposite (h : op.Opposite op') (m : Machine) (w : Int) :
    m.refusal? (op.instruction w) = none ∧ m.refusal? (op'.instruction w) = none := by
  cases h with
  | byte x b | same x y n k | pressed x => exact ⟨rfl, rfl⟩

/-- Just one of two opposite skips skips. -/
theorem successor?_of_opposite (h : op.Opposite op') (m : Machine) :
    m.successor? op = some (m.pc + 4) ∧ m.successor? op' = some (m.pc + 2) ∨
      m.successor? op = some (m.pc + 2) ∧ m.successor? op' = some (m.pc + 4) := by
  have hskips : m.skips op = !m.skips op' := by
    cases h with
    | byte x b | same x y n k | pressed x => exact (Bool.not_not _).symm
  have htarget : m.successor? op = some (if m.skips op then m.pc + 4 else m.pc + 2) ∧
      m.successor? op' = some (if m.skips op' then m.pc + 4 else m.pc + 2) := by
    cases h with
    | byte x b | same x y n k | pressed x => exact ⟨rfl, rfl⟩
  rw [htarget.1, htarget.2, hskips]
  cases m.skips op' with
  | true => exact .inr ⟨rfl, rfl⟩
  | false => exact .inl ⟨rfl, rfl⟩

/-- **A step that is completed goes on at the successor of its operation**, and of two skips on
opposite conditions, run from the same state, just one skips. -/
theorem Attainable.goes_on (hm : m.Attainable) (hf : m.fault = none) :
    (∀ m', step m = .ok () m' →
      ∃ op, Operation.ofOpcode? m.nextWord = some op ∧ m.successor? op = some m'.pc) ∧
    ∀ op op', Operation.Opposite op op' → 0 ≤ m.pc ∧ m.pc ≤ 0xFFE →
      ∃ m₁ m₂, step (m.facing op) = .ok () m₁ ∧ step (m.facing op') = .ok () m₂ ∧
        (m₁.pc = m.pc + 4 ∧ m₂.pc = m.pc + 2 ∨ m₁.pc = m.pc + 2 ∧ m₂.pc = m.pc + 4) := by
  refine ⟨fun m' h => hm.intact.successor_of_step h, fun op op' h hpc => ?_⟩
  have hg := refusal?_of_opposite h
  obtain ⟨m₁, hstep, hpc₁⟩ := hm.intact.step_facing hf hpc fun n w => (hg n w).1
  obtain ⟨m₂, hstep', hpc₂⟩ := hm.intact.step_facing hf hpc fun n w => (hg n w).2
  refine ⟨m₁, m₂, hstep, hstep', ?_⟩
  simpa only [hpc₁, hpc₂, Option.some.injEq] using successor?_of_opposite h m

/-- A machine that asks for the key zero, while that key and a higher one are held. -/
def zeroHeld : Machine :=
  (Event.hold 0 true).after ((Event.hold 5 true).after (standard [0xE0, 0x9E]))

/-- The lowest key that is held counts: the machine skips, and would not on the opposite
condition. -/
theorem goes_on_of_zero_held :
    (∃ m', step zeroHeld = .ok () m' ∧ m'.pc = 0x204) ∧
      ∃ m₁ m₂, step (zeroHeld.facing (.skipIfPressed 0)) = .ok () m₁ ∧
        step (zeroHeld.facing (.skipUnlessPressed 0)) = .ok () m₂ ∧
        (m₁.pc = 0x204 ∧ m₂.pc = 0x202 ∨ m₁.pc = 0x202 ∧ m₂.pc = 0x204) := by
  have hm : zeroHeld.Attainable :=
    ((reachable_standard [0xE0, 0x9E] (by decide)).attainable.after _).after _
  obtain ⟨hgoes, hpairs⟩ := hm.goes_on rfl
  have hnext : zeroHeld.NextIs (.skipIfPressed 0) := ⟨by decide, nextWord_standard⟩
  have hstep := hnext.step_eq nofun hm.intact rfl rfl
  have hlowest : zeroHeld.LowestHeld 0 := ⟨0, rfl, fun j hj => absurd hj (Fin.not_lt_zero j), rfl⟩
  obtain ⟨op, hop, hpc⟩ := hgoes _ hstep
  have hdecoded : Operation.ofOpcode? (Operation.skipIfPressed 0).encode =
      some (.skipIfPressed 0) := Operation.ofOpcode?_encode nofun
  rw [hnext.2, hdecoded] at hop
  cases hop
  have htarget : zeroHeld.successor? (.skipIfPressed 0) = some 0x204 :=
    congrArg some (if_pos (decide_eq_true hlowest))
  rw [htarget] at hpc
  exact ⟨⟨_, hstep, (Option.some.inj hpc).symm⟩, hpairs _ _ (.pressed 0) (by decide)⟩

end Machine

end Chip8
