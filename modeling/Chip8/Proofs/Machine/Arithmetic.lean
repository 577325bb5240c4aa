import Chip8.Proofs.Machine.Footprint
import Mathlib.Logic.Function.Basic

/-!
# Arithmetic on registers

What the operations that calculate with registers put into them, as numbers, also where one register
is an operand, the target and the flag at the same time.

* `Machine.numbers` are the numbers in the registers;
* `Operation.calculation?` is what an operation calculates from them, and `Calculation.after` is
  what they are once the result and then the flag are stored;
* `numbers_effect` says that each operation calculates just that, and `Attainable.calculates` that
  each step does.
-/

namespace Chip8

/-- The outcome of an operation on registers: the register that receives the result, the result, and
the flag, if the operation sets it. -/
structure Calculation where
  target : Register
  result : Nat
  flag : Option Nat
  deriving DecidableEq

/-- The numbers in the registers after a calculation: the result is stored first, then the flag. -/
def Calculation.after (c : Calculation) (v : Register → Nat) : Register → Nat :=
  match c.flag with
  | none => Function.update v c.target c.result
  | some f => Function.update (Function.update v c.target c.result) Machine.flag f

/-- What an operation calculates from the numbers in the registers. -/
def Operation.calculation? (v : Register → Nat) : Operation → Option Calculation
  | .addByte x b => some ⟨x, (v x + b.toNat) % 256, none⟩
  | .copy x y => some ⟨x, v y, none⟩
  | .or x y => some ⟨x, v x ||| v y, none⟩
  | .and x y => some ⟨x, v x &&& v y, none⟩
  | .xor x y => some ⟨x, v x ^^^ v y, none⟩
  | .add x y => some ⟨x, (v x + v y) % 256, some (if 255 < v x + v y then 1 else 0)⟩
  | .subtract x y => some ⟨x, ((v x - v y : Int) % 256).toNat, some (if v y ≤ v x then 1 else 0)⟩
  | .shiftRight x _ => some ⟨x, v x / 2, some (v x % 2)⟩
  | .subtractFrom x y =>
    some ⟨x, ((v y - v x : Int) % 256).toNat, some (if v x ≤ v y then 1 else 0)⟩
  | .shiftLeft x _ => some ⟨x, 2 * v x % 256, some (v x / 128)⟩
  | _ => none

namespace Calculation

variable (c : Calculation) {v : Register → Nat}

/-- The target receives the result, unless the flag is stored there. -/
theorem after_target (h : c.flag = none ∨ c.target ≠ Machine.flag) :
    c.after v c.target = c.result := by
  obtain ⟨x, n, f⟩ := c
  cases f with
  | none => exact Function.update_self ..
  | some k =>
    have hx : x ≠ Machine.flag := h.resolve_left nofun
    show Function.update (Function.update v x n) Machine.flag k x = n
    rw [Function.update_of_ne hx, Function.update_self]

/-- Where neither the result nor the flag is stored, all is as it was. -/
theorem after_of_ne {r : Register} (h : r ≠ c.target) (hflag : c.flag = none ∨ r ≠ Machine.flag) :
    c.after v r = v r := by
  obtain ⟨x, n, f⟩ := c
  cases f with
  | none => exact Function.update_of_ne h ..
  | some k =>
    have hr : r ≠ Machine.flag := hflag.resolve_left nofun
    show Function.update (Function.update v x n) Machine.flag k r = v r
    rw [Function.update_of_ne hr, Function.update_of_ne h]

end Calculation

/-! ### Results in eight bits -/

theorem toNat_sub_eq_emod (a b : UInt8) :
    (a - b).toNat = ((a.toNat - b.toNat : Int) % 256).toNat := by
  have ha := a.toNat_lt
  have hb := b.toNat_lt
  rw [UInt8.toNat_sub]
  omega

theorem toNat_shiftRight_one (a : UInt8) : (a >>> 1).toNat = a.toNat / 2 := by
  rw [UInt8.toNat_shiftRight]
  exact Nat.shiftRight_eq_div_pow a.toNat 1

theorem toNat_shiftLeft_one (a : UInt8) : (a <<< 1).toNat = 2 * a.toNat % 256 := by
  rw [UInt8.toNat_shiftLeft, Nat.mul_comm]
  exact congrArg (· % 256) (Nat.shiftLeft_eq a.toNat 1)

namespace Machine

/-- The numbers in the registers. -/
def numbers (m : Machine) (r : Register) : Nat := (m.register r).toNat

variable {m : Machine} {op : Operation} {c : Calculation}

theorem numbers_setRegister (m : Machine) (x : Register) {b : UInt8} {n : Nat} (h : b.toNat = n) :
    (m.setRegister x b).numbers = (Calculation.mk x n none).after m.numbers := by
  funext r
  show _ = Function.update m.numbers x n r
  by_cases hr : r = x
  · subst hr
    rw [Function.update_self, ← h]
    exact congrArg UInt8.toNat (Vector.getElem_set_self r.isLt)
  · rw [Function.update_of_ne hr]
    exact congrArg UInt8.toNat (register_setRegister_of_ne hr b)

theorem numbers_setWithFlag (m : Machine) (x : Register) {b : UInt8} {f : Bool} {n k : Nat}
    (h : b.toNat = n) (hf : (if f then 1 else 0) = k) :
    (m.setWithFlag x b f).numbers = (Calculation.mk x n (some k)).after m.numbers := by
  have hflag : (if f then 1 else 0 : UInt8).toNat = k := by
    rw [← hf]
    cases f <;> rfl
  unfold setWithFlag
  rw [numbers_setRegister _ flag hflag]
  show Function.update (m.setRegister x b).numbers flag k = _
  rw [numbers_setRegister m x h]
  rfl

/-- An operation that calculates stores its result, and then its flag. -/
theorem numbers_effect (h : op.calculation? m.numbers = some c) :
    (m.effect op).numbers = c.after m.numbers := by
  cases op with
  | addByte x b =>
    cases h
    exact numbers_setRegister m x (UInt8.toNat_add ..)
  | copy x y =>
    cases h
    exact numbers_setRegister m x rfl
  | or x y =>
    cases h
    exact numbers_setRegister m x (UInt8.toNat_or ..)
  | and x y =>
    cases h
    exact numbers_setRegister m x (UInt8.toNat_and ..)
  | xor x y =>
    cases h
    exact numbers_setRegister m x (UInt8.toNat_xor ..)
  | add x y =>
    cases h
    refine numbers_setWithFlag m x (UInt8.toNat_add ..) ?_
    simp only [decide_eq_true_iff]
    rfl
  | subtract x y | subtractFrom x y =>
    cases h
    refine numbers_setWithFlag m x (toNat_sub_eq_emod ..) ?_
    simp only [decide_eq_true_iff, UInt8.le_iff_toNat_le]
    rfl
  | shiftRight x y =>
    cases h
    refine numbers_setWithFlag m x (toNat_shiftRight_one _) ?_
    have := Nat.mod_two_eq_zero_or_one (m.numbers x)
    simp only [decide_eq_true_iff]
    show (if m.numbers x % 2 = 1 then 1 else 0) = m.numbers x % 2
    split_ifs <;> omega
  | shiftLeft x y =>
    cases h
    refine numbers_setWithFlag m x (toNat_shiftLeft_one _) ?_
    have hx : m.numbers x < 256 := (m.register x).toNat_lt
    simp only [decide_eq_true_iff]
    show (if 128 ≤ m.numbers x then 1 else 0) = m.numbers x / 128
    split_ifs <;> omega
  | _ => cases h

/-! ### Steps -/

theorem refusal?_of_calculation {v : Register → Nat} (h : op.calculation? v = some c)
    (m : Machine) (w : Int) : m.refusal? (op.instruction w) = none := by
  cases op <;> first | rfl | cases h

/-- A step that calculates is completed, with the outcome in the registers. -/
theorem Intact.step_calculation (hm : m.Intact) (hf : m.fault = none) (hnext : m.NextIs op)
    (hc : op.calculation? m.numbers = some c) :
    ∃ m', Machine.step m = .ok () m' ∧ m'.numbers = c.after m.numbers := by
  have hg := refusal?_of_calculation hc
  refine ⟨_, hnext.step_eq (ne_machineCode (hg m 0)) hm hf (hg _ _), ?_⟩
  rw [stepped_instruction]
  exact numbers_effect (m := m.ready (op.instruction m.nextWord)) hc

/-- **An operation that calculates takes its operands from the registers as they were, stores the
result, and then the flag.** So the flag has the last word where it is the target as well, an
operation without a flag changes its target only, and all other registers are left alone. -/
theorem Attainable.calculates (hm : m.Attainable) (hf : m.fault = none) (hnext : m.NextIs op)
    (hc : op.calculation? m.numbers = some c) :
    ∃ m', step m = .ok () m' ∧ m'.numbers = c.after m.numbers ∧
      (∀ f, c.flag = some f → m'.numbers flag = f) ∧
      (c.flag = none ∨ c.target ≠ flag → m'.numbers c.target = c.result) ∧
      ∀ r, r ≠ c.target → c.flag = none ∨ r ≠ flag → m'.register r = m.register r := by
  obtain ⟨m', hstep, hnumbers⟩ := hm.intact.step_calculation hf hnext hc
  refine ⟨m', hstep, hnumbers, ?_, ?_, ?_⟩
  · intro f hflag
    simp only [hnumbers, Calculation.after, hflag, Function.update_self]
  · intro htarget
    rw [hnumbers]
    exact c.after_target htarget
  · intro r hr hflag
    have h := congrFun hnumbers r
    rw [c.after_of_ne hr hflag] at h
    exact UInt8.toNat_inj.1 h

/-- A program that puts 255 into the flag register and adds that register to itself. -/
def doublingProgram : List UInt8 := [0x6F, 0xFF, 0x8F, 0xF4]

/-- The carry is left in the flag register, and nothing of the sum. -/
theorem calculates_of_flag_doubled :
    ∃ m m', step (standard doublingProgram) = .ok () m ∧ m.numbers flag = 255 ∧
      step m = .ok () m' ∧ m'.numbers flag = 1 ∧ m'.register 0 = m.register 0 := by
  have h₀ := (reachable_standard doublingProgram (by decide)).attainable
  have hload : (standard doublingProgram).NextIs (.loadByte flag 0xFF) :=
    ⟨by decide, nextWord_standard⟩
  have hfirst := hload.step_eq nofun h₀.intact rfl rfl
  generalize hm : stepped _ _ = m at hfirst
  have hmemory : m.memory = (standard doublingProgram).memory := hm ▸ rfl
  have hpc : m.pc = 0x202 := hm ▸ rfl
  have hflag : m.numbers flag = 255 := by
    rw [← hm]
    exact congrArg UInt8.toNat (Vector.getElem_set_self flag.isLt)
  have hadd : m.NextIs (.add flag flag) :=
    ⟨hpc ▸ by decide, nextWord_of_standard (j := 2) hmemory hpc (by decide) (by decide)⟩
  obtain ⟨m', hstep, -, hcarry, -, hothers⟩ :=
    (h₀.of_step hfirst).calculates (hm ▸ rfl) hadd rfl
  have hzero : (0 : Register) ≠ flag := by decide
  refine ⟨m, m', hfirst, hflag, hstep, ?_, hothers 0 hzero (.inr hzero)⟩
  rw [hcarry _ rfl, hflag]
  rfl

end Machine

end Chip8
