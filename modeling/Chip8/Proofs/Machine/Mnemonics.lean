import Chip8.Proofs.Instruction.Assembly
import Chip8.Proofs.Machine.Reachable

/-!
# Instructions with the same mnemonic

A mnemonic tells all that an instruction does.

* `Machine.decoded` is the machine about to perform an instruction, and `execute_of_decode?` says
  that executing an opcode is performing its instruction there;
* `refusal?_eq_none_of_canonical_eq` and `effect_canonical` say that operations with the same
  mnemonic differ only in operands that play no part;
* `Attainable.execute_of_mnemonic_eq` says that opcodes with the same mnemonic are executed alike.
-/

namespace Chip8.Machine

variable {m : Machine}

/-- The machine that is about to perform `i`, whose opcode it was given. -/
def decoded (m : Machine) (i : Instruction) : Machine :=
  { m with
    opcode := some i.opcode
    instruction := some i
    trace :=
      if m.live then m.trace.push (line { m with opcode := some i.opcode } i.mnemonic)
      else m.trace }

theorem Intact.decoded (hm : m.Intact) (i : Instruction) : (m.decoded i).Intact := { hm with }

theorem execute_of_decode? (m : Machine) {w : Int} {i : Instruction}
    (hi : Instruction.decode? w = some i) : execute w m = perform i (m.decoded i) := by
  obtain ⟨-, rfl⟩ := Instruction.of_decode?_eq_some hi
  simp only [execute, Action.bind_apply, Action.modify_apply, hi]
  cases hl : m.live with
  | false => simp [Machine.decoded, hl]
  | true =>
    simp only [Machine.decoded, hl, if_true, Action.bind_apply, Action.modify_apply,
      Action.get_apply]
    rfl

/-! ### Ignored operands -/

theorem effect_canonical (m : Machine) (op : Operation) : m.effect op.canonical = m.effect op := by
  cases op <;> rfl

/-- An operation that ignores an operand is never refused. -/
theorem refusal?_of_ignoresOperand (m : Machine) {i : Instruction}
    (h : i.operation.ignoresOperand = true) : m.refusal? i = none := by
  unfold refusal?
  generalize i.operation = op at h
  cases op with
  | skipIfSame | skipUnlessSame | shiftRight | shiftLeft => rfl
  | _ => cases h

/-- Two instructions with the same mnemonic have the same effect, apart from the record of the
run. -/
theorem effect_decoded_of_canonical_eq (m : Machine) {i j : Instruction}
    (h : i.operation.canonical = j.operation.canonical) :
    (m.decoded j).effect j.operation = { (m.decoded i).effect i.operation with
      opcode := some j.opcode
      instruction := some j
      trace := (m.decoded j).trace } := by
  have hrecord : m.decoded j = (m.decoded i).withRecord (m.decoded j) := rfl
  obtain ⟨hfault, hcompleted, hbegun, -, -, hlive, -, -⟩ :=
    effect_bookkeeping (m.decoded i) j.operation
  rw [← effect_canonical _ i.operation, h, effect_canonical, hrecord, effect_withRecord]
  simp only [hfault, hcompleted, hbegun, hlive]
  rfl

/-! ### Execution -/

/-- Two words that have the same mnemonic are the same, or neither of them is refused. -/
theorem eq_or_not_refused (m : Machine) {a b : Int} (ha : Opcode.IsWord a) (hb : Opcode.IsWord b)
    {i j : Instruction} (hi : Instruction.decode? a = some i) (hj : Instruction.decode? b = some j)
    (h : i.operation.canonical = j.operation.canonical) :
    i = j ∨ (m.decoded i).refusal? i = none ∧ (m.decoded j).refusal? j = none := by
  obtain ⟨hopi, hwi⟩ := Instruction.of_decode?_eq_some hi
  obtain ⟨hopj, hwj⟩ := Instruction.of_decode?_eq_some hj
  rcases Operation.eq_or_ignoresOperand h with hop | ⟨hignoresi, hignoresj⟩
  · have hword : a = b := by
      rw [← Operation.encode_of_ofOpcode? ha hopi, hop, Operation.encode_of_ofOpcode? hb hopj]
    rw [hword, hj] at hi
    exact .inl (Option.some.inj hi).symm
  · exact .inr ⟨refusal?_of_ignoresOperand _ hignoresi, refusal?_of_ignoresOperand _ hignoresj⟩

/-- **A mnemonic tells the whole truth about an instruction.** Two opcodes with the same mnemonic
are both completed, in machines that differ in nothing but the record of what was executed, or they
end in the same fault in the same machine. -/
theorem Attainable.execute_of_mnemonic_eq (hm : m.Attainable) {a b : Int} (ha : Opcode.IsWord a)
    (hb : Opcode.IsWord b) {i j : Instruction} (hi : Instruction.decode a = .ok i)
    (hj : Instruction.decode b = .ok j) (h : i.mnemonic = j.mnemonic) :
    (∃ p t, execute a m = .ok () p ∧
      execute b m = .ok () { p with opcode := some b, instruction := some j, trace := t }) ∨
    ∃ f p, execute a m = .error (.fault f) p ∧ execute b m = .error (.fault f) p := by
  rw [Instruction.decode_eq_ok_iff] at hi hj
  have hcanonical := Operation.mnemonic_eq_iff.1 h
  have hopcode : j.opcode = b := (Instruction.of_decode?_eq_some hj).2
  have heffect := effect_decoded_of_canonical_eq m hcanonical
  have hsame := eq_or_not_refused m ha hb hi hj hcanonical
  rw [execute_of_decode? m hi, execute_of_decode? m hj, perform_eq (hm.intact.decoded i),
    perform_eq (hm.intact.decoded j), heffect, hopcode]
  cases hr : (m.decoded i).refusal? i with
  | none =>
    have hr' : (m.decoded j).refusal? j = none := by
      rcases hsame with rfl | ⟨-, hr'⟩
      · exact hr
      · exact hr'
    rw [hr']
    exact .inl ⟨_, _, rfl, rfl⟩
  | some f =>
    obtain rfl : i = j := hsame.resolve_right fun hnone => by
      rw [hr] at hnone
      cases hnone.1
    rw [hr]
    exact .inr ⟨f, _, rfl, rfl⟩

/-- The second operand of `8126` and `81F6` is not shown, and plays no part. -/
theorem execute_of_mnemonic_eq_shiftRight :
    (standard []).Attainable ∧
      Instruction.decode 0x8126 = .ok ⟨.shiftRight, 0x8126, 0x126, 1, 2, 6, 0x26⟩ ∧
      Instruction.decode 0x81F6 = .ok ⟨.shiftRight, 0x81F6, 0x1F6, 1, 15, 6, 0xF6⟩ ∧
      (Operation.shiftRight 1 2).mnemonic = (Operation.shiftRight 1 15).mnemonic ∧
      ∃ p t, execute 0x8126 (standard []) = .ok () p ∧
        execute 0x81F6 (standard []) = .ok () { p with
          opcode := some 0x81F6
          instruction := some ⟨.shiftRight, 0x81F6, 0x1F6, 1, 15, 6, 0xF6⟩
          trace := t } := by
  have hm := (reachable_standard [] (by decide)).attainable
  have hi : Instruction.decode 0x8126 = .ok ⟨.shiftRight, 0x8126, 0x126, 1, 2, 6, 0x26⟩ := rfl
  have hj : Instruction.decode 0x81F6 = .ok ⟨.shiftRight, 0x81F6, 0x1F6, 1, 15, 6, 0xF6⟩ := rfl
  refine ⟨hm, hi, hj, rfl, ?_⟩
  rcases hm.execute_of_mnemonic_eq (by decide) (by decide) hi hj rfl with h | ⟨f, p, herror, -⟩
  · exact h
  · rw [execute_of_decode? _ (Instruction.decode_eq_ok_iff.1 hi),
      perform_eq (hm.intact.decoded _)] at herror
    cases herror

end Chip8.Machine
