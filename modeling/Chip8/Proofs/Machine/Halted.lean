import Chip8.Proofs.Machine.Faults

/-!
# Halted machines

What a fault says about the machine that it halted, and how long it lasts.

* `Ends.report` says that a fault at an opcode which cannot be run shows the machine as it is left;
* `Machine.Intervention` is what a host can do to a machine without resetting it;
* `fault_afterAll` says that no intervention takes a fault back, and `Reachable.fault_lasts` that
  every step and every frame from then on ends in that fault and changes nothing.
-/

namespace Chip8.Machine

variable {m m' : Machine} {f : Fault}

/-! ### What a fault says -/

/-- A fault names the instruction that was begun, as far as it could be fetched. -/
theorem Ends.place (h : Ends m (.error (.fault f) m')) :
    f.address = some m.pc ∧ f.opcode = if 0xFFE < m.pc then none else some m.nextWord := by
  cases h with
  | unfetched f hpc hf =>
    subst hf
    exact ⟨rfl, (if_pos hpc).symm⟩
  | undecoded f hpc hw hf =>
    subst hf
    exact ⟨rfl, (if_neg (by omega)).symm⟩
  | refused f g i hpc hi hg hf =>
    obtain ⟨-, hword⟩ := Instruction.of_decode?_eq_some hi
    obtain ⟨haddress, hopcode⟩ := attach_refusal hg
    subst hf
    rw [← hword]
    exact ⟨haddress, hopcode.trans (if_neg (by omega)).symm⟩

/-- A fault at an opcode that cannot be run is a report on the machine as the fault leaves it. -/
theorem Ends.report (hm : m.Intact) (h : Ends m (.error (.fault f) m'))
    (hk : f.kind = .unimplementedInstruction) :
    m.pc ≤ 0xFFE ∧ ∃ reason,
      f.cause = .unsupported reason m.nextWord m.pc (m'.dump unknownInstruction) := by
  cases h with
  | unfetched f hpc hf =>
    subst hf
    cases hk
  | undecoded f hpc hw hf =>
    subst hf
    exact ⟨hpc, .notAnInstruction, rfl⟩
  | refused f g i hpc hi hg hf =>
    subst hf
    rw [Fault.kind_attach] at hk
    obtain ⟨-, hword⟩ := Instruction.of_decode?_eq_some hi
    -- Of all operations that may be refused, only a call of native code is so in this way.
    have hrefuses : m.Refuses i.operation .unimplementedInstruction :=
      (hm.refuses_iff i).2 ⟨g, hg, hk⟩
    obtain ⟨a, ha⟩ : ∃ a, i.operation = .machineCode a := by
      generalize i.operation = op at hrefuses
      cases hrefuses
      exact ⟨_, rfl⟩
    rw [refusal?, ha] at hg
    cases hg
    rw [← hword]
    exact ⟨hpc, .nativeRoutine, rfl⟩

/-! ### How long a fault lasts -/

/-- What a host can do to a machine without resetting it: run it on, or do anything to its keypad,
its memory or its stack. -/
inductive Intervention
  | step
  | frame
  | onKeypad (a : Action Keypad Unit)
  | onMemory (a : Action Memory Unit)
  | onStack (a : Action CallStack Unit)

namespace Intervention

/-- What an intervention does to a machine. -/
def action : Intervention → Action Machine Unit
  | .step => Machine.step
  | .frame => Machine.frame
  | .onKeypad a => Machine.onKeypad a
  | .onMemory a => Machine.onMemory a
  | .onStack a => Machine.onStack a

/-- The machine after interventions one after the other, whether they are completed or fail. -/
def afterAll (acts : List Intervention) (m : Machine) : Machine :=
  acts.foldl (fun m i => Action.state (i.action m)) m

/-- A machine that is halted stays so under an intervention. -/
theorem fault_action (hf : m.fault = some f) (i : Intervention) :
    (Action.state (i.action m)).fault = some f := by
  cases i with
  | step =>
    show (Action.state (Machine.step m)).fault = some f
    rw [step_of_halted hf]
    exact hf
  | frame =>
    show (Action.state (Machine.frame m)).fault = some f
    rw [frame_of_halted hf]
    exact hf
  | onKeypad a =>
    show (Action.state (Machine.onKeypad a m)).fault = some f
    unfold Machine.onKeypad
    cases a m.keypad <;> exact hf
  | onMemory a =>
    show (Action.state (Machine.onMemory a m)).fault = some f
    rw [onMemory_apply]
    cases a m.memory <;> exact hf
  | onStack a =>
    show (Action.state (Machine.onStack a m)).fault = some f
    rw [onStack_apply]
    cases a m.stack <;> exact hf

/-- A machine that is halted stays so under any number of interventions. -/
theorem fault_afterAll (hf : m.fault = some f) (acts : List Intervention) :
    (afterAll acts m).fault = some f := by
  induction acts generalizing m with
  | nil => exact hf
  | cons i acts ih => exact ih (fault_action hf i)

end Intervention

/-- **A fault tells where and why a machine was halted, and it lasts.** Whatever a host does to the
machine, each step and each frame ends in the same fault again and leaves the machine as it is. -/
theorem Reachable.fault_lasts {m m' : Machine} {f : Fault} (hm : m.Reachable)
    (hf : m.fault = none) (h : step m = .error (.fault f) m') :
    f.address = some m.pc ∧
      (f.opcode = none ↔ 0xFFE < m.pc) ∧
      (m.pc ≤ 0xFFE → f.opcode =
        some (256 * (m.memory.byteAt m.pc).toNat + (m.memory.byteAt (m.pc + 1)).toNat)) ∧
      (f.kind = .unimplementedInstruction → ∃ reason : Unsupported,
        f.cause.text = "Emulation halted.\n\n" ++ appIntro ++ "Debug info:\n" ++ m'.dump "???" ++
            "\n\nOpcode 0x" ++ Text.hex 4 m.nextWord ++ " at address 0x" ++ Text.hex 3 m.pc ++
            " " ++ reason.text ++ "." ∧
          f.message = f.cause.text ++ " (opcode 0x" ++ Text.hex 4 m.nextWord ++
            " at address 0x" ++ Text.hex 3 m.pc ++ ")") ∧
      ∀ acts : List Intervention,
        step (Intervention.afterAll acts m') =
            .error (.fault f) (Intervention.afterAll acts m') ∧
          frame (Intervention.afterAll acts m') =
            .error (.fault f) (Intervention.afterAll acts m') := by
  have hm := hm.wellFormed
  have hends := step_ends hm.toIntact hm.pc.1 hf
  rw [h] at hends
  obtain ⟨haddress, hopcode⟩ := hends.place
  have hfault : m'.fault = some f := by
    obtain ⟨g, hg, hm'⟩ := hm.toIntact.of_step_error h
    cases hg
    rw [hm']
  refine ⟨haddress, ?_, fun hpc => ?_, fun hk => ?_, fun acts => ?_⟩
  · rw [hopcode]
    split_ifs with hpc <;> simp [hpc]
  · rw [hopcode, if_neg (by omega)]
    rfl
  · obtain ⟨hpc, reason, hcause⟩ := hends.report hm.toIntact hk
    rw [if_neg (by omega)] at hopcode
    refine ⟨reason, ?_, ?_⟩
    · rw [hcause]
      rfl
    · unfold Fault.message
      rw [haddress, hopcode]
  · have hlasts := Intervention.fault_afterAll hfault acts
    exact ⟨step_of_halted hlasts, frame_of_halted hlasts⟩

/-- A host that puts another instruction in the place of the one that failed, and runs on. -/
def meddling : List Intervention :=
  [.onMemory (Memory.writeBlock 0x200 [0x00, 0xE0]), .onStack (CallStack.push 0x300),
    .onKeypad (Keypad.hold 5 true), .step, .frame]

/-- A call of native code halts a machine for good, also after a host has put another instruction in
its place. -/
theorem fault_lasts_of_native_routine :
    ∃ f m', step (standard [0x01, 0x23]) = .error (.fault f) m' ∧ f.address = some 0x200 ∧
      f.opcode = some 0x0123 ∧
      step (Intervention.afterAll meddling m') =
        .error (.fault f) (Intervention.afterAll meddling m') := by
  have hm := reachable_standard [0x01, 0x23] (by decide)
  have hnext : (standard [0x01, 0x23]).nextWord = 0x0123 := nextWord_standard
  have hpc : (standard [0x01, 0x23]).pc = 0x200 := rfl
  have hf : (standard [0x01, 0x23]).fault = none := rfl
  generalize standard [0x01, 0x23] = m at hm hnext hpc hf
  have hop : m.nextWord = (Operation.machineCode 0x123).encode := hnext
  have hfaulty : m.Faulty .unimplementedInstruction :=
    .refused (by omega) hop (fun _ _ => by omega) (.machineCode 0x123)
  obtain ⟨f, m', h, -⟩ :=
    hfaulty.of_ends hm.wellFormed.toIntact (step_ends hm.wellFormed.toIntact (by omega) hf)
  obtain ⟨haddress, -, hopcode, -, hlasts⟩ := hm.fault_lasts hf h
  have hword : f.opcode = some m.nextWord := hopcode (by omega)
  exact ⟨f, m', h, hpc ▸ haddress, hnext ▸ hword, (hlasts _).1⟩

end Chip8.Machine
