import Chip8.Proofs.Machine.Reachable

/-!
# Faults of the machine

When a step ends in a fault, and what the fault leaves behind.

* `Machine.Refuses` is the table of the operations that can be refused, with the conditions, and
  `Machine.Faulty` adds the words that cannot be fetched or decoded;
* `Reachable.unchanged_of_fault` says that a step which ends in a fault changes nothing but the
  record of the fault;
* `Reachable.faulty_iff` says that a step ends in a fault of some kind exactly if the machine is
  faulty in this way, and is completed otherwise.
-/

namespace Chip8

@[simp] theorem Fault.kind_attach (f : Fault) (address opcode : Option Int) :
    (f.attach address opcode).kind = f.kind := by
  unfold Fault.kind
  rw [Fault.cause_attach]

namespace Machine

variable {m : Machine}

/-! ### When an operation is refused -/

/-- An access that is refused exactly if `P` holds is always refused as out of range. -/
theorem refused_iff {c? : Option Cause} {P : Prop} {k : Fault.Kind} (hnone : c? = none ↔ ¬ P)
    (hkind : ∀ c, c? = some c → c.kind = .addressOutOfRange) :
    (∃ g, c?.map Fault.ofCause = some g ∧ g.kind = k) ↔ P ∧ k = .addressOutOfRange := by
  constructor
  · rintro ⟨g, hg, rfl⟩
    obtain ⟨c, rfl, rfl⟩ := Option.map_eq_some_iff.1 hg
    refine ⟨?_, hkind c rfl⟩
    by_contra hP
    cases hnone.2 hP
  · rintro ⟨hP, rfl⟩
    obtain ⟨c, rfl⟩ := Option.ne_none_iff_exists'.1 fun h => hnone.1 h hP
    exact ⟨.ofCause c, rfl, hkind c rfl⟩

/-- Reading at the index register is refused beyond the end of memory. -/
theorem Intact.read_refused_iff (hm : m.Intact) (n : Int) {k : Fault.Kind} :
    (∃ g, (m.memory.readRefusal? m.index n).map Fault.ofCause = some g ∧ g.kind = k) ↔
      0x1000 < m.index + n ∧ k = .addressOutOfRange := by
  refine refused_iff ?_ fun c hc => Memory.kind_of_readRefusal? hc
  rw [Memory.readRefusal?_eq_none_iff]
  unfold Memory.InRange Memory.top
  rw [hm.size_memory]
  have := hm.index
  omega

/-- Writing at the index register is refused beyond the end of memory, and over the font. -/
theorem Intact.write_refused_iff (hm : m.Intact) (n : Int) {k : Fault.Kind} :
    (∃ g, (m.memory.writeRefusal? m.index n).map Fault.ofCause = some g ∧ g.kind = k) ↔
      (m.index < 80 ∨ 0x1000 < m.index + n) ∧ k = .addressOutOfRange := by
  refine refused_iff ?_ fun c hc => Memory.kind_of_writeRefusal? hc
  rw [Memory.writeRefusal?_eq_none_iff]
  unfold Memory.Writable Memory.InRange Memory.top
  rw [hm.size_memory, hm.protectedTop]
  have := hm.index
  omega

/-- The machine refuses an operation with a fault of this kind. -/
inductive Refuses (m : Machine) : Operation → Fault.Kind → Prop
  | machineCode (a : Fin 4096) : Refuses m (.machineCode a) .unimplementedInstruction
  | ret (h : m.stack.size = 0) : Refuses m .ret .stackUnderflow
  | call (a : Fin 4096) (h : m.stack.size = 48) : Refuses m (.call a) .stackOverflow
  | draw (x y : Register) (n : Fin 16) (h : 0x1000 < m.index + (n : Nat)) :
      Refuses m (.draw x y n) .addressOutOfRange
  | storeDigits (x : Register) (h : m.index < 80 ∨ 0x1000 < m.index + 3) :
      Refuses m (.storeDigits x) .addressOutOfRange
  | storeRegisters (x : Register) (h : m.index < 80 ∨ 0x1000 < m.index + (x : Nat) + 1) :
      Refuses m (.storeRegisters x) .addressOutOfRange
  | loadRegisters (x : Register) (h : 0x1000 < m.index + (x : Nat) + 1) :
      Refuses m (.loadRegisters x) .addressOutOfRange

/-- An instruction is refused, when its turn comes, just as `Refuses` says. -/
theorem Intact.refuses_iff (hm : m.Intact) (i : Instruction) {k : Fault.Kind} :
    m.Refuses i.operation k ↔ ∃ g, (m.ready i).refusal? i = some g ∧ g.kind = k := by
  unfold refusal?
  generalize i.operation = op
  constructor
  · intro h
    cases h with
    | machineCode a => exact ⟨_, rfl, rfl⟩
    | ret h => exact ⟨_, if_pos (List.eq_nil_of_length_eq_zero h), rfl⟩
    | call a h =>
      have hfull : m.stack.depth ≤ m.stack.size := by
        rw [hm.depth, h]
        decide
      exact ⟨_, if_pos hfull, rfl⟩
    | draw x y n h => exact (hm.read_refused_iff n).2 ⟨h, rfl⟩
    | storeDigits x h => exact (hm.write_refused_iff 3).2 ⟨h, rfl⟩
    | storeRegisters x h => exact (hm.write_refused_iff (x + 1)).2 ⟨by omega, rfl⟩
    | loadRegisters x h => exact (hm.read_refused_iff (x + 1)).2 ⟨by omega, rfl⟩
  · intro h
    cases op with
    | machineCode a =>
      obtain ⟨g, ⟨⟩, rfl⟩ := h
      exact .machineCode a
    | ret =>
      obtain ⟨g, hg, rfl⟩ := h
      dsimp only at hg
      split_ifs at hg with hempty
      cases hg
      exact .ret (List.length_eq_zero_iff.2 hempty)
    | call a =>
      obtain ⟨g, hg, rfl⟩ := h
      dsimp only at hg
      split_ifs at hg with hfull
      cases hg
      -- The stack never holds more than its depth, so that it is full at just one size.
      have hle : m.stack.depth ≤ m.stack.size := hfull
      have := hm.size_stack
      rw [hm.depth] at hle
      exact .call a (by omega)
    | draw x y n =>
      obtain ⟨hlt, rfl⟩ := (hm.read_refused_iff n).1 h
      exact .draw x y n hlt
    | storeDigits x =>
      obtain ⟨hlt, rfl⟩ := (hm.write_refused_iff 3).1 h
      exact .storeDigits x hlt
    | storeRegisters x =>
      obtain ⟨hlt, rfl⟩ := (hm.write_refused_iff (x + 1)).1 h
      exact .storeRegisters x (by omega)
    | loadRegisters x =>
      obtain ⟨hlt, rfl⟩ := (hm.read_refused_iff (x + 1)).1 h
      exact .loadRegisters x (by omega)
    | _ =>
      obtain ⟨g, ⟨⟩, -⟩ := h

/-! ### When a step is faulty -/

/-- The next step of the machine ends in a fault of this kind. The word `0nnn` is a call of native
code unless it is `00E0` or `00EE`. -/
inductive Faulty (m : Machine) : Fault.Kind → Prop
  | unfetched (hpc : 0xFFE < m.pc) : Faulty m .addressOutOfRange
  | undecoded (hpc : m.pc ≤ 0xFFE) (hw : ∀ op : Operation, m.nextWord ≠ op.encode) :
      Faulty m .unimplementedInstruction
  | refused {op : Operation} {k : Fault.Kind} (hpc : m.pc ≤ 0xFFE) (hw : m.nextWord = op.encode)
      (hnative : ∀ a, op = .machineCode a → m.nextWord ≠ 0x00E0 ∧ m.nextWord ≠ 0x00EE)
      (hop : m.Refuses op k) : Faulty m k

theorem Ends.faulty (hm : m.Intact) {f : Fault} {m' : Machine}
    (h : Ends m (.error (.fault f) m')) : m.Faulty f.kind := by
  cases h with
  | unfetched f hpc hf =>
    subst hf
    exact .unfetched hpc
  | undecoded f hpc hw hf =>
    subst hf
    rw [Instruction.decode?_eq_none_iff, Operation.ofOpcode?_eq_none_iff m.isWord_nextWord] at hw
    exact .undecoded hpc fun op hop => hw op hop.symm
  | refused f g i hpc hi hg hf =>
    subst hf
    rw [Fault.kind_attach]
    obtain ⟨hop, -⟩ := Instruction.of_decode?_eq_some hi
    obtain ⟨hw, hnative⟩ := (Operation.ofOpcode?_eq_some_iff m.isWord_nextWord).1 hop
    exact .refused hpc hw.symm hnative ((hm.refuses_iff i).2 ⟨g, hg, rfl⟩)

theorem Faulty.of_ends (hm : m.Intact) {k : Fault.Kind} (hk : m.Faulty k)
    {r : EStateM.Result Error Machine Unit} (hr : Ends m r) :
    ∃ f m', r = .error (.fault f) m' ∧ f.kind = k := by
  cases hk with
  | unfetched hpc =>
    cases hr with
    | unfetched f _ hf => exact ⟨f, _, rfl, hf ▸ rfl⟩
    | undecoded _ hpc' | refused _ _ _ hpc' | completed _ hpc' => omega
  | undecoded hpc hw =>
    have hnone : Instruction.decode? m.nextWord = none := by
      rw [Instruction.decode?_eq_none_iff, Operation.ofOpcode?_eq_none_iff m.isWord_nextWord]
      exact fun op hop => hw op hop.symm
    cases hr with
    | unfetched f hpc' hf => omega
    | undecoded f _ _ hf => exact ⟨f, _, rfl, hf ▸ rfl⟩
    | refused _ _ i _ hi | completed i _ hi =>
      rw [hnone] at hi
      cases hi
  | @refused op _ hpc hw hnative hop =>
    have hsome : Instruction.decode? m.nextWord = some (op.instruction m.nextWord) :=
      Instruction.decode?_of_ofOpcode? <|
        (Operation.ofOpcode?_eq_some_iff m.isWord_nextWord).2 ⟨hw.symm, hnative⟩
    rw [← Operation.operation_instruction op m.nextWord] at hop
    obtain ⟨g, hg, hkind⟩ := (hm.refuses_iff _).1 hop
    cases hr with
    | unfetched f hpc' hf => omega
    | undecoded f _ hnone hf =>
      rw [hsome] at hnone
      cases hnone
    | refused f g' i _ hi hg' hf =>
      rw [hsome] at hi
      cases hi
      rw [hg] at hg'
      cases hg'
      exact ⟨f, _, rfl, by rw [hf, Fault.kind_attach, hkind]⟩
    | completed i _ hi hg' =>
      rw [hsome] at hi
      cases hi
      rw [hg] at hg'
      cases hg'

/-- **A step is completed, or it ends in a fault, and it does so exactly if the machine is faulty in
this way.** No other error ever comes out of a step. -/
theorem Reachable.faulty_iff {m : Machine} (hm : m.Reachable) (hf : m.fault = none) :
    ((∃ m', step m = .ok () m') ∨ ∃ f m', step m = .error (.fault f) m') ∧
      ∀ k, (∃ f m', step m = .error (.fault f) m' ∧ f.kind = k) ↔ m.Faulty k := by
  have hm := hm.wellFormed
  have hends := step_ends hm.toIntact hm.pc.1 hf
  constructor
  · cases h : step m with
    | ok _ m' => exact .inl ⟨m', rfl⟩
    | error e m' =>
      rw [h] at hends
      cases hends with
      | unfetched f | undecoded f | refused f => exact .inr ⟨f, _, rfl⟩
  · intro k
    constructor
    · rintro ⟨f, m', h, rfl⟩
      rw [h] at hends
      exact hends.faulty hm.toIntact
    · intro hk
      exact hk.of_ends hm.toIntact hends

/-- A machine that returns from where it was never called has a stack underflow. -/
theorem faulty_iff_of_stray_return :
    ∃ f m', step (standard [0x00, 0xEE]) = .error (.fault f) m' ∧ f.kind = .stackUnderflow := by
  have hfaulty : (standard [0x00, 0xEE]).Faulty .stackUnderflow :=
    .refused (by decide) nextWord_standard (by nofun) (.ret rfl)
  exact (((reachable_standard [0x00, 0xEE] (by decide)).faulty_iff rfl).2 _).2 hfaulty

/-! ### What a fault leaves behind -/

/-- **A step that ends in a fault changes nothing that a program can see.** The program counter is
back at the instruction, and the fault is recorded. -/
theorem Reachable.unchanged_of_fault {m m' : Machine} {f : Fault} (hm : m.Reachable)
    (hf : m.fault = none) (h : step m = .error (.fault f) m') :
    m'.registers = m.registers ∧ m'.index = m.index ∧ m'.memory = m.memory ∧
      m'.stack = m.stack ∧ m'.timers = m.timers ∧ m'.screen = m.screen ∧ m'.keypad = m.keypad ∧
      m'.awaitingKey = m.awaitingKey ∧ m'.completed = m.completed ∧ m'.random = m.random ∧
      m'.cyclesPerFrame = m.cyclesPerFrame ∧ m'.pc = m.pc ∧ m'.fault = some f := by
  have hm := hm.wellFormed
  have hends := step_ends hm.toIntact hm.pc.1 hf
  rw [h] at hends
  cases hends with
  | unfetched f | undecoded f | refused f =>
    exact ⟨rfl, rfl, rfl, rfl, rfl, rfl, rfl, rfl, rfl, rfl, rfl, rfl, rfl⟩

/-- A machine that would store the digits of a register over the font is halted at once. -/
theorem unchanged_of_store_in_font :
    ∃ f m', step (standard [0xF0, 0x33]) = .error (.fault f) m' ∧
      m'.memory = (standard [0xF0, 0x33]).memory ∧ m'.pc = 0x200 ∧ m'.fault = some f := by
  have hm := reachable_standard [0xF0, 0x33] (by decide)
  have hfaulty : (standard [0xF0, 0x33]).Faulty .addressOutOfRange :=
    .refused (by decide) nextWord_standard (by nofun) (.storeDigits 0 (.inl (by decide)))
  obtain ⟨f, m', h, -⟩ :=
    hfaulty.of_ends hm.wellFormed.toIntact (step_ends hm.wellFormed.toIntact (by decide) rfl)
  obtain ⟨-, -, hmemory, -, -, -, -, -, -, -, -, hpc, hfault⟩ := hm.unchanged_of_fault rfl h
  exact ⟨f, m', h, hmemory, hpc, hfault⟩

end Machine

end Chip8
