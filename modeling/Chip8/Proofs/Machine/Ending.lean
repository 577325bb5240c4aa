import Chip8.Machine.Step
import Chip8.Proofs.Instruction.Encode
import Chip8.Proofs.Machine.Effect

/-!
# How an instruction ends

The four ways in which one step of a machine that is not halted can end.

* `Machine.nextWord` is the word at the program counter, and `Machine.NextIs` says which operation
  it encodes;
* `Machine.fetched` and `Machine.ready` are the machine once that word is fetched, and once it is
  decoded and about to be performed;
* `Machine.Ends` lists the endings, and `step_ends` says that each step has one of them;
* `step_congr` compares the steps of two machines with the same instruction ahead, ending by ending.
-/

namespace Chip8.Machine

/-- The word at the program counter, the high byte first. -/
def nextWord (m : Machine) : Int :=
  256 * (m.memory.byteAt m.pc).toNat + (m.memory.byteAt (m.pc + 1)).toNat

theorem isWord_nextWord (m : Machine) : Opcode.IsWord m.nextWord := by
  have h0 := (m.memory.byteAt m.pc).toNat_lt
  have h1 := (m.memory.byteAt (m.pc + 1)).toNat_lt
  unfold Opcode.IsWord nextWord
  omega

/-- The operation ahead of the machine is `op`: its opcode is the word at the program counter. -/
def NextIs (m : Machine) (op : Operation) : Prop :=
  (0 ≤ m.pc ∧ m.pc ≤ 0xFFE) ∧ m.nextWord = op.encode

theorem NextIs.ofOpcode? {m : Machine} {op : Operation} (h : m.NextIs op)
    (hop : ∀ a, op ≠ .machineCode a) : Operation.ofOpcode? m.nextWord = some op := by
  rw [h.2, Operation.ofOpcode?_encode fun a ha => absurd ha (hop a)]

theorem NextIs.decode? {m : Machine} {op : Operation} (h : m.NextIs op)
    (hop : ∀ a, op ≠ .machineCode a) :
    Instruction.decode? m.nextWord = some (op.instruction m.nextWord) :=
  Instruction.decode?_of_ofOpcode? (h.ofOpcode? hop)

/-- The operation ahead is only one. -/
theorem NextIs.eq {m : Machine} {op op' : Operation} (h : m.NextIs op) (h' : m.NextIs op')
    (hop : ∀ a, op ≠ .machineCode a) (hop' : ∀ a, op' ≠ .machineCode a) : op = op' :=
  Option.some.inj ((h.ofOpcode? hop).symm.trans (h'.ofOpcode? hop'))

/-- The machine that has fetched the word at its program counter. -/
def fetched (m : Machine) : Machine :=
  { m with begun := m.pc, pc := (m.pc + 2) % 0x10000, opcode := some m.nextWord }

/-- The machine that is about to perform `i`, which it has fetched. -/
def ready (m : Machine) (i : Instruction) : Machine :=
  { m.fetched with
    instruction := some i
    trace := if m.live then m.trace.push (m.fetched.line i.mnemonic) else m.trace }

/-- The endings of a step. -/
inductive Ends (m : Machine) : EStateM.Result Error Machine Unit → Prop
  /-- The word at the program counter is not in memory. -/
  | unfetched (f : Fault) (hpc : 0xFFE < m.pc)
      (hf : f = ⟨.outOfRange m.pc (m.pc + 1), some m.pc, none⟩) :
      Ends m (.error (.fault f) { m with begun := m.pc, opcode := none, fault := some f })
  /-- The word is no instruction. -/
  | undecoded (f : Fault) (hpc : m.pc ≤ 0xFFE) (hw : Instruction.decode? m.nextWord = none)
      (hf : f = m.fetched.unsupportedFault .notAnInstruction m.nextWord) :
      Ends m (.error (.fault f) { m.fetched with pc := m.pc, fault := some f })
  /-- The instruction is refused. -/
  | refused (f g : Fault) (i : Instruction) (hpc : m.pc ≤ 0xFFE)
      (hi : Instruction.decode? m.nextWord = some i) (hg : (m.ready i).refusal? i = some g)
      (hf : f = g.attach (some m.pc) (some m.nextWord)) :
      Ends m (.error (.fault f) { m.ready i with pc := m.pc, fault := some f })
  /-- The instruction is completed. -/
  | completed (i : Instruction) (hpc : m.pc ≤ 0xFFE)
      (hi : Instruction.decode? m.nextWord = some i) (hg : (m.ready i).refusal? i = none) :
      Ends m (.ok () { (m.ready i).effect i.operation with
        completed := ((m.ready i).effect i.operation).completed + 1 })

theorem Intact.begin {m : Machine} (hm : m.Intact) : m.begin.Intact := { hm with }

theorem Intact.ready {m : Machine} (hm : m.Intact) (i : Instruction) : (m.ready i).Intact :=
  { hm with }

theorem fetch_eq {m : Machine} (hm : m.Intact) :
    fetch m =
      if 0 ≤ m.pc ∧ m.pc ≤ 0xFFE then .ok m.nextWord m
      else .error (.fault (.ofCause (.outOfRange m.pc (m.pc + 1)))) m := by
  have hrange : m.memory.InRange m.pc (2 : Nat) ↔ 0 ≤ m.pc ∧ m.pc ≤ 0xFFE := by
    unfold Memory.InRange Memory.top
    rw [hm.size_memory]
    omega
  have hword : word (m.memory.bytes m.pc 2) = m.nextWord := by
    simp [word, Memory.bytes, nextWord, List.range_succ]
  simp only [fetch, Action.bind_apply, Action.get_apply]
  rw [show (2 : Int) = ((2 : Nat) : Int) from rfl, onMemory_readBlock hm, Memory.readRefusal?]
  simp only [hrange]
  split_ifs with hpc
  · rw [← hword]
    rfl
  · have : m.pc + ((2 : Nat) : Int) - 1 = m.pc + 1 := by omega
    rw [this]

theorem execute_eq (m : Machine) :
    execute m.nextWord m.fetched = match Instruction.decode? m.nextWord with
      | none => .error (.fault (m.fetched.unsupportedFault .notAnInstruction m.nextWord)) m.fetched
      | some i => perform i (m.ready i) := by
  simp only [execute, Action.bind_apply, Action.modify_apply]
  cases Instruction.decode? m.nextWord with
  | none => rfl
  | some i =>
    cases hl : m.live with
    | false => simp [ready, hl, fetched]
    | true =>
      simp only [ready, hl, fetched, if_true, Action.bind_apply, Action.modify_apply,
        Action.get_apply]
      rfl

theorem cycle_eq {m : Machine} (hm : m.Intact) :
    cycle m.begin =
      if 0 ≤ m.pc ∧ m.pc ≤ 0xFFE then
        match Instruction.decode? m.nextWord with
        | none =>
          .error (.fault (m.fetched.unsupportedFault .notAnInstruction m.nextWord)) m.fetched
        | some i => perform i (m.ready i)
      else .error (.fault (.ofCause (.outOfRange m.pc (m.pc + 1)))) m.begin := by
  rw [← execute_eq]
  unfold cycle
  rw [Action.bind_apply, fetch_eq hm.begin]
  by_cases hpc : 0 ≤ m.pc ∧ m.pc ≤ 0xFFE
  · rw [if_pos hpc, if_pos (show 0 ≤ m.begin.pc ∧ m.begin.pc ≤ 0xFFE from hpc)]
    rfl
  · rw [if_neg hpc, if_neg (show ¬ (0 ≤ m.begin.pc ∧ m.begin.pc ≤ 0xFFE) from hpc)]
    rfl

/-- **Each step of a machine that is not halted has one of four endings.** -/
theorem step_ends {m : Machine} (hm : m.Intact) (h0 : 0 ≤ m.pc) (hf : m.fault = none) :
    Ends m (step m) := by
  unfold step
  rw [hf]
  simp only [cycle_eq hm]
  by_cases hpc : m.pc ≤ 0xFFE
  · rw [if_pos ⟨h0, hpc⟩]
    cases hi : Instruction.decode? m.nextWord with
    | none => exact .undecoded _ hpc hi (Fault.attach_of_address_eq_some rfl _ _)
    | some i =>
      simp only [perform_eq (hm.ready i)]
      cases hg : (m.ready i).refusal? i with
      | some g => exact .refused _ g i hpc hi hg rfl
      | none => exact .completed i hpc hi hg
  · rw [if_neg fun h => hpc h.2]
    exact .unfetched _ (by omega) rfl

/-- A step is completed if its instruction is in memory, is known and is not refused. -/
theorem step_of_not_refused {m : Machine} (hm : m.Intact) (h0 : 0 ≤ m.pc) (hf : m.fault = none)
    {i : Instruction} (hpc : m.pc ≤ 0xFFE) (hi : Instruction.decode? m.nextWord = some i)
    (hg : (m.ready i).refusal? i = none) :
    step m = .ok () { (m.ready i).effect i.operation with
      completed := ((m.ready i).effect i.operation).completed + 1 } := by
  have hends := step_ends hm h0 hf
  generalize step m = r at hends
  cases hends with
  | unfetched f hpc' => omega
  | undecoded f _ hnone =>
    rw [hi] at hnone
    cases hnone
  | refused f g j _ hj hg' =>
    rw [hi] at hj
    cases hj
    rw [hg] at hg'
    cases hg'
  | completed j _ hj =>
    rw [hi] at hj
    cases hj
    rfl

/-- The machine after it has completed `i`, the instruction ahead of it. -/
def stepped (m : Machine) (i : Instruction) : Machine :=
  { (m.ready i).effect i.operation with
    completed := ((m.ready i).effect i.operation).completed + 1 }

theorem stepped_instruction (m : Machine) (op : Operation) (w : Int) :
    m.stepped (op.instruction w) = { (m.ready (op.instruction w)).effect op with
      completed := ((m.ready (op.instruction w)).effect op).completed + 1 } := by
  rw [stepped, Operation.operation_instruction]

/-- What is not refused is no call of native code. -/
theorem ne_machineCode {m : Machine} {op : Operation} {w : Int}
    (hg : m.refusal? (op.instruction w) = none) (a : Fin 4096) : op ≠ .machineCode a := by
  rintro rfl
  cases hg

/-- A step performs the operation ahead, if that is not refused. -/
theorem NextIs.step_eq {m : Machine} {op : Operation} (h : m.NextIs op)
    (hop : ∀ a, op ≠ .machineCode a) (hm : m.Intact) (hf : m.fault = none)
    (hg : (m.ready (op.instruction m.nextWord)).refusal? (op.instruction m.nextWord) = none) :
    step m = .ok () (m.stepped (op.instruction m.nextWord)) :=
  step_of_not_refused hm h.1.1 hf h.1.2 (h.decode? hop) hg

/-! ### Steps from any address

A reset may send a machine to an address below its memory, where no instruction can be fetched. -/

theorem step_of_neg {m : Machine} (hm : m.Intact) (hf : m.fault = none) (h : m.pc < 0) :
    ∃ f, step m = .error (.fault f)
      { m with begun := m.pc, opcode := none, fault := some f } := by
  unfold step
  rw [hf]
  simp only [cycle_eq hm, if_neg fun hpc : 0 ≤ m.pc ∧ m.pc ≤ 0xFFE => absurd hpc.1 (by omega)]
  exact ⟨_, rfl⟩

/-- A step is completed only from an instruction that is in memory, is known and is not refused. -/
theorem Intact.of_step_ok {m m' : Machine} (hm : m.Intact) (h : step m = .ok () m') :
    m.fault = none ∧ (0 ≤ m.pc ∧ m.pc ≤ 0xFFE) ∧ ∃ i, Instruction.decode? m.nextWord = some i ∧
      (m.ready i).refusal? i = none ∧ m' = m.stepped i := by
  cases hf : m.fault with
  | some f =>
    rw [step_of_halted hf] at h
    cases h
  | none =>
    by_cases h0 : 0 ≤ m.pc
    · have hends := step_ends hm h0 hf
      rw [h] at hends
      cases hends with
      | completed i hpc hi hg => exact ⟨rfl, ⟨h0, hpc⟩, i, hi, hg, rfl⟩
    · obtain ⟨f, hneg⟩ := step_of_neg hm hf (by omega)
      rw [hneg] at h
      cases h

/-- A step that is completed has performed the operation ahead. -/
theorem NextIs.eq_stepped {m m' : Machine} {op : Operation} (h : m.NextIs op)
    (hop : ∀ a, op ≠ .machineCode a) (hm : m.Intact) (hstep : step m = .ok () m') :
    m' = m.stepped (op.instruction m.nextWord) := by
  obtain ⟨-, -, i, hi, -, rfl⟩ := hm.of_step_ok hstep
  rw [h.decode? hop] at hi
  rw [Option.some.inj hi]

/-- A step that is not completed ends in a fault, and changes nothing but the record of it. -/
theorem Intact.of_step_error {m m' : Machine} {e : Error} (hm : m.Intact)
    (h : step m = .error e m') :
    ∃ f, e = .fault f ∧ m' = { m with
      begun := m'.begun
      opcode := m'.opcode
      instruction := m'.instruction
      trace := m'.trace
      fault := some f } := by
  cases hf : m.fault with
  | some f =>
    rw [step_of_halted hf] at h
    cases h
    exact ⟨f, rfl, by rw [← hf]⟩
  | none =>
    by_cases h0 : 0 ≤ m.pc
    · have hends := step_ends hm h0 hf
      rw [h] at hends
      cases hends with
      | unfetched f | undecoded f | refused f => exact ⟨f, rfl, rfl⟩
    · obtain ⟨f, hneg⟩ := step_of_neg hm hf (by omega)
      rw [hneg] at h
      cases h
      exact ⟨f, rfl, rfl⟩

/-! ### Two machines with the same instruction ahead -/

/-- How a step ends that has come to `m` and fails there. -/
def stopped (m : Machine) (f : Fault) : EStateM.Result Error Machine Unit :=
  .error (.fault (f.attach (some m.begun) m.opcode)) (m.halt f)

/-- The steps of two machines with the same instruction ahead are related if they are so whichever
way both of them end. -/
theorem step_congr {m n : Machine} (hm : m.Intact) (hn : n.Intact) (hf : m.fault = none)
    (hf' : n.fault = none) (hpc : n.pc = m.pc) (hword : n.nextWord = m.nextWord)
    {S : EStateM.Result Error Machine Unit → EStateM.Result Error Machine Unit → Prop}
    (unfetched : ¬ (0 ≤ m.pc ∧ m.pc ≤ 0xFFE) → ∀ f, S (m.begin.stopped f) (n.begin.stopped f))
    (undecoded : (0 ≤ m.pc ∧ m.pc ≤ 0xFFE) → Instruction.decode? m.nextWord = none →
      S (m.fetched.stopped (m.fetched.unsupportedFault .notAnInstruction m.nextWord))
        (n.fetched.stopped (n.fetched.unsupportedFault .notAnInstruction m.nextWord)))
    (refusal : ∀ i, (n.ready i).refusal? i = none ↔ (m.ready i).refusal? i = none)
    (refused : (0 ≤ m.pc ∧ m.pc ≤ 0xFFE) → ∀ i f g, Instruction.decode? m.nextWord = some i →
      (m.ready i).refusal? i = some f → (n.ready i).refusal? i = some g →
      S ((m.ready i).stopped f) ((n.ready i).stopped g))
    (completed : (0 ≤ m.pc ∧ m.pc ≤ 0xFFE) → ∀ i, Instruction.decode? m.nextWord = some i →
      S (.ok () (m.stepped i)) (.ok () (n.stepped i))) : S (step m) (step n) := by
  unfold step
  rw [hf, hf']
  simp only [cycle_eq hm, cycle_eq hn, hpc, hword]
  by_cases hrange : 0 ≤ m.pc ∧ m.pc ≤ 0xFFE
  · rw [if_pos hrange, if_pos hrange]
    cases hi : Instruction.decode? m.nextWord with
    | none => exact undecoded hrange hi
    | some i =>
      simp only [perform_eq (hm.ready i), perform_eq (hn.ready i)]
      cases hr : (m.ready i).refusal? i with
      | none =>
        rw [(refusal i).2 hr]
        exact completed hrange i hi
      | some f =>
        obtain ⟨g, hg⟩ := Option.ne_none_iff_exists'.1 fun h => by
          rw [(refusal i).1 h] at hr
          cases hr
        rw [hg]
        exact refused hrange i f g hi hr hg
  · rw [if_neg hrange, if_neg hrange]
    exact unfetched hrange _

end Chip8.Machine
