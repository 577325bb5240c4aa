import Chip8.Proofs.Instruction.Encode
import Chip8.Proofs.Machine.Ending

/-!
# Well-formed machines

The invariant of a running machine: its parts are intact, its program counter stays near the
memory, it waits for a key only at an instruction that does so, and it is halted only at the
instruction that its fault names.

* `Machine.WellFormed` is the invariant;
* `Intact.effect` says that operations keep the parts intact;
* `WellFormed.step` and `WellFormed.frame` say that steps and frames keep the invariant, whether
  they are completed or fail.
-/

namespace Chip8

theorem Timers.WellFormed.tick {t : Timers} (ht : t.WellFormed) : t.tick.WellFormed := by
  have decay : ∀ v : Int, 0 ≤ v ∧ v < 256 →
      0 ≤ Timers.decay t.reload v ∧ Timers.decay t.reload v < 256 := by
    intro v hv
    unfold Timers.decay
    split_ifs
    · omega
    · cases hr : t.reload with
      | none => decide
      | some r => exact ht.reload r hr
  exact ⟨ht.reload, decay _ ht.delay, decay _ ht.sound⟩

namespace Machine

/-- The invariant of machines that run. -/
structure WellFormed (m : Machine) : Prop extends Intact m where
  pc : 0 ≤ m.pc ∧ m.pc ≤ 0x10FE
  awaiting : m.awaitingKey = true →
    m.fault = none ∧ m.pc ≤ 0xFFE ∧ ∃ x, m.nextWord = (Operation.waitKey x).encode
  halted : ∀ f, m.fault = some f → m.pc = m.begun ∧ f.address = some m.pc

/-! ### Operations -/

variable {m : Machine}

theorem pc_fetched (hpc : 0 ≤ m.pc ∧ m.pc ≤ 0xFFE) : m.fetched.pc = m.pc + 2 := by
  show (m.pc + 2) % 0x10000 = m.pc + 2
  omega

theorem skipTarget_bounds (hpc : 0 ≤ m.pc ∧ m.pc ≤ 0x1000) (c : Bool) :
    0 ≤ m.skipTarget c ∧ m.skipTarget c ≤ 0x1002 := by
  unfold skipTarget
  split_ifs <;> omega

/-- From the end of an instruction in memory, no operation leads further than the highest jump with
the highest offset. -/
theorem pc_effect_bounds (hm : m.Intact) (hpc : 2 ≤ m.pc ∧ m.pc ≤ 0x1000) (op : Operation) :
    0 ≤ (m.effect op).pc ∧ (m.effect op).pc ≤ 0x10FE := by
  have hskip : ∀ c, 0 ≤ m.skipTarget c ∧ m.skipTarget c ≤ 0x10FE := fun c => by
    have := skipTarget_bounds (m := m) (by omega) c
    omega
  cases op with
  | ret =>
    show 0 ≤ m.stack.returns.headD 0 ∧ m.stack.returns.headD 0 ≤ 0x10FE
    cases hs : m.stack.returns with
    | nil => decide
    | cons a returns =>
      have := hm.returns a (hs ▸ List.mem_cons_self ..)
      exact ⟨by simp only [List.headD_cons]; omega, by simp only [List.headD_cons]; omega⟩
  | jump a | call a =>
    show 0 ≤ ((a : Nat) : Int) ∧ ((a : Nat) : Int) ≤ 0x10FE
    omega
  | jumpOffset a =>
    have := (m.register offset).toNat_lt
    show 0 ≤ ((a : Nat) : Int) + _ ∧ ((a : Nat) : Int) + _ ≤ 0x10FE
    omega
  | skipIfByte x b | skipUnlessByte x b | skipIfSame x y n | skipUnlessSame x y n
  | skipIfPressed x | skipUnlessPressed x => exact hskip _
  | waitKey x =>
    show 0 ≤ m.waitTarget ∧ m.waitTarget ≤ 0x10FE
    unfold waitTarget
    split_ifs <;> omega
  | _ => exact ⟨by show 0 ≤ m.pc; omega, by show m.pc ≤ 0x10FE; omega⟩

/-- An operation that is not refused keeps the parts of a machine intact. -/
theorem Intact.effect (hm : m.Intact) (hpc : 2 ≤ m.pc ∧ m.pc ≤ 0x1000) {i : Instruction}
    (hi : m.refusal? i = none) : (m.effect i.operation).Intact := by
  have hbyte : ∀ x, 0 ≤ ((m.register x).toNat : Int) ∧ ((m.register x).toNat : Int) < 256 :=
    fun x => by have := (m.register x).toNat_lt; omega
  unfold refusal? at hi
  generalize i.operation = op at hi
  cases op with
  | clearScreen => exact { hm with screen := hm.screen.blanked }
  | ret =>
    refine { hm with size_stack := ?_, returns := fun a ha => hm.returns a (List.mem_of_mem_tail ha) }
    have := hm.size_stack
    show m.stack.returns.tail.length ≤ 48
    rw [List.length_tail]
    exact le_trans (Nat.sub_le _ _) this
  | call a =>
    have hroom : ¬ m.stack.depth ≤ m.stack.size := by
      intro h
      simp [h] at hi
    rw [hm.depth] at hroom
    refine { hm with size_stack := ?_, returns := ?_ }
    · show m.stack.size + 1 ≤ 48
      omega
    · intro b hb
      rcases List.mem_cons.1 hb with rfl | hb
      · exact hpc
      · exact hm.returns b hb
  | draw x y n =>
    exact { hm with
      screen := hm.screen.drawn _ _ _
      width := (Screen.width_drawn ..).trans hm.width
      height := (Screen.height_drawn ..).trans hm.height }
  | loadIndex a =>
    refine { hm with index := ?_ }
    show 0 ≤ ((a : Nat) : Int) ∧ ((a : Nat) : Int) < 0x10000
    omega
  | addIndex x =>
    refine { hm with index := ?_ }
    show 0 ≤ (m.index + _) % 0x10000 ∧ (m.index + _) % 0x10000 < 0x10000
    omega
  | loadGlyph x =>
    refine { hm with index := ?_ }
    show 0 ≤ 0 + ((5 : Nat) : Int) * ((m.register x).toNat % 16 : Nat) ∧
      0 + ((5 : Nat) : Int) * ((m.register x).toNat % 16 : Nat) < 0x10000
    omega
  | setDelay x => exact { hm with timers := { hm.timers with delay := hbyte x } }
  | setSound x => exact { hm with timers := { hm.timers with sound := hbyte x } }
  | storeDigits x | storeRegisters x =>
    exact { hm with size_cells := (Memory.size_cells_written ..).trans hm.size_cells }
  | _ => exact { hm with }

/-- No operation touches what a machine keeps about its own run. -/
theorem effect_bookkeeping (m : Machine) (op : Operation) :
    (m.effect op).fault = m.fault ∧ (m.effect op).completed = m.completed ∧
      (m.effect op).begun = m.begun ∧ (m.effect op).opcode = m.opcode ∧
      (m.effect op).instruction = m.instruction ∧ (m.effect op).live = m.live ∧
      (m.effect op).trace = m.trace ∧ (m.effect op).cyclesPerFrame = m.cyclesPerFrame := by
  cases op <;> exact ⟨rfl, rfl, rfl, rfl, rfl, rfl, rfl, rfl⟩

@[simp] theorem fault_stepped (m : Machine) (i : Instruction) : (m.stepped i).fault = m.fault :=
  (effect_bookkeeping (m.ready i) i.operation).1

@[simp] theorem completed_stepped (m : Machine) (i : Instruction) :
    (m.stepped i).completed = m.completed + 1 :=
  congrArg (· + 1) (effect_bookkeeping (m.ready i) i.operation).2.1

/-- A machine waits after an operation only if it waited before it, or if the operation is the one
that waits and no key is held. -/
theorem awaitingKey_effect {op : Operation} (h : (m.effect op).awaitingKey = true) :
    (m.awaitingKey = true ∧ ∀ x, op ≠ .waitKey x) ∨
      ∃ x, op = .waitKey x ∧ m.keypad.sample = none := by
  cases op with
  | waitKey x => exact .inr ⟨x, rfl, Option.isNone_iff_eq_none.1 h⟩
  | _ => exact .inl ⟨h, nofun⟩

/-! ### Steps and frames -/

/-- A word that waits for a key is decoded as one. -/
theorem decode?_of_waitKey {w : Int} {x : Register} (hw : w = (Operation.waitKey x).encode) :
    Instruction.decode? w = some ((Operation.waitKey x).instruction w) := by
  subst hw
  exact Instruction.decode?_encode nofun

/-- A machine that waits for a key has an instruction ahead that does so. -/
theorem WellFormed.decode?_of_awaiting (hm : m.WellFormed) (ha : m.awaitingKey = true) :
    m.pc ≤ 0xFFE ∧ ∃ x,
      Instruction.decode? m.nextWord = some ((Operation.waitKey x).instruction m.nextWord) := by
  obtain ⟨-, hpc, x, hx⟩ := hm.awaiting ha
  exact ⟨hpc, x, decode?_of_waitKey hx⟩

/-- After a machine asked for a key in vain, it is back at the word that asks. -/
theorem waitKey_again (hpc : 0 ≤ m.pc ∧ m.pc ≤ 0xFFE) {i : Instruction} {x : Register}
    (hx : i.operation = .waitKey x) (hs : m.keypad.sample = none) :
    ((m.ready i).effect i.operation).pc = m.pc ∧
      ((m.ready i).effect i.operation).nextWord = m.nextWord := by
  have hnext : (m.ready i).pc = m.pc + 2 := pc_fetched hpc
  have hback : ((m.ready i).effect i.operation).pc = m.pc := by
    rw [hx]
    show (m.ready i).waitTarget = m.pc
    unfold waitTarget
    rw [hnext, show (m.ready i).keypad.sample = none from hs]
    show (m.pc + 2 - 2) % 0x10000 = m.pc
    omega
  have hmemory : ((m.ready i).effect i.operation).memory = m.memory := by
    rw [hx]
    rfl
  refine ⟨hback, ?_⟩
  unfold nextWord
  rw [hmemory, hback]

theorem WellFormed.completed (hm : m.WellFormed) (hf : m.fault = none) {i : Instruction}
    (hpc : m.pc ≤ 0xFFE) (hi : Instruction.decode? m.nextWord = some i)
    (hg : (m.ready i).refusal? i = none) (n : Nat) :
    WellFormed { (m.ready i).effect i.operation with completed := n } := by
  have hnext : (m.ready i).pc = m.pc + 2 := pc_fetched ⟨hm.pc.1, hpc⟩
  have hbounds : 2 ≤ (m.ready i).pc ∧ (m.ready i).pc ≤ 0x1000 := by
    have := hm.pc.1
    omega
  have hready := hm.toIntact.ready i
  obtain ⟨hfault, -⟩ := effect_bookkeeping (m.ready i) i.operation
  refine { hready.effect hbounds hg with
    pc := pc_effect_bounds hready hbounds i.operation
    awaiting := fun ha => ?_
    halted := fun f hf' => ?_ }
  · -- The machine waits because it did so before, or because it has just asked in vain. The first
    -- cannot be, as a machine that waits asks again.
    rcases awaitingKey_effect ha with ⟨ha, hne⟩ | ⟨x, hx, hs⟩
    · obtain ⟨-, x, hx⟩ := hm.decode?_of_awaiting ha
      rw [hi] at hx
      cases hx
      exact absurd rfl (hne x)
    · obtain ⟨hback, hword⟩ := waitKey_again ⟨hm.pc.1, hpc⟩ hx hs
      obtain ⟨hop, -⟩ := Instruction.of_decode?_eq_some hi
      have hencode : nextWord m = (Operation.waitKey x).encode := by
        rw [← hx]
        exact (Operation.encode_of_ofOpcode? m.isWord_nextWord hop).symm
      exact ⟨hfault.trans hf, hback ▸ hpc, x, hword.trans hencode⟩
  · have : some f = none := hf'.symm.trans (hfault.trans hf)
    cases this

theorem WellFormed.of_ends (hm : m.WellFormed) (hf : m.fault = none)
    {r : EStateM.Result Error Machine Unit} (hr : Ends m r) : (Action.state r).WellFormed := by
  -- A machine that waits is at an instruction that can be fetched, is known and is never refused,
  -- so that it does not come to any of the first three endings.
  cases hr with
  | unfetched f hpc h =>
    refine { hm.toIntact with pc := hm.pc, awaiting := fun ha => ?_, halted := ?_ }
    · have := (hm.decode?_of_awaiting ha).1
      omega
    · rintro g ⟨⟩
      exact ⟨rfl, h ▸ rfl⟩
  | undecoded f hpc hw h =>
    refine { hm.toIntact with pc := hm.pc, awaiting := fun ha => ?_, halted := ?_ }
    · obtain ⟨-, x, hx⟩ := hm.decode?_of_awaiting ha
      rw [hw] at hx
      cases hx
    · rintro g ⟨⟩
      exact ⟨rfl, h ▸ rfl⟩
  | refused f g i hpc hi hg h =>
    refine { hm.toIntact with pc := hm.pc, awaiting := fun ha => ?_, halted := ?_ }
    · obtain ⟨-, x, hx⟩ := hm.decode?_of_awaiting ha
      rw [hi] at hx
      cases hx
      cases hg
    · rintro f' ⟨⟩
      obtain ⟨-, hw⟩ := Instruction.of_decode?_eq_some hi
      refine ⟨rfl, ?_⟩
      rw [h, ← hw]
      exact (attach_refusal hg).1
  | completed i hpc hi hg => exact hm.completed hf hpc hi hg _

/-- A step keeps the parts of a machine intact, whether it is completed or not. -/
theorem Intact.step (hm : m.Intact) : (Action.state (step m)).Intact := by
  cases h : Machine.step m with
  | ok _ m' =>
    obtain ⟨-, hpc, i, -, hg, rfl⟩ := hm.of_step_ok h
    have hnext : (m.ready i).pc = m.pc + 2 := pc_fetched hpc
    exact { (hm.ready i).effect (by omega) hg with }
  | error e m' =>
    obtain ⟨f, -, hm'⟩ := hm.of_step_error h
    show m'.Intact
    rw [hm']
    exact { hm with }

theorem Intact.of_step {m' : Machine} (hm : m.Intact) (h : Machine.step m = .ok () m') :
    m'.Intact := by
  have hstep := hm.step
  rwa [h] at hstep

theorem WellFormed.step (hm : m.WellFormed) : (Action.state (step m)).WellFormed := by
  cases hf : m.fault with
  | some f =>
    rw [step_of_halted hf]
    exact hm
  | none => exact hm.of_ends hf (step_ends hm.toIntact hm.pc.1 hf)

/-- What each step keeps, completed or not, holds after a batch. -/
theorem batch_induction {P : Machine → Prop} (hstep : ∀ m, P m → P (Action.state (step m)))
    (n : Nat) (hm : P m) : P (Action.state (batch n m)) := by
  induction n generalizing m with
  | zero => exact hm
  | succ n ih =>
    have hnext := hstep m hm
    unfold Machine.batch
    cases h : Machine.step m with
    | ok _ m' =>
      rw [h] at hnext
      by_cases ha : m'.awaitingKey = true
      · simp only [ha, if_true]
        exact hnext
      · simp only [ha]
        exact ih hnext
    | error e m' =>
      rw [h] at hnext
      exact hnext

/-- What each step and each tick keeps holds after a frame. -/
theorem frame_induction {P : Machine → Prop} (hstep : ∀ m, P m → P (Action.state (step m)))
    (htick : ∀ m, P m → P m.tick) (hm : P m) : P (Action.state (frame m)) := by
  cases hf : m.fault with
  | some f =>
    rw [frame_of_halted hf]
    exact hm
  | none =>
    have hbatch := batch_induction hstep m.cyclesPerFrame.toNat hm
    unfold Machine.frame
    rw [hf]
    cases h : Machine.batch m.cyclesPerFrame.toNat m with
    | ok _ m' =>
      rw [h] at hbatch
      exact htick m' hbatch
    | error e m' =>
      rw [h] at hbatch
      exact hbatch

theorem Intact.tick (hm : m.Intact) : m.tick.Intact := { hm with timers := hm.timers.tick }

theorem WellFormed.tick (hm : m.WellFormed) : m.tick.WellFormed :=
  { hm with timers := hm.timers.tick }

theorem WellFormed.frame (hm : m.WellFormed) : (Action.state (frame m)).WellFormed :=
  frame_induction (fun _ h => h.step) (fun _ h => h.tick) hm

end Machine

end Chip8
