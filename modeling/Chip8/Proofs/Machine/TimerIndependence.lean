import Chip8.Proofs.Machine.Reachable

/-!
# Machines with other timers

Only the instruction that reads the delay timer takes anything from the timers into another part of
a machine.

* `Machine.SameButTimers` says that two machines agree in all parts but the timers, and
  `Machine.SameEnding` that two runs end in the same way in such machines;
* `SameButTimers.refusal` and `SameButTimers.effect` say that such machines refuse the same
  instructions, and that other instructions keep them so;
* `SameEnding.step` says that a step ends in the same way on both.
-/

namespace Chip8

/-- What a fault says besides its words: its kind, and the instruction that it belongs to. The words
may be a report on the machine, which shows the timers. -/
def Fault.gist (f : Fault) : Fault.Kind × Option Int × Option Int := (f.kind, f.address, f.opcode)

theorem Fault.gist_attach {f g : Fault} (h : g.gist = f.gist) (address opcode : Option Int) :
    (g.attach address opcode).gist = (f.attach address opcode).gist := by
  have hkind : g.cause.kind = f.cause.kind := congrArg Prod.fst h
  have haddress : g.address = f.address := congrArg (·.2.1) h
  have hopcode : g.opcode = f.opcode := congrArg (·.2.2) h
  unfold attach
  rw [haddress]
  split_ifs with hf
  · simp [gist, kind, hkind]
  · simp [gist, kind, hkind, haddress, hopcode]

/-- Of two faults that may not be there, both are or neither is if they say the same. -/
theorem Fault.eq_none_iff_of_gist {o o' : Option Fault} (h : o'.map gist = o.map gist) :
    o' = none ↔ o = none := by
  rw [← Option.map_eq_none_iff, h, Option.map_eq_none_iff]

theorem Fault.gist_eq_of_some {o o' : Option Fault} (h : o'.map gist = o.map gist) {f g : Fault}
    (hf : o = some f) (hg : o' = some g) : g.gist = f.gist := by
  rwa [hf, hg, Option.map_some, Option.map_some, Option.some.injEq] at h

namespace Machine

variable {m n : Machine}

/-- Why an instruction is refused depends on no part but the stack, the memory, the index register and
the address at which it was begun. -/
theorem gist_refusal?_congr (hbegun : n.begun = m.begun) (hstack : n.stack = m.stack)
    (hmemory : n.memory = m.memory) (hindex : n.index = m.index) (i : Instruction) :
    (n.refusal? i).map Fault.gist = (m.refusal? i).map Fault.gist := by
  unfold refusal?
  rw [hstack, hmemory, hindex]
  cases i.operation with
  | machineCode a =>
    -- The reports differ, but they are no part of what is compared.
    show some (Fault.Kind.unimplementedInstruction, some n.begun, some i.opcode) =
      some (Fault.Kind.unimplementedInstruction, some m.begun, some i.opcode)
    rw [hbegun]
  | _ => rfl

/-- Two machines agree in all parts but the timers. They may have frames of different length, and
what they report of themselves may differ where it shows the timers. -/
structure SameButTimers (m n : Machine) : Prop where
  parts : n = { m with
    timers := n.timers
    cyclesPerFrame := n.cyclesPerFrame
    fault := n.fault
    trace := n.trace }
  reload : n.timers.reload = m.timers.reload
  fault : n.fault.map Fault.gist = m.fault.map Fault.gist
  size_trace : n.trace.size = m.trace.size
  trace : m.live = false → n.trace = m.trace

/-- Two runs end in the same way, in machines that agree in all parts but the timers. -/
inductive SameEnding :
    EStateM.Result Error Machine Unit → EStateM.Result Error Machine Unit → Prop
  | completed {m n : Machine} (h : m.SameButTimers n) : SameEnding (.ok () m) (.ok () n)
  | faulted {m n : Machine} {f g : Fault} (hf : g.gist = f.gist) (h : m.SameButTimers n) :
      SameEnding (.error (.fault f) m) (.error (.fault g) n)

namespace SameButTimers

theorem live (h : m.SameButTimers n) : n.live = m.live := by
  rw [h.parts]

theorem symm (h : m.SameButTimers n) : n.SameButTimers m where
  parts := by
    rw [h.parts]
  reload := h.reload.symm
  fault := h.fault.symm
  size_trace := h.size_trace.symm
  trace hl := (h.trace (h.live ▸ hl)).symm

theorem trans {p : Machine} (h : m.SameButTimers n) (h' : n.SameButTimers p) :
    m.SameButTimers p where
  parts := by
    have hp := h'.parts
    rw [h.parts] at hp
    exact hp
  reload := h'.reload.trans h.reload
  fault := h'.fault.trans h.fault
  size_trace := h'.size_trace.trans h.size_trace
  trace hl := (h'.trace (h.live.trans hl)).trans (h.trace hl)

theorem fault_eq_none (h : m.SameButTimers n) (hf : m.fault = none) : n.fault = none := by
  have hfault := h.fault
  rwa [hf, Option.map_none, Option.map_eq_none_iff] at hfault

theorem setCycles (m : Machine) (c : Int) : m.SameButTimers (m.setCycles c) :=
  ⟨rfl, rfl, rfl, rfl, fun _ => rfl⟩

theorem tick (h : m.SameButTimers n) : m.SameButTimers n.tick :=
  { h with parts := by rw [h.parts]; rfl }

theorem count (h : m.SameButTimers n) : SameButTimers
    { m with completed := m.completed + 1 } { n with completed := n.completed + 1 } :=
  { h with parts := by rw [h.parts] }

theorem fetch_eq (h : m.SameButTimers n) : n.pc = m.pc ∧ n.nextWord = m.nextWord := by
  rw [h.parts]
  exact ⟨rfl, rfl⟩

theorem begin (h : m.SameButTimers n) : m.begin.SameButTimers n.begin :=
  { h with parts := by rw [h.parts]; rfl }

theorem fetched (h : m.SameButTimers n) : m.fetched.SameButTimers n.fetched :=
  { h with parts := by rw [h.parts]; rfl }

theorem ready (h : m.SameButTimers n) (i : Instruction) :
    (m.ready i).SameButTimers (n.ready i) where
  parts := by
    rw [h.parts]
    rfl
  reload := h.reload
  fault := h.fault
  size_trace := by
    show (if n.live then n.trace.push _ else n.trace).size =
      (if m.live then m.trace.push _ else m.trace).size
    rw [h.live]
    split_ifs
    · rw [Array.size_push, Array.size_push, h.size_trace]
    · exact h.size_trace
  trace hl := by
    have hm : m.live = false := hl
    show (if n.live then n.trace.push _ else n.trace) =
      (if m.live then m.trace.push _ else m.trace)
    rw [h.live, hm]
    exact h.trace hm

theorem halt (h : m.SameButTimers n) {f g : Fault} (hf : g.gist = f.gist) :
    SameEnding (.error (.fault (f.attach (some m.begun) m.opcode)) (m.halt f))
      (.error (.fault (g.attach (some n.begun) n.opcode)) (n.halt g)) := by
  have hbegun : n.begun = m.begun ∧ n.opcode = m.opcode := by
    rw [h.parts]
    exact ⟨rfl, rfl⟩
  have hgist := Fault.gist_attach hf (some m.begun) m.opcode
  rw [hbegun.1, hbegun.2]
  refine .faulted hgist ⟨?_, h.reload, ?_, h.size_trace, h.trace⟩
  · rw [h.parts]
    rfl
  · show some (Fault.gist (g.attach (some n.begun) n.opcode)) = some _
    rw [hbegun.1, hbegun.2, hgist]

/-- Machines that agree in all parts but the timers refuse the same instructions. -/
theorem refusal (h : m.SameButTimers n) (i : Instruction) :
    (n.refusal? i).map Fault.gist = (m.refusal? i).map Fault.gist := by
  refine gist_refusal?_congr ?_ ?_ ?_ ?_ i <;> rw [h.parts]

/-- No operation but the one that reads the delay timer takes it into another part. -/
theorem effect (h : m.SameButTimers n) {op : Operation} (hop : ∀ x, op ≠ .loadDelay x) :
    (m.effect op).SameButTimers (n.effect op) where
  parts := by
    cases op with
    | loadDelay x => exact absurd rfl (hop x)
    | loadRegisters x =>
      have hfilled : n.filled (n.memory.bytes n.index (x + 1)) =
          m.filled (m.memory.bytes m.index (x + 1)) := by
        unfold filled register
        rw [h.parts]
      show { n with registers := n.filled (n.memory.bytes n.index (x + 1)) } = _
      rw [hfilled, h.parts]
      rfl
    | _ =>
      rw [h.parts]
      rfl
  reload := by
    have hreload : ∀ m : Machine, (m.effect op).timers.reload = m.timers.reload := fun m => by
      cases op <;> rfl
    rw [hreload, hreload, h.reload]
  fault := by
    rw [(effect_bookkeeping n op).1, (effect_bookkeeping m op).1, h.fault]
  size_trace := by
    obtain ⟨-, -, -, -, -, -, htm, -⟩ := effect_bookkeeping m op
    obtain ⟨-, -, -, -, -, -, htn, -⟩ := effect_bookkeeping n op
    rw [htm, htn, h.size_trace]
  trace hl := by
    obtain ⟨-, -, -, -, -, hlm, htm, -⟩ := effect_bookkeeping m op
    obtain ⟨-, -, -, -, -, -, htn, -⟩ := effect_bookkeeping n op
    rw [htm, htn]
    exact h.trace (hlm ▸ hl)

end SameButTimers

namespace SameEnding

variable {r : EStateM.Result Error Machine Unit}

theorem of_ok (h : SameEnding (.ok () m) r) : ∃ n, r = .ok () n ∧ m.SameButTimers n := by
  cases h with
  | completed h => exact ⟨_, rfl, h⟩

theorem of_error {e : Error} (h : SameEnding (.error e m) r) :
    ∃ f g n, e = .fault f ∧ r = .error (.fault g) n ∧ g.gist = f.gist ∧ m.SameButTimers n := by
  cases h with
  | faulted hf h => exact ⟨_, _, _, rfl, rfl, hf, h⟩

theorem symm {r' : EStateM.Result Error Machine Unit} (h : SameEnding r r') : SameEnding r' r := by
  cases h with
  | completed h => exact .completed h.symm
  | faulted hf h => exact .faulted hf.symm h.symm

theorem trans {r' r'' : EStateM.Result Error Machine Unit} (h : SameEnding r r')
    (h' : SameEnding r' r'') : SameEnding r r'' := by
  cases h with
  | completed h =>
    cases h' with
    | completed h' => exact .completed (h.trans h')
  | faulted hf h =>
    cases h' with
    | faulted hf' h' => exact .faulted (hf'.trans hf) (h.trans h')

end SameEnding

/-- Each instruction but the one that reads the delay timer ends in the same way on machines that
agree in all parts but the timers. -/
theorem SameEnding.step (hm : m.Intact) (hn : n.Intact) (h : m.SameButTimers n)
    (hdelay : ∀ x, ¬ m.NextIs (.loadDelay x)) : SameEnding (step m) (step n) := by
  cases hf : m.fault with
  | some f =>
    obtain ⟨g, hg, hgist⟩ : ∃ g, n.fault = some g ∧ g.gist = f.gist := by
      have hfault := h.fault
      rwa [hf, Option.map_some, Option.map_eq_some_iff] at hfault
    rw [step_of_halted hf, step_of_halted hg]
    exact .faulted hgist h
  | none =>
    obtain ⟨hpc, hword⟩ := h.fetch_eq
    refine step_congr hm hn hf (h.fault_eq_none hf) hpc hword ?unfetched ?undecoded ?refusal
      ?refused ?completed
    case unfetched => exact fun _ f => h.begin.halt rfl
    case undecoded =>
      intro _ _
      refine h.fetched.halt ?_
      show (Fault.Kind.unimplementedInstruction, some n.pc, some m.nextWord) =
        (Fault.Kind.unimplementedInstruction, some m.pc, some m.nextWord)
      rw [hpc]
    case refusal => exact fun i => Fault.eq_none_iff_of_gist ((h.ready i).refusal i)
    case refused =>
      intro _ i f g _ hr hr'
      exact (h.ready i).halt (Fault.gist_eq_of_some ((h.ready i).refusal i) hr hr')
    case completed =>
      intro hrange i hi
      have hop : ∀ x, i.operation ≠ .loadDelay x := by
        intro x hx
        obtain ⟨hop, -⟩ := Instruction.of_decode?_eq_some hi
        refine hdelay x ⟨hrange, ?_⟩
        rw [← hx]
        exact (Operation.encode_of_ofOpcode? m.isWord_nextWord hop).symm
      exact .completed ((h.ready i).effect hop).count

theorem NextIs.ne_loadDelay {op : Operation} (h : m.NextIs op) (hop : ∀ a, op ≠ .machineCode a)
    (hne : ∀ x, op ≠ .loadDelay x) (x : Register) : ¬ m.NextIs (.loadDelay x) :=
  fun h' => hne x (h.eq h' hop nofun)

end Machine

end Chip8
