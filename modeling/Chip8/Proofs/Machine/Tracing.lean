import Chip8.Proofs.Instruction.Assembly
import Chip8.Proofs.Machine.History

/-!
# Live tracing

A machine that reports every instruction runs as one that does not, and reports just the
instructions that it begins and can decode.

* `Machine.lineAhead?` is the line on the instruction ahead, `Machine.begunAll` are the machines at
  which a run begins an instruction, and `getElem?_begunByBatch` finds them in a frame;
* `Machine.traced` is a machine that reports, and has reported some lines already;
* `step_traced`, `frame_traced` and `action_traced` say what reporting changes of a step, a frame
  and any event: nothing but the lines;
* `create_live_tracing` says so of all runs of machines that are created.
-/

namespace Chip8

/-- The error that an action ends with, if it fails. -/
def Action.error? {σ α : Type} : EStateM.Result Error σ α → Option Error
  | .ok .. => none
  | .error e _ => some e

namespace Text

/-- A text of which nothing stands on a second line. -/
def IsLine (s : String) : Prop := '\n' ∉ s.toList

instance : DecidablePred IsLine := fun _ => inferInstanceAs (Decidable (¬ _))

theorem isLine_append {s t : String} : IsLine (s ++ t) ↔ IsLine s ∧ IsLine t := by
  simp [IsLine, not_or]

theorem isLine_hex (width : Nat) (n : Int) : IsLine (hex width n) := fun h => (plain_hex h).2.2 rfl

theorem isLine_hexBytes (bytes : List UInt8) : IsLine (hexBytes bytes) := by
  unfold IsLine hexBytes
  rw [String.toList_join, List.mem_flatMap]
  rintro ⟨text, htext, h⟩
  obtain ⟨b, -, rfl⟩ := List.mem_map.1 htext
  exact isLine_hex 2 b.toNat h

end Text

theorem Operand.newline_not_mem_listed (os : List Operand) : '\n' ∉ listed os := by
  have htext : ∀ o : Operand, '\n' ∉ o.text.toList := fun o h => (o.plain_text _ h).2.2 rfl
  fun_induction listed os with
  | case1 => exact List.not_mem_nil
  | case2 o => simp [htext]
  | case3 o os _ ih => simp [htext, ih]

theorem Operation.isLine_mnemonic (op : Operation) : Text.IsLine op.mnemonic := by
  unfold Text.IsLine
  rw [toList_mnemonic, List.mem_append]
  rintro (h | h)
  · exact (plain_name op _ h).2.2 rfl
  · exact Operand.newline_not_mem_listed op.operands h

namespace Machine

variable {m m' : Machine}

/-! ### The line on a machine -/

theorem isLine_opcodeText (w : Option Int) : Text.IsLine (opcodeText w) := by
  cases w with
  | none => exact by decide
  | some w => exact Text.isLine_hex 4 w

theorem isLine_line (m : Machine) {text : String} (h : Text.IsLine text) :
    Text.IsLine (m.line text) := by
  unfold line registersText
  simp only [Text.isLine_append, and_assoc]
  exact ⟨by decide, Text.isLine_hexBytes _, by decide, Text.isLine_hex _ _, by decide,
    Text.isLine_hex _ _, by decide, Text.isLine_hex _ _, by decide, Text.isLine_hex _ _, by decide,
    isLine_opcodeText _, by decide, h⟩

/-! ### The lines of a run -/

/-- The line on the instruction ahead: the machine as it is before that instruction is performed,
with the address and the opcode of the instruction. There is none if no instruction can be fetched
or the opcode is not known. -/
def lineAhead? (m : Machine) : Option String :=
  if 0 ≤ m.pc ∧ m.pc ≤ 0xFFE then
    (Instruction.decode? m.nextWord).map fun i =>
      line { m with begun := m.pc, opcode := some m.nextWord } i.mnemonic
  else none

theorem isLine_lineAhead {l : String} (h : m.lineAhead? = some l) : Text.IsLine l := by
  unfold lineAhead? at h
  split_ifs at h
  obtain ⟨i, -, rfl⟩ := Option.map_eq_some_iff.1 h
  exact isLine_line _ (Operation.isLine_mnemonic i.operation)

/-- The lines on the instructions ahead of some machines. -/
def reported (ms : List Machine) : List String := ms.filterMap lineAhead?

/-- The machines at which a batch begins its instructions, in order. -/
def begunByBatch : Nat → Machine → List Machine
  | 0, _ => []
  | k + 1, m =>
    m :: match step m with
      | .ok _ m' => if m'.awaitingKey then [] else begunByBatch k m'
      | .error .. => []

/-- The machines at which an event begins an instruction, in order. A halted machine begins
none. -/
def Event.begun : Event → Machine → List Machine
  | .step, m => if m.fault = none then [m] else []
  | .frame, m => if m.fault = none then begunByBatch m.cyclesPerFrame.toNat m else []
  | .hostKey .., _ | .hold .., _ | .setCycles _, _ | .reset _, _ => []

/-- The machines at which events one after the other begin an instruction, in order. -/
def begunAll : List Event → Machine → List Machine
  | [], _ => []
  | e :: es, m => e.begun m ++ begunAll es (e.after m)

theorem begunByBatch_succ_of_ok {m₁ : Machine} (h : step m = .ok () m₁)
    (ha : m₁.awaitingKey = false) (k : Nat) :
    begunByBatch (k + 1) m = m :: begunByBatch k m₁ := by
  simp [begunByBatch, h, ha]

theorem begunByBatch_succ_of_not_busy
    (h : ∀ m₁, step m = .ok () m₁ → m₁.awaitingKey = true) (k : Nat) :
    begunByBatch (k + 1) m = [m] := by
  unfold begunByBatch
  cases hstep : step m with
  | ok _ m₁ => simp [h m₁ hstep]
  | error e m₁ => rfl

/-- A batch begins an instruction after each stretch that leaves the machine busy, and begins no
other. -/
theorem getElem?_begunByBatch {k j : Nat} :
    (begunByBatch k m)[j]? = some m' ↔
      j < k ∧ Stretch m j m' ∧ (0 < j → m'.awaitingKey = false) := by
  induction k generalizing m j with
  | zero => simp [begunByBatch]
  | succ k ih =>
    cases j with
    | zero =>
      constructor
      · intro h
        cases h
        exact ⟨Nat.succ_pos k, .zero _, fun h => absurd h (Nat.lt_irrefl 0)⟩
      · rintro ⟨-, hs, -⟩
        cases hs.steps
        rfl
    | succ j =>
      by_cases hbusy : ∃ m₁, step m = .ok () m₁ ∧ m₁.awaitingKey = false
      · obtain ⟨m₁, h, ha⟩ := hbusy
        rw [begunByBatch_succ_of_ok h ha, List.getElem?_cons_succ, ih]
        constructor
        · rintro ⟨hj, hs, ha'⟩
          refine ⟨Nat.succ_lt_succ hj, hs.cons h fun _ => ha, fun _ => ?_⟩
          cases j with
          | zero =>
            cases hs.steps
            exact ha
          | succ j => exact ha' (Nat.succ_pos j)
        · rintro ⟨hj, hs, ha'⟩
          obtain ⟨m₂, hstep, -, hs'⟩ := hs.uncons
          rw [h] at hstep
          cases hstep
          exact ⟨Nat.lt_of_succ_lt_succ hj, hs', fun _ => ha' (Nat.succ_pos j)⟩
      · -- The batch is over after its first instruction.
        have hover : ∀ m₁, step m = .ok () m₁ → m₁.awaitingKey = true := fun m₁ h => by
          simpa using fun ha => hbusy ⟨m₁, h, ha⟩
        rw [begunByBatch_succ_of_not_busy hover, List.getElem?_cons_succ, List.getElem?_nil]
        refine ⟨nofun, fun ⟨_, hs, ha'⟩ => ?_⟩
        obtain ⟨m₁, hstep, ha, hs'⟩ := hs.uncons
        have hwaits := hover m₁ hstep
        cases j with
        | zero =>
          cases hs'.steps
          rw [ha' Nat.zero_lt_one] at hwaits
          cases hwaits
        | succ j =>
          rw [ha (Nat.succ_pos j)] at hwaits
          cases hwaits

/-! ### Machines that report -/

/-- The machine with a live trace, in which `lines` stand. -/
def traced (m : Machine) (lines : List String) : Machine :=
  { m with live := true, trace := lines.toArray }

/-- The result in a machine with a live trace. -/
def relayed (lines : List String) :
    EStateM.Result Error Machine Unit → EStateM.Result Error Machine Unit
  | .ok r m => .ok r (m.traced lines)
  | .error e m => .error e (m.traced lines)

theorem effect_traced (m : Machine) (lines : List String) (op : Operation) :
    (m.traced lines).effect op = (m.effect op).traced lines := by
  have hrecord : m.traced lines = m.withRecord (m.traced lines) := rfl
  obtain ⟨hfault, hcompleted, hbegun, hopcode, hinstruction, -, -, -⟩ := effect_bookkeeping m op
  rw [hrecord, effect_withRecord]
  simp only [withRecord, traced, hfault, hcompleted, hbegun, hopcode, hinstruction]

theorem refusal?_traced (m : Machine) (lines : List String) (i : Instruction) :
    (m.traced lines).refusal? i = m.refusal? i := by
  unfold refusal?
  cases i.operation <;> rfl

/-- A machine that reports adds the line on the instruction to its trace. -/
theorem ready_traced (m : Machine) (lines : List String) (i : Instruction) :
    (m.traced lines).ready i = (m.ready i).traced (lines ++ [m.fetched.line i.mnemonic]) := by
  unfold traced
  rw [← List.push_toArray]
  rfl

theorem stepped_traced (m : Machine) (lines : List String) (i : Instruction) :
    (m.traced lines).stepped i = (m.stepped i).traced (lines ++ [m.fetched.line i.mnemonic]) := by
  unfold stepped
  rw [ready_traced, effect_traced]
  rfl

/-- A step of a machine that reports is the same step, and adds the line on the instruction
ahead. -/
theorem step_traced (hm : m.Intact) (hf : m.fault = none)
    (lines : List String) :
    step (m.traced lines) = relayed (lines ++ m.lineAhead?.toList) (step m) := by
  have hn : (m.traced lines).Intact := { hm with }
  refine step_congr (n := m.traced lines) hm hn hf hf rfl rfl
    (S := fun r r' => r' = relayed (lines ++ m.lineAhead?.toList) r) ?unfetched ?undecoded ?refusal
    ?refused ?completed
  case unfetched =>
    intro hrange f
    rw [lineAhead?, if_neg hrange, Option.toList_none, List.append_nil]
    rfl
  case undecoded =>
    intro hrange hi
    rw [lineAhead?, if_pos hrange, hi, Option.map_none, Option.toList_none, List.append_nil]
    rfl
  case refusal =>
    intro i
    rw [ready_traced, refusal?_traced]
  case refused =>
    intro hrange i f g hi hf hg
    rw [ready_traced, refusal?_traced, hf] at hg
    cases hg
    rw [lineAhead?, if_pos hrange, hi, ready_traced]
    rfl
  case completed =>
    intro hrange i hi
    rw [lineAhead?, if_pos hrange, hi, stepped_traced]
    rfl

/-! ### Frames and other events -/

theorem reported_cons (m : Machine) (ms : List Machine) :
    reported (m :: ms) = m.lineAhead?.toList ++ reported ms := by
  unfold reported
  cases h : m.lineAhead? <;> simp [h]

/-- A batch of a machine that reports is the same batch, and adds the lines on the instructions that
it begins. -/
theorem batch_traced (k : Nat) (hm : m.Intact) (hf : m.fault = none) (lines : List String) :
    batch k (m.traced lines) = relayed (lines ++ reported (begunByBatch k m)) (batch k m) := by
  induction k generalizing m lines with
  | zero =>
    show _ = EStateM.Result.ok () (m.traced (lines ++ []))
    rw [List.append_nil]
    rfl
  | succ k ih =>
    have hstep := step_traced hm hf lines
    cases h : Machine.step m with
    | error e m₁ =>
      have hover : begunByBatch (k + 1) m = [m] :=
        begunByBatch_succ_of_not_busy (fun m₁ h' => by rw [h] at h'; cases h') k
      rw [h] at hstep
      rw [hover, reported_cons]
      simp [Machine.batch, h, hstep, relayed, reported]
    | ok _ m₁ =>
      rw [h] at hstep
      cases ha : m₁.awaitingKey with
      | true =>
        have hover : begunByBatch (k + 1) m = [m] :=
          begunByBatch_succ_of_not_busy (fun m₂ h' => by rw [h] at h'; cases h'; exact ha) k
        have ha' : (m₁.traced (lines ++ m.lineAhead?.toList)).awaitingKey = true := ha
        rw [hover, reported_cons]
        simp [Machine.batch, h, hstep, relayed, reported, ha, ha']
      | false =>
        have hf₁ : m₁.fault = none := by
          obtain ⟨-, -, i, -, -, rfl⟩ := hm.of_step_ok h
          rw [fault_stepped, hf]
        rw [begunByBatch_succ_of_ok h ha, reported_cons, ← List.append_assoc,
          batch_succ_of_ok hstep ha, batch_succ_of_ok h ha]
        exact ih (hm.of_step h) hf₁ _

theorem frame_traced (hm : m.Intact) (hf : m.fault = none) (lines : List String) :
    frame (m.traced lines) =
      relayed (lines ++ reported (begunByBatch m.cyclesPerFrame.toNat m)) (frame m) := by
  have hcycles : (m.traced lines).cyclesPerFrame = m.cyclesPerFrame := rfl
  rw [frame_eq_batch hf, frame_eq_batch (m := m.traced lines) hf, Action.bind_apply,
    Action.bind_apply, hcycles, batch_traced _ hm hf]
  cases batch m.cyclesPerFrame.toNat m <;> rfl

/-- **Reporting changes nothing of an event but the lines.** -/
theorem action_traced (hm : m.Intact) (e : Event) (lines : List String) :
    e.action (m.traced lines) = relayed (lines ++ reported (e.begun m)) (e.action m) := by
  cases e with
  | step =>
    show Machine.step _ = relayed _ (Machine.step m)
    cases hf : m.fault with
    | none =>
      rw [step_traced hm hf, Event.begun, if_pos hf, reported_cons]
      simp [reported]
    | some f =>
      rw [step_of_halted hf, step_of_halted (m := m.traced lines) hf, Event.begun, hf]
      simp [reported, relayed]
  | frame =>
    show Machine.frame _ = relayed _ (Machine.frame m)
    cases hf : m.fault with
    | none => rw [frame_traced hm hf, Event.begun, if_pos hf]
    | some f =>
      rw [frame_of_halted hf, frame_of_halted (m := m.traced lines) hf, Event.begun, hf]
      simp [reported, relayed]
  | hostKey code down | setCycles cycles | reset address =>
    simp only [Event.begun, reported, List.filterMap_nil, List.append_nil]
    rfl
  | hold index down =>
    simp only [Event.begun, reported, List.filterMap_nil, List.append_nil, Event.action, onKeypad,
      Keypad.hold]
    cases place? 16 index <;> rfl

/-! ### Runs -/

theorem afterAll_traced (hm : m.Intact) (es : List Event) (lines : List String) :
    Event.afterAll es (m.traced lines) =
      (Event.afterAll es m).traced (lines ++ reported (begunAll es m)) := by
  induction es generalizing m lines with
  | nil =>
    show m.traced lines = m.traced (lines ++ [])
    rw [List.append_nil]
  | cons e es ih =>
    have hafter : e.after (m.traced lines) = (e.after m).traced (lines ++ reported (e.begun m)) := by
      unfold Event.after
      rw [action_traced hm]
      cases e.action m <;> rfl
    have hbegun : reported (begunAll (e :: es) m) =
        reported (e.begun m) ++ reported (begunAll es (e.after m)) := List.filterMap_append
    show Event.afterAll es (e.after (m.traced lines)) = _
    rw [hafter, ih (hm.after e), hbegun, List.append_assoc]
    rfl

/-- A machine that does not report. -/
structure Silent (m : Machine) : Prop extends Intact m where
  live : m.live = false
  trace : m.trace = #[]

theorem Silent.step (hm : m.Silent) : (Action.state (step m)).Silent := by
  have hready : ∀ i, (m.ready i).live = false ∧ (m.ready i).trace = #[] := fun i => by
    refine ⟨hm.live, ?_⟩
    show (if m.live then m.trace.push _ else m.trace) = #[]
    rw [hm.live, hm.trace]
    rfl
  have hrecord : (Action.state (Machine.step m)).live = false ∧
      (Action.state (Machine.step m)).trace = #[] := by
    cases hf : m.fault with
    | some f =>
      rw [step_of_halted hf]
      exact ⟨hm.live, hm.trace⟩
    | none =>
      -- The endings of one step: it is compared with itself.
      refine step_congr hm.toIntact hm.toIntact hf hf rfl rfl
        (S := fun r _ => (Action.state r).live = false ∧ (Action.state r).trace = #[])
        (fun _ _ => ⟨hm.live, hm.trace⟩) (fun _ _ => ⟨hm.live, hm.trace⟩) (fun _ => Iff.rfl)
        (fun _ i _ _ _ _ _ => hready i) (fun _ i _ => ?_)
      obtain ⟨-, -, -, -, -, hlive, htrace, -⟩ := effect_bookkeeping (m.ready i) i.operation
      exact ⟨hlive.trans (hready i).1, htrace.trans (hready i).2⟩
  exact { hm.toIntact.step with live := hrecord.1, trace := hrecord.2 }

theorem Silent.afterAll (hm : m.Silent) (es : List Event) : (Event.afterAll es m).Silent := by
  induction es generalizing m with
  | nil => exact hm
  | cons e es ih =>
    refine ih (Event.after_induction (fun _ h => h.step) (fun m h => ?_) (fun m pad h => ?_)
      (fun m c h => ?_) (fun m a h => ?_) hm e)
    · exact { h.tick with live := h.live, trace := h.trace }
    all_goals exact { h with }

/-! ### Machines that are created -/

variable {program : List UInt8} {keymap : Keymap} {display : Display} {random : RandomSource}
  (settings : Settings)

/-- Whether a machine reports has no part in whether it can be created. -/
theorem create_live (h : create program keymap display random { settings with live := false } =
    .ok m) :
    create program keymap display random { settings with live := true } = .ok (m.traced []) := by
  obtain ⟨hload, timers, htimers, rfl⟩ := create_eq_ok_iff.1 h
  exact create_eq_ok_iff.2 ⟨hload, timers, htimers, rfl⟩

theorem Silent.of_create
    (h : create program keymap display random { settings with live := false } = .ok m) :
    m.Silent := by
  have hintact := (WellFormed.of_create h).toIntact
  obtain ⟨-, timers, -, rfl⟩ := create_eq_ok_iff.1 h
  exact { hintact with live := rfl, trace := rfl }

/-- **Live tracing is transparent and complete.** Two machines are created, of which only one
reports. Whatever happens to both of them, they differ in nothing but the trace, and the next event
ends in the same error on both, if it fails. The one has nothing in its trace; the other has just
the line on each instruction that was begun and that could be decoded, in order, and each of these
is a single line. -/
theorem create_live_tracing
    (h : create program keymap display random { settings with live := false } = .ok m) :
    ∃ n, create program keymap display random { settings with live := true } = .ok n ∧
      ∀ es : List Event,
        Event.afterAll es n =
          { Event.afterAll es m with
            live := true
            trace := ((begunAll es m).filterMap lineAhead?).toArray } ∧
        (Event.afterAll es m).live = false ∧ (Event.afterAll es m).trace = #[] ∧
        (∀ e : Event, Action.error? (e.action (Event.afterAll es n)) =
          Action.error? (e.action (Event.afterAll es m))) ∧
        ∀ l ∈ (begunAll es m).filterMap lineAhead?, Text.IsLine l := by
  refine ⟨m.traced [], create_live settings h, fun es => ?_⟩
  have hsilent := Silent.of_create settings h
  have hes := hsilent.afterAll es
  have hafter := afterAll_traced hsilent.toIntact es []
  refine ⟨hafter, hes.live, hes.trace, fun e => ?_, fun l hl => ?_⟩
  · rw [hafter, action_traced hes.toIntact]
    cases e.action (Event.afterAll es m) <;> rfl
  · obtain ⟨m', -, hl⟩ := List.mem_filterMap.1 hl
    exact isLine_lineAhead hl

/-- A program whose only instruction calls native code. -/
def nativeProgram : List UInt8 := [0x00, 0x00]

/-- A machine is halted after a step from an instruction that is refused. -/
theorem fault_after_step (hm : m.Intact) {i : Instruction} {g : Fault}
    (hi : Instruction.decode? m.nextWord = some i) (hg : (m.ready i).refusal? i = some g) :
    (Event.step.after m).fault ≠ none := by
  show (Action.state (step m)).fault ≠ none
  cases h : step m with
  | ok _ m' =>
    obtain ⟨-, -, j, hj, hnone, -⟩ := hm.of_step_ok h
    rw [hi] at hj
    cases hj
    rw [hg] at hnone
    cases hnone
  | error e m' =>
    obtain ⟨f, -, hm'⟩ := hm.of_step_error h
    show m'.fault ≠ none
    rw [hm']
    exact Option.some_ne_none f

/-- The call is reported, although it faults; the halted machine then reports nothing. -/
theorem create_live_tracing_of_native :
    ∃ m n l, create nativeProgram digitKeymap (.headless none) (.cycle [])
        ⟨none, none, none, false⟩ = .ok m ∧
      create nativeProgram digitKeymap (.headless none) (.cycle []) ⟨none, none, none, true⟩ =
        .ok n ∧
      m.lineAhead? = some l ∧ (Event.afterAll [.step, .step] m).fault ≠ none ∧
      Event.afterAll [.step, .step] n =
        { Event.afterAll [.step, .step] m with live := true, trace := #[l] } := by
  have hcreate := create_standard nativeProgram (by decide)
  have hi : Instruction.decode? (standard nativeProgram).nextWord =
      some ⟨.machineCode, 0, 0, 0, 0, 0, 0⟩ := by
    rw [nativeProgram, nextWord_standard]
    rfl
  have hrange : 0 ≤ (standard nativeProgram).pc ∧ (standard nativeProgram).pc ≤ 0xFFE := by decide
  have hfault : (standard nativeProgram).fault = none := rfl
  generalize standard nativeProgram = m at hcreate hi hrange hfault
  have hm := (WellFormed.of_create hcreate).toIntact
  have hhalted := fault_after_step hm hi rfl
  have hagain : Event.afterAll [.step, .step] m = Event.step.after m := by
    obtain ⟨f, hf⟩ := Option.ne_none_iff_exists'.1 hhalted
    show Action.state (step (Event.step.after m)) = _
    rw [step_of_halted hf]
    rfl
  have hbegun : begunAll [.step, .step] m = [m] := by
    simp [begunAll, Event.begun, hfault, hhalted]
  obtain ⟨n, hn, hruns⟩ := create_live_tracing ⟨none, none, none, false⟩ hcreate
  obtain ⟨hafter, -⟩ := hruns [.step, .step]
  have hline : m.lineAhead? = _ := (if_pos hrange).trans (congrArg (Option.map _) hi)
  refine ⟨m, n, _, hcreate, hn, hline, hagain ▸ hhalted, ?_⟩
  rw [hafter, hbegun, List.filterMap_cons_some hline]
  rfl

end Machine

end Chip8
