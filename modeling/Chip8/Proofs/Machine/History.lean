import Chip8.Proofs.Keypad.Sampling
import Chip8.Proofs.Machine.Frame

/-!
# Histories

All that happens to a machine, broken down to single instructions and single ticks.

* `Machine.Beat` is an entry of a history, `Machine.Move` what each kind of entry does to a machine,
  and `Machine.History` a list of entries that lead from one machine to another;
* `History.completed_eq` says that a machine counts the instructions that its history completes;
* `Event.Unfolds` says which entries an event comes to, with a tick just for a completed frame, and
  `Event.exists_unfolds` that each event comes to some;
* `Attainable.frame_semantics` says what a frame comes to, and what any run of frames comes to.
-/

namespace Chip8

/-- Whether an action does not fail. -/
def Action.isOk {σ α : Type} : EStateM.Result Error σ α → Bool
  | .ok .. => true
  | .error .. => false

namespace Machine

/-- The event is not run by the machine itself, but brought about by its host. -/
def Event.isHosted : Event → Bool
  | .step | .frame => false
  | .hostKey .. | .hold .. | .setCycles _ | .reset _ => true

/-- An entry in the history of a machine. -/
inductive Beat
  /-- The instruction at an address is completed. -/
  | completed (address : Int) (op : Operation)
  /-- An instruction ends in a fault. -/
  | faulted (f : Fault)
  /-- The timers count down by one. -/
  | ticked
  /-- The host intervenes. -/
  | hosted (e : Event)

namespace Beat

def isCompleted : Beat → Bool
  | .completed .. => true
  | _ => false

def isTick : Beat → Bool
  | .ticked => true
  | _ => false

/-- What the host does, if it does something. -/
def event? : Beat → Option Event
  | .hosted e => some e
  | _ => none

end Beat

/-- What happens to a machine at one entry of its history. -/
inductive Move (m : Machine) : Beat → Machine → Prop
  | completed {m' : Machine} {op : Operation} (hop : Operation.ofOpcode? m.nextWord = some op)
      (h : step m = .ok () m') : Move m (.completed m.pc op) m'
  | faulted {m' : Machine} {f : Fault} (hf : m.fault = none)
      (h : step m = .error (.fault f) m') : Move m (.faulted f) m'
  | ticked : Move m .ticked m.tick
  | hosted (e : Event) (he : e.isHosted = true) : Move m (.hosted e) (e.after m)

/-- The entries of a history lead from one machine to another. -/
inductive History : Machine → List Beat → Machine → Prop
  | nil (m : Machine) : History m [] m
  | cons {m m₁ m' : Machine} {b : Beat} {bs : List Beat} (h : Move m b m₁)
      (hs : History m₁ bs m') : History m (b :: bs) m'

variable {m m' m₁ : Machine} {b : Beat} {bs cs : List Beat}

theorem History.single (h : Move m b m') : History m [b] m' := .cons h (.nil m')

theorem History.append (hb : History m bs m₁) (hc : History m₁ cs m') :
    History m (bs ++ cs) m' := by
  induction hb with
  | nil => exact hc
  | cons h _ ih => exact .cons h (ih hc)

/-! ### What a history keeps, and what it counts -/

theorem Move.intact (hm : m.Intact) (h : Move m b m') : m'.Intact := by
  cases h with
  | completed hop h => exact hm.of_step h
  | faulted hf h =>
    have hstep := hm.step
    rwa [h] at hstep
  | ticked => exact hm.tick
  | hosted e he => exact hm.after e

/-- A host does not touch the count of completed instructions. -/
theorem completed_hosted {e : Event} (he : e.isHosted = true) (m : Machine) :
    (e.after m).completed = m.completed := by
  cases e with
  | step | frame => cases he
  | hostKey code down | setCycles c | reset a => rfl
  | hold index down =>
    show (Action.state (onKeypad (Keypad.hold index down) m)).completed = m.completed
    unfold onKeypad Keypad.hold
    cases place? 16 index <;> rfl

theorem Move.completed_eq (hm : m.Intact) (h : Move m b m') :
    m'.completed = m.completed + if b.isCompleted then 1 else 0 := by
  cases h with
  | completed hop h =>
    obtain ⟨-, -, i, -, -, rfl⟩ := hm.of_step_ok h
    exact completed_stepped m i
  | faulted hf h =>
    obtain ⟨f, -, hm'⟩ := hm.of_step_error h
    rw [hm']
    rfl
  | ticked => rfl
  | hosted e he => exact completed_hosted he m

/-- **A machine counts the instructions that its history completes.** -/
theorem History.completed_eq (hm : m.Intact) (h : History m bs m') :
    m'.completed = m.completed + bs.countP Beat.isCompleted := by
  induction h with
  | nil => rfl
  | cons h _ ih =>
    rw [ih (h.intact hm), h.completed_eq hm, List.countP_cons]
    omega

/-! ### The history of an event -/

theorem fault_of_steps (hm : m.Intact) (hf : m.fault = none) {k : Nat}
    (h : steps k m = .ok () m') : m'.fault = none := by
  induction k generalizing m with
  | zero =>
    cases h
    exact hf
  | succ k ih =>
    obtain ⟨m₁, hstep, h⟩ := exists_step_of_steps h
    have hf₁ : m₁.fault = none := by
      obtain ⟨-, -, i, -, -, rfl⟩ := hm.of_step_ok hstep
      rw [fault_stepped, hf]
    exact ih (hm.of_step hstep) hf₁ h

theorem Intact.move_of_step (hm : m.Intact) (h : Machine.step m = .ok () m') :
    ∃ op, Move m (.completed m.pc op) m' := by
  obtain ⟨-, -, i, hi, -, -⟩ := hm.of_step_ok h
  obtain ⟨hop, -⟩ := Instruction.of_decode?_eq_some hi
  exact ⟨i.operation, .completed hop h⟩

/-- Instructions that are completed one after the other are a history of nothing else. -/
theorem exists_history_of_steps (hm : m.Intact) {k : Nat} (h : steps k m = .ok () m') :
    ∃ bs, History m bs m' ∧ ∀ b ∈ bs, b.isCompleted = true := by
  induction k generalizing m with
  | zero =>
    cases h
    exact ⟨[], .nil _, nofun⟩
  | succ k ih =>
    obtain ⟨m₁, hstep, h⟩ := exists_step_of_steps h
    obtain ⟨op, hmove⟩ := hm.move_of_step hstep
    obtain ⟨bs, hbs, hall⟩ := ih (hm.of_step hstep) h
    exact ⟨.completed m.pc op :: bs, .cons hmove hbs, List.forall_mem_cons.2 ⟨rfl, hall⟩⟩

/-- Whether an event is a frame that is completed. -/
def Event.completesFrame (m : Machine) : Event → Bool
  | .frame => Action.isOk (Machine.frame m)
  | .step | .hostKey .. | .hold .. | .setCycles _ | .reset _ => false

/-- The entries are what an event comes to: they tick just if it is a completed frame, and the host
does nothing besides. -/
structure Event.Unfolds (m : Machine) (e : Event) (bs : List Beat) : Prop where
  history : History m bs (e.after m)
  ticks : bs.countP Beat.isTick = (e.completesFrame m).toNat
  hosted : bs.filterMap Beat.event? = [e].filter Event.isHosted

/-- Completed instructions are neither ticks nor done by the host. -/
theorem ticks_and_events_of_completed (h : ∀ b ∈ bs, b.isCompleted = true) :
    bs.countP Beat.isTick = 0 ∧ bs.filterMap Beat.event? = [] := by
  rw [List.countP_eq_zero, List.filterMap_eq_nil_iff]
  have hcompleted : ∀ b ∈ bs, ∃ a op, b = .completed a op := by
    intro b hb
    have := h b hb
    cases b with
    | completed address op => exact ⟨address, op, rfl⟩
    | _ => cases this
  constructor
  · intro b hb
    obtain ⟨a, op, rfl⟩ := hcompleted b hb
    exact Bool.false_ne_true
  · intro b hb
    obtain ⟨a, op, rfl⟩ := hcompleted b hb
    rfl

/-- The entries of a frame are its completed instructions, and one that says how it ends. -/
theorem Event.Unfolds.of_frame (hbs : History m bs m₁) (hall : ∀ b ∈ bs, b.isCompleted = true)
    (h : Move m₁ b (Event.frame.after m)) (he : b.event? = none)
    (hb : b.isTick = Event.frame.completesFrame m) : Event.frame.Unfolds m (bs ++ [b]) := by
  obtain ⟨hticks, hevents⟩ := ticks_and_events_of_completed hall
  refine ⟨hbs.append (.single h), ?_, ?_⟩
  · rw [List.countP_append, hticks, Nat.zero_add, List.countP_singleton, hb]
    cases Event.frame.completesFrame m <;> rfl
  · rw [List.filterMap_append, hevents, List.nil_append, List.filterMap_cons_none he]
    rfl

/-- A frame is a history of completed instructions that ends with a tick or with a fault. -/
theorem exists_unfolds_frame (hm : m.Intact) (hf : m.fault = none) :
    ∃ bs, Event.frame.Unfolds m bs := by
  have hends := (frame_eq_iff hm hf).1 rfl
  cases h : frame m with
  | ok _ m' =>
    have hafter : Event.frame.after m = m' := congrArg Action.state h
    have hok : Event.frame.completesFrame m = true := congrArg Action.isOk h
    rw [h] at hends
    -- A frame that waits ends no different from one that has run all of its instructions.
    obtain ⟨k, m₁, hs, rfl⟩ : ∃ k m₁, Stretch m k m₁ ∧ m' = m₁.tick := by
      cases hends with
      | full hs | waiting hs => exact ⟨_, _, hs, rfl⟩
    obtain ⟨bs, hbs, hall⟩ := exists_history_of_steps hm hs.steps
    exact ⟨_, .of_frame (b := .ticked) hbs hall (hafter ▸ .ticked) rfl hok.symm⟩
  | error e m' =>
    have hafter : Event.frame.after m = m' := congrArg Action.state h
    have hok : Event.frame.completesFrame m = false := congrArg Action.isOk h
    rw [h] at hends
    cases hends with
    | @faulted _ m₁ _ f hs hk ha hstep =>
      obtain ⟨bs, hbs, hall⟩ := exists_history_of_steps hm hs.steps
      have hrun := fault_of_steps hm hf hs.steps
      exact ⟨_, .of_frame (b := .faulted f) hbs hall (hafter ▸ .faulted hrun hstep) rfl hok.symm⟩

/-- What the host does is an entry of its own. -/
theorem Event.Unfolds.of_hosted {e : Event} (he : e.isHosted = true) :
    e.Unfolds m [.hosted e] where
  history := .single (.hosted e he)
  ticks := by
    cases e with
    | step | frame => cases he
    | _ => rfl
  hosted := by
    rw [List.filter_cons_of_pos he]
    rfl

/-- Each event unfolds into the entries of a history. -/
theorem Event.exists_unfolds (hm : m.Intact) (e : Event) : ∃ bs, e.Unfolds m bs := by
  cases e with
  | step =>
    cases h : Machine.step m with
    | ok _ m' =>
      have hafter : Event.step.after m = m' := congrArg Action.state h
      obtain ⟨op, hmove⟩ := hm.move_of_step h
      exact ⟨[.completed m.pc op], hafter ▸ .single hmove, rfl, rfl⟩
    | error e m' =>
      have hafter : Event.step.after m = m' := congrArg Action.state h
      obtain ⟨f, rfl, -⟩ := hm.of_step_error h
      cases hf : m.fault with
      | none => exact ⟨[.faulted f], hafter ▸ .single (.faulted hf h), rfl, rfl⟩
      | some g =>
        rw [step_of_halted hf] at h
        cases h
        exact ⟨[], hafter.symm ▸ .nil m, rfl, rfl⟩
  | frame =>
    cases hf : m.fault with
    | none => exact exists_unfolds_frame hm hf
    | some f =>
      have h := frame_of_halted hf
      have hafter : Event.frame.after m = m := congrArg Action.state h
      have hok : Event.frame.completesFrame m = false := congrArg Action.isOk h
      exact ⟨[], hafter.symm ▸ .nil m, by rw [hok]; rfl, rfl⟩
  | hostKey code down => exact ⟨_, .of_hosted rfl⟩
  | hold index down => exact ⟨_, .of_hosted rfl⟩
  | setCycles c => exact ⟨_, .of_hosted rfl⟩
  | reset a => exact ⟨_, .of_hosted rfl⟩

/-! ### The history of a run -/

/-- The machine after events one after the other. -/
def Event.afterAll (es : List Event) (m : Machine) : Machine := es.foldl (fun m e => e.after m) m

/-- How many of the events that happen to a machine one after the other are completed frames. -/
def completedFrames : List Event → Machine → Nat
  | [], _ => 0
  | e :: es, m => (e.completesFrame m).toNat + completedFrames es (e.after m)

/-- Each run has a history, in which the timers tick once for each completed frame. -/
theorem exists_history (hm : m.Intact) (es : List Event) :
    ∃ bs, History m bs (Event.afterAll es m) ∧
      bs.countP Beat.isTick = completedFrames es m ∧
      bs.filterMap Beat.event? = es.filter Event.isHosted := by
  induction es generalizing m with
  | nil => exact ⟨[], .nil m, rfl, rfl⟩
  | cons e es ih =>
    obtain ⟨bs, hbs⟩ := e.exists_unfolds hm
    obtain ⟨cs, hcs, hticks, hevents⟩ := ih (hm.after e)
    refine ⟨bs ++ cs, hbs.history.append hcs, ?_, ?_⟩
    · rw [List.countP_append, hbs.ticks, hticks]
      rfl
    · rw [List.filterMap_append, hbs.hosted, hevents, ← List.filter_append]
      rfl

/-- **A frame runs its instructions until one waits or faults, and then ticks unless one did
fault.** So a run of frames and other events completes as many instructions as the machine counts,
and its timers tick once for each frame that is completed. -/
theorem Attainable.frame_semantics (hm : m.Attainable) :
    (m.fault = none → ∀ (c : Int) (r : EStateM.Result Error Machine Unit),
      frame (m.setCycles c) = r ↔ FrameEnds (m.setCycles c) c.toNat r) ∧
    ∀ es : List Event, ∃ bs, History m bs (Event.afterAll es m) ∧
      (Event.afterAll es m).completed = m.completed + bs.countP Beat.isCompleted ∧
      bs.countP Beat.isTick = completedFrames es m ∧
      bs.filterMap Beat.event? = es.filter Event.isHosted := by
  constructor
  · intro hf c r
    have hc : (m.setCycles c).Intact := { hm.intact with }
    exact frame_eq_iff hc hf
  · intro es
    obtain ⟨bs, hbs, hticks, hevents⟩ := exists_history hm.intact es
    exact ⟨bs, hbs, hbs.completed_eq hm.intact, hticks, hevents⟩

/-- A program that fills a register and then waits for a key. -/
def waitingProgram : List UInt8 := [0x60, 0x05, 0xF0, 0x0A]

/-- Its first frame runs two of twenty instructions, and ticks once. -/
theorem frame_semantics_of_waiting :
    ∃ m₁ m₂, step (standard waitingProgram) = .ok () m₁ ∧ m₁.awaitingKey = false ∧
      step m₁ = .ok () m₂ ∧ m₂.awaitingKey = true ∧
      frame (standard waitingProgram) = .ok () m₂.tick ∧
      ∃ bs, History (standard waitingProgram) bs m₂.tick ∧ bs.countP Beat.isTick = 1 ∧
        m₂.tick.completed = bs.countP Beat.isCompleted := by
  have h₀ := (reachable_standard waitingProgram (by decide)).attainable
  have hload : (standard waitingProgram).NextIs (.loadByte 0 5) :=
    ⟨by decide, nextWord_standard⟩
  have hstep := hload.step_eq nofun h₀.intact rfl rfl
  generalize hm₁ : (standard waitingProgram).stepped
    ((Operation.loadByte 0 5).instruction (standard waitingProgram).nextWord) = m₁ at hstep
  have hmemory : m₁.memory = (standard waitingProgram).memory := hm₁ ▸ rfl
  have hpc : m₁.pc = 0x202 := hm₁ ▸ rfl
  have hwait : m₁.NextIs (.waitKey 0) :=
    ⟨hpc ▸ by decide, nextWord_of_standard (j := 2) hmemory hpc (by decide) (by decide)⟩
  have hbusy : m₁.awaitingKey = false := hm₁ ▸ rfl
  have hstep₁ := hwait.step_eq nofun (h₀.intact.of_step hstep) (by subst hm₁; rfl) rfl
  generalize hm₂ : m₁.stepped ((Operation.waitKey 0).instruction m₁.nextWord) = m₂ at hstep₁
  have hkeypad : m₁.keypad = .released digitKeymap := hm₁ ▸ rfl
  have hawaiting : m₂.awaitingKey = true := by
    subst hm₂
    show m₁.keypad.sample.isNone = true
    rw [hkeypad, Keypad.sample_released]
    rfl
  obtain ⟨hframe, hruns⟩ := h₀.frame_semantics
  have hstretch : Stretch (standard waitingProgram) 2 m₂ :=
    .cons hstep (fun _ => hbusy) (.cons hstep₁ (fun h => absurd h (by decide)) (.zero m₂))
  have hends : frame (standard waitingProgram) = .ok () m₂.tick :=
    (hframe rfl 20 _).2 (.waiting hstretch (by decide) hawaiting)
  have hzero : (standard waitingProgram).completed = 0 := rfl
  -- From here on the machine is not to be computed any more.
  generalize standard waitingProgram = m at hstep hends hruns hzero ⊢
  obtain ⟨bs, hbs, hcompleted, hticks, -⟩ := hruns [.frame]
  have hafter : Event.afterAll [.frame] m = m₂.tick := by
    show Action.state (frame m) = m₂.tick
    rw [hends]
    rfl
  have hone : completedFrames [.frame] m = 1 := by
    show (Action.isOk (frame m)).toNat + 0 = 1
    rw [hends]
    rfl
  rw [hafter] at hbs hcompleted
  refine ⟨m₁, m₂, hstep, hbusy, hstep₁, hawaiting, hends, bs, hbs, hticks.trans hone, ?_⟩
  rw [hcompleted, hzero, Nat.zero_add]

end Machine

end Chip8
