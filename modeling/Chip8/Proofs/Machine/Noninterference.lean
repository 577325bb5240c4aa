import Chip8.Proofs.Keypad.Sampling
import Chip8.Proofs.Machine.History
import Chip8.Proofs.Machine.TimerIndependence

/-!
# What no instruction reads

The key that was latched last, the sound timer, the display behind the screen and the record of the
run are never read before they are written.

* `Screen.Shows` says that two screens have the same pixels, `Machine.Alike` that two machines agree
  in everything that is read;
* `Alike.effect` says that each operation keeps machines alike, `Alike.refusal` that it is refused
  on both for the same reason;
* `SameOutcome.step` says that a step of two such machines has the same outcome on both, and
  `SameOutcome.action` that each event has;
* `Attainable.noninterference` says so of all runs.
-/

namespace Chip8

/-! ### Parts that differ -/

namespace Screen

/-- Two screens have the same size and the same cells, and if `viewed`, also the same display. -/
structure Shows (viewed : Prop) (s t : Screen) : Prop where
  parts : t = { s with display := t.display }
  display : viewed → t.display = s.display

variable {viewed : Prop} {s t : Screen}

theorem Shows.cellAt_eq (h : s.Shows viewed t) (x y : Int) : t.cellAt x y = s.cellAt x y := by
  rw [h.parts]
  rfl

theorem Shows.flip (h : s.Shows viewed t) (x y : Int) : (s.flip x y).Shows viewed (t.flip x y) where
  parts := by
    rw [h.parts]
    rfl
  display hv := by
    rw [h.parts, h.display hv]

theorem Shows.blanked (h : s.Shows viewed t) : s.blanked.Shows viewed t.blanked where
  parts := by
    rw [h.parts]
    rfl
  display hv := by
    rw [h.parts, h.display hv]

/-- A sprite meets the same lit pixels on screens that show the same. -/
theorem Shows.drawn (h : s.Shows viewed t) (x y : Int) (rows : List UInt8) :
    (t.drawn x y rows).1 = (s.drawn x y rows).1 ∧
      (s.drawn x y rows).2.Shows viewed (t.drawn x y rows).2 := by
  unfold Screen.drawn
  generalize false = collided
  induction spriteBits rows generalizing collided s t with
  | nil => exact ⟨rfl, h⟩
  | cons bit bits ih =>
    simp only [List.foldl_cons, drawBit, h.cellAt_eq]
    exact ih (h.flip _ _) _

end Screen

namespace Keypad

theorem refresh_eq (pad : Keypad) : pad.refresh = { pad with latch := pad.refresh.latch } := by
  cases h : pad.sample with
  | none => rw [refresh_of_none h]
  | some key => rw [refresh_of_some h]

end Keypad

namespace Machine

variable {viewed : Prop} {m n : Machine}

/-- Two machines agree in everything that an instruction reads before it is written: they may differ
in the latch, the sound timer, the display, the bytes that their random sources have already given
and the record of their run. Their faults, if there are any, may have different words. -/
structure Alike (viewed : Prop) (m n : Machine) : Prop where
  parts : n = { m with
    screen := n.screen
    timers := n.timers
    keypad := n.keypad
    random := n.random
    fault := n.fault
    completed := n.completed
    begun := n.begun
    opcode := n.opcode
    instruction := n.instruction
    live := n.live
    trace := n.trace }
  screen : m.screen.Shows viewed n.screen
  timers : n.timers = { m.timers with sound := n.timers.sound }
  keypad : n.keypad = { m.keypad with latch := n.keypad.latch }
  rest : n.random.rest = m.random.rest
  fault : n.fault.map Fault.gist = m.fault.map Fault.gist

namespace Alike

theorem fault_eq_none (h : m.Alike viewed n) (hf : m.fault = none) : n.fault = none :=
  (Fault.eq_none_iff_of_gist h.fault).2 hf

theorem exists_fault (h : m.Alike viewed n) {f : Fault} (hf : m.fault = some f) :
    ∃ g, n.fault = some g ∧ g.gist = f.gist := by
  have hfault := h.fault
  rwa [hf, Option.map_some, Option.map_eq_some_iff] at hfault

theorem fetch_eq (h : m.Alike viewed n) : n.pc = m.pc ∧ n.nextWord = m.nextWord := by
  rw [h.parts]
  exact ⟨rfl, rfl⟩

theorem pause_eq (h : m.Alike viewed n) :
    n.awaitingKey = m.awaitingKey ∧ n.cyclesPerFrame = m.cyclesPerFrame := by
  rw [h.parts]
  exact ⟨rfl, rfl⟩

theorem register_eq (h : m.Alike viewed n) (x : Register) : n.register x = m.register x := by
  rw [h.parts]
  rfl

theorem delay_eq (h : m.Alike viewed n) : n.timers.delay = m.timers.delay := by
  rw [h.timers]

theorem sample_eq (h : m.Alike viewed n) : n.keypad.sample = m.keypad.sample := by
  rw [h.keypad]
  rfl

theorem next_eq (h : m.Alike viewed n) : n.random.next = m.random.next := congrFun h.rest 0

/-! #### Operations -/

theorem effect_parts (h : m.Alike viewed n) (op : Operation) :
    n.effect op = { m.effect op with
      screen := (n.effect op).screen
      timers := (n.effect op).timers
      keypad := (n.effect op).keypad
      random := (n.effect op).random
      fault := n.fault
      completed := n.completed
      begun := n.begun
      opcode := n.opcode
      instruction := n.instruction
      live := n.live
      trace := n.trace } := by
  cases op with
  | draw x y rows =>
    have hmemory : n.memory.bytes n.index rows = m.memory.bytes m.index rows := by rw [h.parts]
    have hcollided := (h.screen.drawn (m.register x).toNat (m.register y).toNat
      (m.memory.bytes m.index rows)).1
    simp only [Machine.effect, h.register_eq, hmemory, hcollided, setRegister]
    rw [h.parts]
  | random x mask =>
    simp only [Machine.effect, drawRandom, h.next_eq, setRegister]
    rw [h.parts]
  | loadRegisters x =>
    have hfilled : n.filled (n.memory.bytes n.index (x + 1)) =
        m.filled (m.memory.bytes m.index (x + 1)) := by
      unfold filled register
      rw [h.parts]
    simp only [Machine.effect, hfilled]
    rw [h.parts]
  | skipIfPressed x | skipUnlessPressed x =>
    simp only [Machine.effect, Keypad.isPressed_refresh, h.sample_eq, h.register_eq]
    rw [h.parts]
    rfl
  | waitKey x =>
    simp only [Machine.effect, waitTarget, h.sample_eq]
    rw [h.parts]
    rfl
  | loadDelay x =>
    simp only [Machine.effect, h.delay_eq, setRegister]
    rw [h.parts]
  | _ =>
    rw [h.parts]
    rfl

/-- Each operation keeps machines alike. -/
theorem effect (h : m.Alike viewed n) (op : Operation) :
    (m.effect op).Alike viewed (n.effect op) where
  parts := by
    obtain ⟨hfault, hcompleted, hbegun, hopcode, hinstruction, hlive, htrace, -⟩ :=
      effect_bookkeeping n op
    rw [hfault, hcompleted, hbegun, hopcode, hinstruction, hlive, htrace]
    exact h.effect_parts op
  screen := by
    cases op with
    | clearScreen => exact h.screen.blanked
    | draw x y rows =>
      have hmemory : n.memory.bytes n.index rows = m.memory.bytes m.index rows := by rw [h.parts]
      show (m.screen.drawn _ _ _).2.Shows viewed (n.screen.drawn _ _ _).2
      rw [h.register_eq, h.register_eq, hmemory]
      exact (h.screen.drawn _ _ _).2
    | _ => exact h.screen
  timers := by
    cases op with
    | setDelay x =>
      simp only [Machine.effect, h.register_eq]
      rw [h.timers]
    | setSound x =>
      simp only [Machine.effect]
      rw [h.timers]
    | _ => exact h.timers
  keypad := by
    have hrefresh : n.keypad.refresh =
        { m.keypad.refresh with latch := n.keypad.refresh.latch } := by
      rw [n.keypad.refresh_eq, m.keypad.refresh_eq, h.keypad]
    cases op with
    | skipIfPressed x | skipUnlessPressed x | waitKey x => exact hrefresh
    | _ => exact h.keypad
  rest := by
    cases op with
    | random x mask =>
      refine funext fun k => ?_
      show n.random.stream (n.random.drawn + 1 + k) = m.random.stream (m.random.drawn + 1 + k)
      rw [Nat.add_assoc, Nat.add_assoc]
      exact congrFun h.rest (1 + k)
    | _ => exact h.rest
  fault := by
    rw [(effect_bookkeeping n op).1, (effect_bookkeeping m op).1, h.fault]

/-- Once the same instruction is begun, both machines refuse it for the same reason. -/
theorem refusal (h : m.Alike viewed n) (hbegun : n.begun = m.begun) (i : Instruction) :
    (n.refusal? i).map Fault.gist = (m.refusal? i).map Fault.gist := by
  refine gist_refusal?_congr hbegun ?_ ?_ ?_ i <;> rw [h.parts]

/-! #### The way to an instruction -/

theorem begin (h : m.Alike viewed n) : m.begin.Alike viewed n.begin :=
  { h with parts := by rw [h.parts]; rfl }

theorem fetched (h : m.Alike viewed n) : m.fetched.Alike viewed n.fetched :=
  { h with parts := by rw [h.parts]; rfl }

theorem ready (h : m.Alike viewed n) (i : Instruction) :
    (m.ready i).Alike viewed (n.ready i) :=
  { h with parts := by rw [h.parts]; rfl }

theorem stepped (h : m.Alike viewed n) (i : Instruction) :
    (m.stepped i).Alike viewed (n.stepped i) :=
  { (h.ready i).effect i.operation with
    parts := by
      have hparts := ((h.ready i).effect i.operation).parts
      unfold Machine.stepped
      rw [hparts] }

/-! #### What happens besides -/

theorem tick (h : m.Alike viewed n) : m.tick.Alike viewed n.tick :=
  { h with
    parts := by rw [h.parts]; rfl
    timers := by
      show n.timers.tick = { m.timers.tick with sound := n.timers.tick.sound }
      rw [h.timers]
      rfl }

theorem setHeld (h : m.Alike viewed n) (key : Key) (down : Bool) :
    Alike viewed { m with keypad := m.keypad.setHeld key down }
      { n with keypad := n.keypad.setHeld key down } :=
  { h with
    parts := by rw [h.parts]
    keypad := by
      show n.keypad.setHeld key down = _
      rw [h.keypad]
      rfl }

theorem setCycles (h : m.Alike viewed n) (cycles : Int) :
    (m.setCycles cycles).Alike viewed (n.setCycles cycles) :=
  { h with parts := by rw [h.parts]; rfl }

theorem reset (h : m.Alike viewed n) (address : Int) :
    (m.reset address).Alike viewed (n.reset address) :=
  { h with
    parts := by rw [h.parts]; rfl
    fault := rfl }

end Alike

/-! ### Outcomes -/

/-- Two errors are the same, up to the words of a fault. -/
inductive SameError : Error → Error → Prop
  | same (e : Error) : SameError e e
  | fault {f g : Fault} (h : g.gist = f.gist) : SameError (.fault f) (.fault g)

/-- Two operations have the same outcome, in machines that are alike. -/
inductive SameOutcome (viewed : Prop) :
    EStateM.Result Error Machine Unit → EStateM.Result Error Machine Unit → Prop
  | completed {m n : Machine} (h : m.Alike viewed n) : SameOutcome viewed (.ok () m) (.ok () n)
  | failed {m n : Machine} {e e' : Error} (he : SameError e e') (h : m.Alike viewed n) :
      SameOutcome viewed (.error e m) (.error e' n)

theorem SameOutcome.state {r r' : EStateM.Result Error Machine Unit}
    (h : SameOutcome viewed r r') : (Action.state r).Alike viewed (Action.state r') := by
  cases h with
  | completed h | failed _ h => exact h

/-- Two steps that stop at the same instruction have the same outcome if their faults have. -/
theorem Alike.stopped (h : m.Alike viewed n) (hbegun : n.begun = m.begun)
    (hopcode : n.opcode = m.opcode) {f g : Fault} (hf : g.gist = f.gist) :
    SameOutcome viewed (m.stopped f) (n.stopped g) := by
  have hgist := Fault.gist_attach hf (some m.begun) m.opcode
  unfold Machine.stopped halt
  rw [hbegun, hopcode]
  refine .failed (.fault hgist) { h with parts := ?_, fault := congrArg some hgist }
  rw [h.parts]

namespace SameOutcome

/-- **A step of two machines that are alike has the same outcome on both.** -/
theorem step (hm : m.Intact) (hn : n.Intact) (h : m.Alike viewed n) :
    SameOutcome viewed (step m) (step n) := by
  cases hf : m.fault with
  | some f =>
    obtain ⟨g, hg, hgist⟩ := h.exists_fault hf
    rw [step_of_halted hf, step_of_halted hg]
    exact .failed (.fault hgist) h
  | none =>
    obtain ⟨hpc, hword⟩ := h.fetch_eq
    have hrefusal : ∀ i, ((n.ready i).refusal? i).map Fault.gist =
        ((m.ready i).refusal? i).map Fault.gist := fun i => (h.ready i).refusal hpc i
    refine step_congr hm hn hf (h.fault_eq_none hf) hpc hword ?unfetched ?undecoded ?refusal
      ?refused ?completed
    case unfetched => exact fun _ f => h.begin.stopped hpc rfl rfl
    case undecoded =>
      intro _ _
      refine h.fetched.stopped hpc (congrArg some hword) ?_
      show (Fault.Kind.unimplementedInstruction, some n.pc, some m.nextWord) =
        (Fault.Kind.unimplementedInstruction, some m.pc, some m.nextWord)
      rw [hpc]
    case refusal => exact fun i => Fault.eq_none_iff_of_gist (hrefusal i)
    case refused =>
      intro _ i f g _ hr hr'
      exact (h.ready i).stopped hpc (congrArg some hword)
        (Fault.gist_eq_of_some (hrefusal i) hr hr')
    case completed => exact fun _ i _ => .completed (h.stepped i)

theorem batch (k : Nat) (hm : m.Intact) (hn : n.Intact) (h : m.Alike viewed n) :
    SameOutcome viewed (batch k m) (batch k n) := by
  induction k generalizing m n with
  | zero => exact .completed h
  | succ k ih =>
    have hstep := step hm hn h
    have hm' := hm.step
    have hn' := hn.step
    unfold Machine.batch
    generalize Machine.step m = r at hstep hm'
    generalize Machine.step n = r' at hstep hn'
    cases hstep with
    | completed h' =>
      simp only [h'.pause_eq.1]
      split_ifs
      · exact .completed h'
      · exact ih hm' hn' h'
    | failed he h' => exact .failed he h'

theorem frame (hm : m.Intact) (hn : n.Intact) (h : m.Alike viewed n) :
    SameOutcome viewed (frame m) (frame n) := by
  cases hf : m.fault with
  | some f =>
    obtain ⟨g, hg, hgist⟩ := h.exists_fault hf
    rw [frame_of_halted hf, frame_of_halted hg]
    exact .failed (.fault hgist) h
  | none =>
    have hbatch := batch m.cyclesPerFrame.toNat hm hn h
    rw [frame_eq_batch hf, frame_eq_batch (h.fault_eq_none hf), h.pause_eq.2, Action.bind_apply,
      Action.bind_apply]
    generalize Machine.batch m.cyclesPerFrame.toNat m = r at hbatch ⊢
    generalize Machine.batch m.cyclesPerFrame.toNat n = r' at hbatch ⊢
    cases hbatch with
    | completed h' => exact .completed h'.tick
    | failed he h' => exact .failed he h'

theorem hostKey (h : m.Alike viewed n) (code : Int) (down : Bool) :
    SameOutcome viewed ((Event.hostKey code down).action m) ((Event.hostKey code down).action n) := by
  have hkeymap : n.keypad.keymap = m.keypad.keymap := by rw [h.keypad]
  refine .completed ?_
  show Alike viewed { m with keypad := m.keypad.hostKey code down }
    { n with keypad := n.keypad.hostKey code down }
  unfold Keypad.hostKey
  rw [hkeymap]
  cases m.keypad.keymap.key? code with
  | none => exact h
  | some key => exact h.setHeld key down

theorem hold (h : m.Alike viewed n) (index : Int) (down : Bool) :
    SameOutcome viewed ((Event.hold index down).action m) ((Event.hold index down).action n) := by
  simp only [Event.action, onKeypad, Keypad.hold]
  cases place? 16 index with
  | none => exact .failed (.same _) h
  | some key => exact .completed (h.setHeld key down)

/-- Each event has the same outcome on machines that are alike. -/
theorem action (hm : m.Intact) (hn : n.Intact) (h : m.Alike viewed n) (e : Event) :
    SameOutcome viewed (e.action m) (e.action n) := by
  cases e with
  | step => exact step hm hn h
  | frame => exact frame hm hn h
  | hostKey code down => exact hostKey h code down
  | hold index down => exact hold h index down
  | setCycles cycles => exact .completed (h.setCycles cycles)
  | reset address => exact .completed (h.reset address)

end SameOutcome

/-! ### Runs -/

theorem Intact.afterAll (hm : m.Intact) (es : List Event) : (Event.afterAll es m).Intact := by
  induction es generalizing m with
  | nil => exact hm
  | cons e es ih => exact ih (hm.after e)

theorem Alike.afterAll (hm : m.Intact) (hn : n.Intact) (h : m.Alike viewed n) (es : List Event) :
    (Event.afterAll es m).Alike viewed (Event.afterAll es n) := by
  induction es generalizing m n with
  | nil => exact h
  | cons e es ih => exact ih (hm.after e) (hn.after e) (SameOutcome.action hm hn h e).state

/-- **Stale latches and the record of a run never influence execution.** Two machines that are alike
stay alike whatever is done to both, and whatever is done next is completed on both of them or fails
on both, and then for the same reason. -/
theorem Attainable.noninterference (hm : m.Attainable) (hn : n.Attainable)
    (h : m.Alike viewed n) (es : List Event) :
    (Event.afterAll es m).Alike viewed (Event.afterAll es n) ∧
      ∀ e : Event, SameOutcome viewed (e.action (Event.afterAll es m))
        (e.action (Event.afterAll es n)) := by
  have hafter := h.afterAll hm.intact hn.intact es
  exact ⟨hafter, fun e => .action (hm.intact.afterAll es) (hn.intact.afterAll es) hafter e⟩

/-- A program that skips an instruction if the key of register zero is pressed. -/
def skippingProgram : List UInt8 := [0xE0, 0x9E]

/-- What leaves the key zero latched, although it is not held any more. -/
def latching : List Event := [.hold 0 true, .step, .hold 0 false, .reset 0x200]

/-- A key that is let go after it was found stays in the latch. -/
theorem setHeld_refresh_setHeld (keymap : Keymap) :
    ((Keypad.released keymap).setHeld 0 true).refresh.setHeld 0 false =
      { Keypad.released keymap with latch := ⟨0, true⟩ } := by
  have hsample : ((Keypad.released keymap).setHeld 0 true).sample = some 0 := rfl
  rw [Keypad.refresh_of_some hsample]
  simp [Keypad.setHeld, Keypad.released]

/-- The machine in which the key is still latched. -/
def latched : Machine := Event.afterAll latching (standard skippingProgram)

theorem latched_eq :
    latched = { standard skippingProgram with
      keypad := { Keypad.released digitKeymap with latch := ⟨0, true⟩ }
      completed := 1
      begun := 0x200
      opcode := some 0xE09E
      instruction := some ((Operation.skipIfPressed 0).instruction 0xE09E) } := by
  have hm := (reachable_standard skippingProgram (by decide)).attainable
  have hword : (standard skippingProgram).nextWord = 0xE09E := nextWord_standard
  have hskip : (Event.after (.hold 0 true) (standard skippingProgram)).NextIs (.skipIfPressed 0) :=
    ⟨by decide, hword⟩
  have hstep : Event.after .step (Event.after (.hold 0 true) (standard skippingProgram)) = _ :=
    congrArg Action.state (hskip.step_eq nofun (hm.after _).intact rfl rfl)
  show Event.after (.reset 0x200) (Event.after (.hold 0 false) (Event.after .step _)) = _
  rw [hstep, ← setHeld_refresh_setHeld, ← hword]
  rfl

/-- The two machines go on alike, although one of them has the key latched. -/
theorem noninterference_of_latching :
    (standard skippingProgram).Attainable ∧ latched.Attainable ∧
      (standard skippingProgram).fault = none ∧ latched.fault = none ∧
      (standard skippingProgram).keypad.latch = ⟨0, false⟩ ∧ latched.keypad.latch = ⟨0, true⟩ ∧
      (standard skippingProgram).Alike True latched ∧
      ∀ es, (Event.afterAll es (standard skippingProgram)).Alike True (Event.afterAll es latched) ∧
        ∀ e : Event, SameOutcome True (e.action (Event.afterAll es (standard skippingProgram)))
          (e.action (Event.afterAll es latched)) := by
  have hm := (reachable_standard skippingProgram (by decide)).attainable
  have hn : latched.Attainable :=
    (((hm.after (.hold 0 true)).after .step).after (.hold 0 false)).after (.reset 0x200)
  have halike : (standard skippingProgram).Alike True latched := by
    rw [latched_eq]
    exact ⟨rfl, ⟨rfl, fun _ => rfl⟩, rfl, rfl, rfl, rfl⟩
  have hlatch : latched.fault = none ∧ latched.keypad.latch = ⟨0, true⟩ := by
    rw [latched_eq]
    exact ⟨rfl, rfl⟩
  exact ⟨hm, hn, rfl, hlatch.1, rfl, hlatch.2, halike, hm.noninterference hn halike⟩

end Machine

end Chip8
