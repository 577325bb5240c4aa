import Mathlib.Logic.Function.Iterate
import Chip8.Proofs.Keypad.Sampling
import Chip8.Proofs.Machine.Frame

/-!
# Waiting for a key

An instruction that waits for a key, over the frames in which none is held and the one in which
some are.

* `Machine.waited` is the machine after some frames that found no key held, and `Machine.found` the
  machine after a try that found one;
* `frames_of_waiting` says that such frames lead there, by an induction on their number that rests
  on `waited_waited`, and `step_of_found` that such a try does;
* `Attainable.key_wait` says what the wait leaves alone, and what the frame that ends it does.
-/

namespace Chip8.Machine

variable {m : Machine} {x : Register} {key : Key}

/-! ### One try -/

theorem effect_waitKey_of_none (hs : m.keypad.sample = none) :
    m.effect (.waitKey x) =
      { m with
        keypad := m.keypad.refresh
        pc := (m.pc - 2) % 0x10000
        awaitingKey := true } := by
  simp [effect, waitTarget, hs]

theorem effect_waitKey_of_some (hs : m.keypad.sample = some key) :
    m.effect (.waitKey x) =
      { m with
        registers := (m.setRegister x (UInt8.ofNat key)).registers
        keypad := m.keypad.refresh
        awaitingKey := false } := by
  simp [effect, waitTarget, hs]

/-- The instruction ahead of a machine that is to wait for a key. -/
def asking (m : Machine) (x : Register) : Instruction :=
  (Operation.waitKey x).instruction m.nextWord

/-- The machine after `k` tries in vain, one in each frame, and what it reported. -/
def waited (m : Machine) (x : Register) (k : Nat) (trace : Array String) : Machine :=
  { m with
    timers := Timers.tick^[k] m.timers
    keypad := m.keypad.refresh
    awaitingKey := true
    completed := m.completed + k
    begun := m.pc
    opcode := some m.nextWord
    instruction := some (m.asking x)
    trace }

/-- The machine after a try that found `key`, and what it reported. -/
def found (m : Machine) (x : Register) (key : Key) (trace : Array String) : Machine :=
  { m with
    registers := (m.setRegister x (UInt8.ofNat key)).registers
    pc := m.pc + 2
    keypad := m.keypad.refresh
    awaitingKey := false
    completed := m.completed + 1
    begun := m.pc
    opcode := some m.nextWord
    instruction := some (m.asking x)
    trace }

theorem NextIs.step_asking (h : m.NextIs (.waitKey x)) (hm : m.Intact) (hf : m.fault = none) :
    step m = .ok () { (m.ready (m.asking x)).effect (.waitKey x) with
      completed := ((m.ready (m.asking x)).effect (.waitKey x)).completed + 1 } :=
  h.step_eq nofun hm hf rfl

/-- A machine that finds no key held goes back to where it was, and a tick completes the frame. -/
theorem step_of_waiting (h : m.NextIs (.waitKey x)) (hm : m.Intact) (hf : m.fault = none)
    (hs : m.keypad.sample = none) :
    ∃ m₁ trace, step m = .ok () m₁ ∧ m₁.awaitingKey = true ∧ m₁.tick = m.waited x 1 trace := by
  have hpc := h.1
  have hback : ((m.ready (m.asking x)).pc - 2) % 0x10000 = m.pc := by
    rw [show (m.ready (m.asking x)).pc = m.pc + 2 from pc_fetched hpc]
    omega
  have hstep := h.step_asking hm hf
  rw [effect_waitKey_of_none (m := m.ready (m.asking x)) hs, hback] at hstep
  exact ⟨_, (m.ready (m.asking x)).trace, hstep, rfl, rfl⟩

/-- A machine that finds a key held stores it and goes on. -/
theorem step_of_found (h : m.NextIs (.waitKey x)) (hm : m.Intact) (hf : m.fault = none)
    (hs : m.keypad.sample = some key) : ∃ trace, step m = .ok () (m.found x key trace) := by
  have hstep := h.step_asking hm hf
  rw [effect_waitKey_of_some (m := m.ready (m.asking x)) hs,
    show (m.ready (m.asking x)).pc = m.pc + 2 from pc_fetched h.1] at hstep
  exact ⟨(m.ready (m.asking x)).trace, hstep⟩

/-! ### Frames in vain -/

/-- Two waits one after the other are one long wait. -/
theorem waited_waited (m : Machine) (x : Register) (j k : Nat) (t t' : Array String) :
    (m.waited x j t).waited x k t' = m.waited x (j + k) t' := by
  have htimers : Timers.tick^[k] (Timers.tick^[j] m.timers) = Timers.tick^[j + k] m.timers := by
    rw [← Function.iterate_add_apply, Nat.add_comm]
  show { m with
    timers := Timers.tick^[k] (Timers.tick^[j] m.timers)
    keypad := m.keypad.refresh.refresh
    awaitingKey := true
    completed := m.completed + j + k
    begun := m.pc
    opcode := some m.nextWord
    instruction := some (m.asking x)
    trace := t' } = _
  rw [htimers, Keypad.refresh_refresh, Nat.add_assoc]
  rfl

/-- A frame that finds no key held runs one instruction, however many a frame has. -/
theorem frame_of_waiting (hm : m.Intact) (hf : m.fault = none) (h : m.NextIs (.waitKey x))
    (hc : 1 ≤ m.cyclesPerFrame) (hs : m.keypad.sample = none) :
    ∃ trace, frame m = .ok () (m.waited x 1 trace) := by
  obtain ⟨m₁, trace, hstep, ha, htick⟩ := step_of_waiting h hm hf hs
  refine ⟨trace, (frame_eq_iff hm hf).2 ?_⟩
  rw [← htick]
  exact .waiting (.cons hstep (fun hk => absurd hk (by omega)) (.zero m₁)) (by omega) ha

/-- Frames that find no key held leave the machine waiting. -/
theorem frames_of_waiting (hm : m.Intact) (hf : m.fault = none) (h : m.NextIs (.waitKey x))
    (hc : 1 ≤ m.cyclesPerFrame) (hs : m.keypad.sample = none) (k : Nat) :
    ∃ trace, frames (k + 1) m = .ok () (m.waited x (k + 1) trace) := by
  induction k generalizing m with
  | zero =>
    obtain ⟨t, hframe⟩ := frame_of_waiting hm hf h hc hs
    exact ⟨t, frames_succ_of_ok hframe 0⟩
  | succ k ih =>
    obtain ⟨t, hframe⟩ := frame_of_waiting hm hf h hc hs
    -- The frame leaves all as it was that the next one depends on.
    have hm₁ : (m.waited x 1 t).Intact := { hm with timers := hm.timers.tick }
    have hs₁ : (m.waited x 1 t).keypad.sample = none := (Keypad.sample_refresh _).trans hs
    obtain ⟨t', hframes⟩ := ih hm₁ hf h hc hs₁
    refine ⟨t', ?_⟩
    rw [frames_succ_of_ok hframe, hframes, waited_waited, Nat.add_comm 1]

/-! ### The whole wait -/

/-- The machine with the keys of a set held, and no other. -/
def holding (m : Machine) (keys : Finset Key) : Machine :=
  { m with keypad := m.keypad.holding keys }

theorem Intact.holding (hm : m.Intact) (keys : Finset Key) : (m.holding keys).Intact :=
  { hm with }

theorem Intact.waited (hm : m.Intact) (x : Register) (k : Nat) (trace : Array String) :
    (m.waited x k trace).Intact := by
  have htimers : (Timers.tick^[k] m.timers).WellFormed := by
    induction k with
    | zero => exact hm.timers
    | succ k ih =>
      rw [Function.iterate_succ_apply']
      exact ih.tick
  exact { hm with timers := htimers }

/-- Once a key is found, only the timers, the count and the report tell of the wait before. -/
theorem found_of_waited (m : Machine) (x : Register) (k : Nat) (t t₀ t₁ : Array String)
    {keys : Finset Key} (h : keys.Nonempty) (key : Key) :
    ((m.waited x k t).holding keys).found x key t₁ =
      { (m.holding keys).found x key t₀ with
        timers := Timers.tick^[k] m.timers
        completed := ((m.holding keys).found x key t₀).completed + k
        trace := t₁ } := by
  show { (m.holding keys).found x key t₀ with
    timers := Timers.tick^[k] m.timers
    keypad := (m.keypad.refresh.holding keys).refresh
    completed := m.completed + k + 1
    trace := t₁ } = _
  rw [Keypad.refresh_holding_refresh _ h, Nat.add_right_comm]
  rfl

/-- **A wait for a key lasts until a frame finds one, and leaves all but the timers alone.** Each
frame in vain counts as one instruction. The frame that finds keys stores the lowest of them and
goes on as if it had not waited. -/
theorem Attainable.key_wait {k : Nat} (hm : m.Attainable) (hf : m.fault = none)
    (h : m.NextIs (.waitKey x)) (hc : 1 ≤ m.cyclesPerFrame) (hk : 1 ≤ k)
    (hheld : ∀ key : Key, m.keypad.held.get key = false) :
    ∃ m', frames k m = .ok () m' ∧
      (m'.registers = m.registers ∧ m'.index = m.index ∧ m'.pc = m.pc ∧ m'.memory = m.memory ∧
        m'.stack = m.stack ∧ m'.screen = m.screen ∧ m'.random = m.random) ∧
      m'.awaitingKey = true ∧ m'.keypad.latch.asserted = false ∧
      m'.completed = m.completed + k ∧ m'.timers = Timers.tick^[k] m.timers ∧
      ∀ (keys : Finset Key) (hkeys : keys.Nonempty), ∃ m₁,
        step (m'.holding keys) = .ok () m₁ ∧
        m₁.registers = (m.setRegister x (UInt8.ofNat (keys.min' hkeys))).registers ∧
        m₁.awaitingKey = false ∧ m₁.pc = m.pc + 2 ∧
        (∃ n₁, step (m.holding keys) = .ok () n₁ ∧
          m₁ = { n₁ with
            timers := m'.timers
            completed := n₁.completed + k
            trace := m₁.trace }) ∧
        ∀ r, frame (m'.holding keys) = r ↔ FrameEnds m₁ (m.cyclesPerFrame.toNat - 1) r := by
  have hs : m.keypad.sample = none := Keypad.sample_eq_none_iff.2 hheld
  obtain ⟨j, rfl⟩ := Nat.exists_eq_add_one.2 hk
  obtain ⟨t, hframes⟩ := frames_of_waiting hm.intact hf h hc hs j
  refine ⟨_, hframes, ⟨rfl, rfl, rfl, rfl, rfl, rfl, rfl⟩, rfl, ?_, rfl, rfl, fun keys hkeys => ?_⟩
  · show m.keypad.refresh.latch.asserted = false
    rw [Keypad.refresh_of_none hs]
  · have hm' := (hm.intact.waited x (j + 1) t).holding keys
    obtain ⟨t₁, hstep⟩ := step_of_found (m := (m.waited x (j + 1) t).holding keys) h hm' hf
      (Keypad.sample_holding _ hkeys)
    obtain ⟨t₀, hstep₀⟩ := step_of_found (m := m.holding keys) h (hm.intact.holding keys) hf
      (Keypad.sample_holding _ hkeys)
    refine ⟨_, hstep, rfl, rfl, rfl, ⟨_, hstep₀, ?_⟩, fun r => ?_⟩
    · exact found_of_waited m x (j + 1) t t₀ t₁ hkeys _
    · exact frame_eq_iff_of_ok hm' hc hstep rfl

/-- A machine that has waited for three frames takes the lower one of two keys. -/
theorem key_wait_of_two_keys :
    ∃ m', frames 3 (standard [0xF0, 0x0A]) = .ok () m' ∧ m'.pc = 0x200 ∧ m'.completed = 3 ∧
      m'.awaitingKey = true ∧ ∃ m₁, step (m'.holding {3, 7}) = .ok () m₁ ∧ m₁.register 0 = 3 ∧
        m₁.pc = 0x202 ∧ m₁.awaitingKey = false := by
  have hm := (reachable_standard [0xF0, 0x0A] (by decide)).attainable
  have hnext : (standard [0xF0, 0x0A]).NextIs (.waitKey 0) := ⟨by decide, nextWord_standard⟩
  have hheld : ∀ key : Key, (standard [0xF0, 0x0A]).keypad.held.get key = false :=
    Keypad.sample_eq_none_iff.1 (Keypad.sample_released digitKeymap)
  obtain ⟨m', hframes, ⟨-, -, hpc, -⟩, ha, -, hcompleted, -, hfound⟩ :=
    hm.key_wait (k := 3) rfl hnext (by decide) (by decide) hheld
  obtain ⟨m₁, hstep, hregisters, ha₁, hpc₁, -⟩ := hfound {3, 7} (by decide)
  have hregister : m₁.register 0 = 3 := by
    unfold register
    rw [hregisters]
    rfl
  exact ⟨m', hframes, hpc, hcompleted, ha, m₁, hstep, hregister, hpc₁, ha₁⟩

end Chip8.Machine
