import Chip8.Proofs.Machine.Faults
import Chip8.Proofs.Machine.History
import Chip8.Proofs.Machine.TimerIndependence

/-!
# The length of frames

Instructions that neither read the delay timer nor wait for a key do the same however many of them
make up a frame.

* `Machine.Oblivious` says that the next instructions are such;
* `SameEnding.batch`, `SameEnding.frame` and `SameEnding.frames` say that a batch, a frame and
  several frames end as their instructions do one by one, and `SameEnding.frame_of_fault` which
  frame a fault ends;
* `Attainable.frame_length_invisible` says this of machines that can come about, and that frames of
  any two lengths end in the same way.
-/

namespace Chip8.Machine

variable {m n : Machine}

/-! ### Runs of instructions -/

/-- None of the next `k` instructions reads the delay timer or leaves the machine waiting for a
key. -/
structure Oblivious (m : Machine) (k : Nat) : Prop where
  delay : ∀ j p, j < k → steps j m = .ok () p → ∀ x, ¬ p.NextIs (.loadDelay x)
  busy : ∀ j p, 0 < j → j ≤ k → steps j m = .ok () p → p.awaitingKey = false

/-- Instructions one after the other, cut in two. -/
theorem steps_add_eq (j k : Nat) (m : Machine) :
    steps (j + k) m = (steps j >>= fun _ => steps k) m := by
  induction j generalizing m with
  | zero => rw [Nat.zero_add, Action.bind_apply, steps_zero]
  | succ j ih =>
    rw [Nat.add_right_comm, Action.bind_apply]
    cases hstep : step m with
    | ok _ m₁ => rw [steps_succ_of_ok hstep, steps_succ_of_ok hstep, ih, Action.bind_apply]
    | error e m₁ => simp only [steps, hstep]

theorem steps_add {j : Nat} {p : Machine} (h : steps j m = .ok () p) (k : Nat) :
    steps (j + k) m = steps k p := by
  rw [steps_add_eq, Action.bind_apply, h]

theorem steps_add_of_error {j : Nat} {e : Error} {p : Machine} (h : steps j m = .error e p)
    (k : Nat) : steps (j + k) m = .error e p := by
  rw [steps_add_eq, Action.bind_apply, h]

theorem exists_steps_of_add {j k : Nat} {p : Machine} (h : steps (j + k) m = .ok () p) :
    ∃ m₁, steps j m = .ok () m₁ ∧ steps k m₁ = .ok () p := by
  cases hs : steps j m with
  | ok _ m₁ => exact ⟨m₁, rfl, (steps_add hs k).symm.trans h⟩
  | error e m₁ =>
    rw [steps_add_of_error hs] at h
    cases h

theorem Intact.of_steps {k : Nat} (hm : m.Intact) (h : steps k m = .ok () n) : n.Intact := by
  induction k generalizing m with
  | zero =>
    cases h
    exact hm
  | succ k ih =>
    obtain ⟨m₁, hstep, h⟩ := exists_step_of_steps h
    exact ih (hm.of_step hstep) h

theorem completed_of_steps {k : Nat} (hm : m.Intact) (h : steps k m = .ok () n) :
    n.completed = m.completed + k := by
  induction k generalizing m with
  | zero =>
    cases h
    rfl
  | succ k ih =>
    obtain ⟨m₁, hstep, h⟩ := exists_step_of_steps h
    have hone : m₁.completed = m.completed + 1 := by
      obtain ⟨-, -, i, -, -, rfl⟩ := hm.of_step_ok hstep
      exact completed_stepped m i
    rw [ih (hm.of_step hstep) h, hone]
    omega

namespace Oblivious

variable {j k : Nat} {p : Machine}

theorem mono (h : m.Oblivious k) (hjk : j ≤ k) : m.Oblivious j where
  delay i p hi := h.delay i p (by omega)
  busy i p h0 hi := h.busy i p h0 (by omega)

theorem after (h : m.Oblivious (j + k)) (hp : steps j m = .ok () p) : p.Oblivious k where
  delay i q hi hq := h.delay (j + i) q (by omega) (by rw [steps_add hp, hq])
  busy i q h0 hi hq := h.busy (j + i) q (by omega) (by omega) (by rw [steps_add hp, hq])

theorem cons {m₁ : Machine} (hstep : step m = .ok () m₁) (hdelay : ∀ x, ¬ m.NextIs (.loadDelay x))
    (ha : m₁.awaitingKey = false) (h : m₁.Oblivious k) : m.Oblivious (k + 1) where
  delay i q hi hq := by
    cases i with
    | zero =>
      cases hq
      exact hdelay
    | succ i => exact h.delay i q (by omega) ((steps_succ_of_ok hstep i).symm.trans hq)
  busy i q h0 hi hq := by
    obtain ⟨i, rfl⟩ := Nat.exists_eq_add_one.2 h0
    rw [steps_succ_of_ok hstep] at hq
    cases i with
    | zero =>
      cases hq
      exact ha
    | succ i => exact h.busy (i + 1) q (by omega) (by omega) hq

theorem of_error {e : Error} (hstep : step m = .error e p)
    (hdelay : ∀ x, ¬ m.NextIs (.loadDelay x)) (k : Nat) : m.Oblivious k where
  delay i q hi hq := by
    cases i with
    | zero =>
      cases hq
      exact hdelay
    | succ i => simp only [steps, hstep, reduceCtorEq] at hq
  busy i q h0 hi hq := by
    obtain ⟨i, rfl⟩ := Nat.exists_eq_add_one.2 h0
    simp only [steps, hstep, reduceCtorEq] at hq

end Oblivious

/-- A batch ends as its instructions do one by one, on a machine that has other timers. -/
theorem SameEnding.batch {k : Nat} (hm : m.Intact) (hn : n.Intact) (h : m.SameButTimers n)
    (hk : m.Oblivious k) : SameEnding (steps k m) (batch k n) := by
  induction k generalizing m n with
  | zero => exact .completed h
  | succ k ih =>
    have hstep := SameEnding.step hm hn h (hk.delay 0 m (by omega) rfl)
    cases hs : Machine.step m with
    | error e m₁ =>
      rw [hs] at hstep
      obtain ⟨f, g, n₁, rfl, hsn, hf, h₁⟩ := hstep.of_error
      simp only [steps, Machine.batch, hs, hsn]
      exact .faulted hf h₁
    | ok _ m₁ =>
      rw [hs] at hstep
      obtain ⟨n₁, hsn, h₁⟩ := hstep.of_ok
      have hbusy : n₁.awaitingKey = false := by
        rw [h₁.parts]
        exact hk.busy 1 m₁ (by omega) (by omega) (steps_succ_of_ok hs 0)
      rw [Nat.add_comm] at hk
      rw [steps_succ_of_ok hs, batch_succ_of_ok hsn hbusy]
      exact ih (hm.of_step hs) (hn.of_step hsn) h₁ (hk.after (steps_succ_of_ok hs 0))

/-! ### Runs of frames -/

theorem cyclesPerFrame_step (hm : m.Intact) :
    (Action.state (step m)).cyclesPerFrame = m.cyclesPerFrame := by
  cases h : step m with
  | ok _ m' =>
    obtain ⟨-, -, i, -, -, rfl⟩ := hm.of_step_ok h
    obtain ⟨-, -, -, -, -, -, -, hcycles⟩ := effect_bookkeeping (m.ready i) i.operation
    exact hcycles
  | error e m' =>
    obtain ⟨f, -, hm'⟩ := hm.of_step_error h
    show m'.cyclesPerFrame = m.cyclesPerFrame
    rw [hm']

/-- A machine keeps the length of its frames. -/
theorem Intact.of_frame (hm : m.Intact) (h : frame m = .ok () n) :
    n.Intact ∧ n.cyclesPerFrame = m.cyclesPerFrame := by
  have hafter := frame_induction (P := fun p => p.Intact ∧ p.cyclesPerFrame = m.cyclesPerFrame)
    (fun p hp => ⟨hp.1.step, (cyclesPerFrame_step hp.1).trans hp.2⟩)
    (fun p hp => ⟨hp.1.tick, hp.2⟩) ⟨hm, rfl⟩
  rwa [h] at hafter

/-- Frames that are all completed begin with one that is completed. -/
theorem exists_frame_of_frames {k : Nat} (h : frames (k + 1) m = .ok () n) :
    ∃ m₁, frame m = .ok () m₁ ∧ frames k m₁ = .ok () n := by
  cases hframe : frame m with
  | ok _ m₁ => exact ⟨m₁, rfl, (frames_succ_of_ok hframe k).symm.trans h⟩
  | error e m₁ =>
    simp only [frames, hframe] at h
    cases h

theorem Intact.of_frames {k : Nat} (hm : m.Intact) (h : frames k m = .ok () n) :
    n.Intact ∧ n.cyclesPerFrame = m.cyclesPerFrame := by
  induction k generalizing m with
  | zero =>
    cases h
    exact ⟨hm, rfl⟩
  | succ k ih =>
    obtain ⟨m₁, hframe, h⟩ := exists_frame_of_frames h
    obtain ⟨hm₁, hcycles⟩ := hm.of_frame hframe
    obtain ⟨hn, hcycles'⟩ := ih hm₁ h
    exact ⟨hn, hcycles'.trans hcycles⟩

/-- Frames one after the other end in the error in which one of them ends. -/
theorem frames_of_error {j k : Nat} {q : Machine} {e : Error} (h : frames j m = .ok () q)
    (hq : frame q = .error e n) (hj : j < k) : frames k m = .error e n := by
  obtain ⟨k, rfl⟩ := Nat.exists_eq_add_one.2 (Nat.zero_lt_of_lt hj)
  induction j generalizing m k with
  | zero =>
    cases h
    simp only [frames, hq]
  | succ j ih =>
    obtain ⟨m₁, hframe, h⟩ := exists_frame_of_frames h
    obtain ⟨i, rfl⟩ := Nat.exists_eq_add_one.2 (show 0 < k by omega)
    rw [frames_succ_of_ok hframe]
    exact ih h i (by omega)

/-- A frame ends as its instructions do one by one. -/
theorem SameEnding.frame {c : Nat} (hm : m.Intact) (hn : n.Intact) (h : m.SameButTimers n)
    (hf : m.fault = none) (hc : n.cyclesPerFrame = c) (hk : m.Oblivious c) :
    SameEnding (steps c m) (frame n) := by
  have hbatch := SameEnding.batch hm hn h hk
  rw [frame_eq_batch (h.fault_eq_none hf), hc, Int.toNat_natCast, Action.bind_apply]
  cases hs : steps c m with
  | ok _ m₁ =>
    rw [hs] at hbatch
    obtain ⟨n₁, hn₁, h₁⟩ := hbatch.of_ok
    rw [hn₁]
    exact .completed h₁.tick
  | error e m₁ =>
    rw [hs] at hbatch
    obtain ⟨f, g, n₁, rfl, hn₁, hfg, h₁⟩ := hbatch.of_error
    rw [hn₁]
    exact .faulted hfg h₁

/-- **Frames end as their instructions do one by one.** -/
theorem SameEnding.frames {c k : Nat} (hm : m.Intact) (hn : n.Intact) (h : m.SameButTimers n)
    (hf : m.fault = none) (hc : n.cyclesPerFrame = c) (hk : m.Oblivious (k * c)) :
    SameEnding (steps (k * c) m) (frames k n) := by
  -- By induction on the frames. The next one begins where its instructions have led the machine
  -- that is not ticked, up to the timers.
  induction k generalizing m n with
  | zero =>
    rw [Nat.zero_mul]
    exact .completed h
  | succ k ih =>
    rw [Nat.succ_mul, Nat.add_comm] at hk ⊢
    have hframe := SameEnding.frame hm hn h hf hc (hk.mono (by omega))
    cases hs : steps c m with
    | ok _ m₁ =>
      rw [hs] at hframe
      obtain ⟨n₁, hn₁, h₁⟩ := hframe.of_ok
      obtain ⟨hn₁', hcycles⟩ := hn.of_frame hn₁
      rw [steps_add hs, frames_succ_of_ok hn₁]
      exact ih (hm.of_steps hs) hn₁' h₁ (fault_of_steps hm hf hs) (hcycles.trans hc) (hk.after hs)
    | error e m₁ =>
      rw [hs] at hframe
      obtain ⟨f, g, n₁, rfl, hn₁, hfg, h₁⟩ := hframe.of_error
      rw [steps_add_of_error hs]
      simp only [Machine.frames, hn₁]
      exact .faulted hfg h₁

/-! ### Faults in the middle of a frame -/

/-- Instructions one after the other end in the fault in which one of them ends. -/
theorem steps_of_fault {j k : Nat} {p m' : Machine} {f : Fault} (hp : steps j m = .ok () p)
    (hstep : step p = .error (.fault f) m') (hj : j < k) :
    steps k m = .error (.fault f) m' := by
  obtain ⟨i, rfl⟩ := Nat.exists_eq_add_of_lt hj
  rw [Nat.add_assoc, steps_add hp]
  simp only [steps, hstep]

/-- A fault after `j` instructions ends the frame that these do not fill. -/
theorem SameEnding.frame_of_fault {c j : Nat} (hc : 1 ≤ c) (hm : m.Intact) (hn : n.Intact)
    (h : m.SameButTimers n) (hf : m.fault = none) (hcycles : n.cyclesPerFrame = c)
    (hk : m.Oblivious (j / c * c + c)) {p m' : Machine} {f : Fault} (hp : steps j m = .ok () p)
    (hstep : Machine.step p = .error (.fault f) m') :
    ∃ q g n', Machine.frames (j / c) n = .ok () q ∧
      Machine.frame q = .error (.fault g) n' ∧ g.gist = f.gist ∧ m'.SameButTimers n' := by
  have hsplit : j / c * c + j % c = j := Nat.div_add_mod' j c
  rw [← hsplit] at hp
  obtain ⟨m₁, hm₁, hp⟩ := exists_steps_of_add hp
  have hframes := SameEnding.frames (k := j / c) hm hn h hf hcycles (hk.mono (by omega))
  rw [hm₁] at hframes
  obtain ⟨q, hq, h₁⟩ := hframes.of_ok
  obtain ⟨hq', hcycles'⟩ := hn.of_frames hq
  have hframe := SameEnding.frame (hm.of_steps hm₁) hq' h₁ (fault_of_steps hm hf hm₁)
    (hcycles'.trans hcycles) (hk.after hm₁)
  rw [steps_of_fault hp hstep (Nat.mod_lt j hc)] at hframe
  obtain ⟨f', g, n', hff, hn', hgist, h'⟩ := hframe.of_error
  cases hff
  exact ⟨q, g, n', hq, hn', hgist, h'⟩

/-- The events of frames that are all completed, and then others. -/
theorem completedFrames_append {k : Nat} (h : frames k m = .ok () n) (es : List Event) :
    Event.afterAll (List.replicate k .frame ++ es) m = Event.afterAll es n ∧
      completedFrames (List.replicate k .frame ++ es) m = k + completedFrames es n := by
  induction k generalizing m with
  | zero =>
    cases h
    exact ⟨rfl, (Nat.zero_add _).symm⟩
  | succ k ih =>
    obtain ⟨m₁, hframe, h⟩ := exists_frame_of_frames h
    have hafter : Event.frame.after m = m₁ := congrArg Action.state hframe
    have hok : Event.frame.completesFrame m = true := congrArg Action.isOk hframe
    obtain ⟨hall, hcount⟩ := ih h
    rw [List.replicate_succ, List.cons_append]
    constructor
    · show Event.afterAll _ (Event.frame.after m) = _
      rw [hafter, hall]
    · show (Event.frame.completesFrame m).toNat + completedFrames _ (Event.frame.after m) = _
      rw [hafter, hok, hcount, Bool.toNat_true]
      omega

/-- A run of frames that ends in a fault has ticked once for each frame before the last one. -/
theorem exists_history_of_fault {k : Nat} {q : Machine} {e : Error} (hm : m.Intact)
    (h : frames k m = .ok () q) (hq : frame q = .error e n) :
    ∃ bs, History m bs n ∧ bs.countP Beat.isTick = k ∧ bs.filterMap Beat.event? = [] := by
  obtain ⟨hall, hcount⟩ := completedFrames_append h [.frame]
  obtain ⟨bs, hbs, hticks, hevents⟩ := exists_history hm (List.replicate k .frame ++ [.frame])
  have hafter : Event.afterAll [.frame] q = n := congrArg Action.state hq
  have hlast : completedFrames [.frame] q = 0 := by
    show (Action.isOk (frame q)).toNat + 0 = 0
    rw [hq]
    rfl
  rw [hall, hafter] at hbs
  rw [hcount, hlast, Nat.add_zero] at hticks
  refine ⟨bs, hbs, hticks, ?_⟩
  rw [hevents, List.filter_eq_nil_iff]
  intro e he
  rcases List.mem_append.1 he with he | he
  · rw [List.eq_of_mem_replicate he]
    exact Bool.false_ne_true
  · rw [List.mem_singleton.1 he]
    exact Bool.false_ne_true

/-! ### Frames of different lengths -/

/-- **The length of frames cannot be seen by a program that does not look at the clock.** If the
next `k * c` instructions neither read the delay timer nor wait for a key, then `k` frames of `c`
instructions end as these instructions do one by one, in a machine that differs in nothing but the
timers. If an instruction ends in a fault after `j` others, so do the frames, after a tick for each
of the `j / c` frames before. So frames of any two lengths end in the same way. -/
theorem Attainable.frame_length_invisible (hm : m.Attainable) (hf : m.fault = none) {c k : Nat}
    (hk : m.Oblivious (k * c)) :
    SameEnding (steps (k * c) m) (frames k (m.setCycles c)) ∧
    (∀ (j : Nat) (p m' : Machine) (f : Fault), j < k * c → steps j m = .ok () p →
      step p = .error (.fault f) m' →
      ∃ q g n bs, frames (j / c) (m.setCycles c) = .ok () q ∧ frame q = .error (.fault g) n ∧
        frames k (m.setCycles c) = .error (.fault g) n ∧
        (g.kind = f.kind ∧ g.address = f.address ∧ g.opcode = f.opcode) ∧ m'.SameButTimers n ∧
        History (m.setCycles c) bs n ∧ bs.filterMap Beat.event? = [] ∧
        bs.countP Beat.isCompleted = j ∧ bs.countP Beat.isTick = j / c) ∧
    ∀ c' k' : Nat, k' * c' = k * c →
      SameEnding (frames k (m.setCycles c)) (frames k' (m.setCycles c')) := by
  have hi := hm.intact
  have hset : ∀ c : Int, (m.setCycles c).Intact := fun c => { hi with }
  have hframes : ∀ c k : Nat, m.Oblivious (k * c) →
      SameEnding (steps (k * c) m) (frames k (m.setCycles c)) := fun c k hk =>
    SameEnding.frames hi (hset c) (.setCycles m c) hf rfl hk
  refine ⟨hframes c k hk, fun j p m' f hj hp hstep => ?_, fun c' k' hkc => ?_⟩
  · have hc : 1 ≤ c := Nat.pos_of_mul_pos_left (Nat.zero_lt_of_lt hj)
    have hlt : j / c < k := Nat.div_lt_of_lt_mul (by rwa [Nat.mul_comm])
    have hwhole : j / c * c + c ≤ k * c := by
      rw [← Nat.succ_mul]
      exact Nat.mul_le_mul_right c hlt
    obtain ⟨q, g, n, hq, hn, hgist, h'⟩ := SameEnding.frame_of_fault hc hi (hset c)
      (.setCycles m c) hf rfl (hk.mono hwhole) hp hstep
    obtain ⟨bs, hbs, hticks, hevents⟩ := exists_history_of_fault (hset c) hq hn
    have hcompleted : bs.countP Beat.isCompleted = j := by
      have hcount := hbs.completed_eq (hset c)
      have hn' : n.completed = m'.completed := by
        rw [h'.parts]
      have hm' : m'.completed = p.completed := by
        obtain ⟨f', -, hm'⟩ := (hi.of_steps hp).of_step_error hstep
        rw [hm']
      have hp' := completed_of_steps hi hp
      have hset' : (m.setCycles c).completed = m.completed := rfl
      omega
    exact ⟨q, g, n, bs, hq, hn, frames_of_error hq hn hlt,
      ⟨congrArg Prod.fst hgist, congrArg (·.2.1) hgist, congrArg (·.2.2) hgist⟩, h', hbs, hevents,
      hcompleted, hticks⟩
  · exact (hframes c k hk).symm.trans (hkc ▸ hframes c' k' (hkc ▸ hk))

/-- A program that sets the delay timer, and then returns from where it was never called. -/
def timedProgram : List UInt8 := [0x60, 0x05, 0xF0, 0x15, 0x00, 0xEE]

/-- In frames of two instructions the return is met after one tick, and in frames of one instruction
the machine ends up in the same way. -/
theorem frame_length_invisible_of_stray_return :
    ∃ q g n, frames 1 ((standard timedProgram).setCycles 2) = .ok () q ∧
      frame q = .error (.fault g) n ∧ g.kind = .stackUnderflow ∧ n.completed = 2 ∧
      SameEnding (frames 2 ((standard timedProgram).setCycles 2))
        (frames 4 ((standard timedProgram).setCycles 1)) := by
  have h₀ := (reachable_standard timedProgram (by decide)).attainable
  have hload : (standard timedProgram).NextIs (.loadByte 0 5) := ⟨by decide, nextWord_standard⟩
  have hstep := hload.step_eq nofun h₀.intact rfl rfl
  generalize hm₁ : (standard timedProgram).stepped
    ((Operation.loadByte 0 5).instruction (standard timedProgram).nextWord) = m₁ at hstep
  have hmemory₁ : m₁.memory = (standard timedProgram).memory := hm₁ ▸ rfl
  have hpc₁ : m₁.pc = 0x202 := hm₁ ▸ rfl
  have hf₁ : m₁.fault = none := hm₁ ▸ rfl
  have hbusy₁ : m₁.awaitingKey = false := hm₁ ▸ rfl
  have hi₁ := h₀.intact.of_step hstep
  have hset : m₁.NextIs (.setDelay 0) :=
    ⟨hpc₁ ▸ by decide, nextWord_of_standard (j := 2) hmemory₁ hpc₁ (by decide) (by decide)⟩
  have hstep₁ := hset.step_eq nofun hi₁ hf₁ rfl
  have hstack₁ : m₁.stack.returns = [] := hm₁ ▸ rfl
  generalize hm₂ : m₁.stepped ((Operation.setDelay 0).instruction m₁.nextWord) = m₂ at hstep₁
  have hmemory₂ : m₂.memory = (standard timedProgram).memory := hm₂ ▸ hmemory₁
  have hpc₂ : m₂.pc = 0x204 := by
    subst hm₂
    show (m₁.pc + 2) % 0x10000 = 0x204
    rw [hpc₁]
    rfl
  have hf₂ : m₂.fault = none := hm₂ ▸ hf₁
  have hbusy₂ : m₂.awaitingKey = false := hm₂ ▸ hbusy₁
  have hstack₂ : m₂.stack.returns = [] := hm₂ ▸ hstack₁
  have hi₂ := hi₁.of_step hstep₁
  have hret : m₂.NextIs .ret :=
    ⟨hpc₂ ▸ by decide, nextWord_of_standard (j := 4) hmemory₂ hpc₂ (by decide) (by decide)⟩
  have hempty : m₂.stack.size = 0 := congrArg List.length hstack₂
  have hfaulty : m₂.Faulty .stackUnderflow := .refused hret.1.2 hret.2 nofun (.ret hempty)
  obtain ⟨f, m', hend, hkind⟩ := hfaulty.of_ends hi₂ (step_ends hi₂ hret.1.1 hf₂)
  have hoblivious : (standard timedProgram).Oblivious (2 * 2) :=
    .cons hstep (hload.ne_loadDelay nofun nofun) hbusy₁ <|
      .cons hstep₁ (hset.ne_loadDelay nofun nofun) hbusy₂ <|
        .of_error hend (hret.ne_loadDelay nofun nofun) 2
  have hsteps : steps 2 (standard timedProgram) = .ok () m₂ :=
    (steps_succ_of_ok hstep 1).trans (steps_succ_of_ok hstep₁ 0)
  obtain ⟨-, hfault, hlengths⟩ := h₀.frame_length_invisible (c := 2) (k := 2) rfl hoblivious
  obtain ⟨q, g, n, bs, hq, hn, -, ⟨hk, -, -⟩, -, hbs, -, hcompleted, -⟩ :=
    hfault 2 m₂ m' f (by decide) hsteps hend
  have hset' : ((standard timedProgram).setCycles 2).Intact := { h₀.intact with }
  have hcount : n.completed = 0 + bs.countP Beat.isCompleted := hbs.completed_eq hset'
  exact ⟨q, g, n, hq, hn, hk.trans hkind, by rw [hcount, hcompleted], hlengths 1 4 rfl⟩

end Chip8.Machine
