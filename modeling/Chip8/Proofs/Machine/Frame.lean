import Chip8.Proofs.Machine.Reachable

/-!
# Frames

A frame as a number of instructions one after the other, and one tick.

* `Machine.Stretch` says that some instructions of one frame are completed;
* `Machine.FrameEnds` lists the three ways in which a frame ends: all its instructions are
  completed, one of them waits for a key, or one of them ends in a fault;
* `frame_eq_iff` says that a frame has just the result that this list gives it.
-/

namespace Chip8.Machine

variable {m m' m₁ : Machine} {k n : Nat} {r : EStateM.Result Error Machine Unit}

/-- The first `k` instructions of a frame lead from `m` to `m'`: they are completed, and none of
them but the last leaves the machine waiting. -/
structure Stretch (m : Machine) (k : Nat) (m' : Machine) : Prop where
  steps : Machine.steps k m = .ok () m'
  busy : ∀ j m₁, 0 < j → j < k → Machine.steps j m = .ok () m₁ → m₁.awaitingKey = false

/-- The endings of a frame of `n` instructions that begins at `m`. -/
inductive FrameEnds (m : Machine) (n : Nat) : EStateM.Result Error Machine Unit → Prop
  /-- All instructions are completed. -/
  | full {m' : Machine} (h : Stretch m n m') : FrameEnds m n (.ok () m'.tick)
  /-- An instruction waits for a key. -/
  | waiting {k : Nat} {m' : Machine} (h : Stretch m k m') (hk : 0 < k ∧ k ≤ n)
      (ha : m'.awaitingKey = true) : FrameEnds m n (.ok () m'.tick)
  /-- An instruction ends in a fault. -/
  | faulted {k : Nat} {m' m'' : Machine} {f : Fault} (h : Stretch m k m') (hk : k < n)
      (ha : 0 < k → m'.awaitingKey = false) (hf : step m' = .error (.fault f) m'') :
      FrameEnds m n (.error (.fault f) m'')

/-! ### One instruction more in front -/

theorem steps_succ_of_ok (h : step m = .ok () m₁) (k : Nat) : steps (k + 1) m = steps k m₁ := by
  simp only [steps, h]

/-- Instructions that are all completed begin with one that is completed. -/
theorem exists_step_of_steps (h : steps (k + 1) m = .ok () m') :
    ∃ m₁, step m = .ok () m₁ ∧ steps k m₁ = .ok () m' := by
  cases hstep : step m with
  | ok _ m₁ => exact ⟨m₁, rfl, (steps_succ_of_ok hstep k).symm.trans h⟩
  | error e m₁ =>
    simp only [steps, hstep] at h
    cases h

theorem Stretch.zero (m : Machine) : Stretch m 0 m := ⟨rfl, fun _ _ _ hj => absurd hj (by omega)⟩

theorem Stretch.cons (h : step m = .ok () m₁) (ha : 0 < k → m₁.awaitingKey = false)
    (hs : Stretch m₁ k m') : Stretch m (k + 1) m' where
  steps := (steps_succ_of_ok h k).trans hs.steps
  busy := by
    intro j m₂ hj hjk hm₂
    obtain ⟨j, rfl⟩ := Nat.exists_eq_add_of_lt hj
    rw [Nat.zero_add, steps_succ_of_ok h] at hm₂
    cases j with
    | zero =>
      cases hm₂
      exact ha (by omega)
    | succ j => exact hs.busy (j + 1) m₂ (by omega) (by omega) hm₂

/-- A stretch of more than no instruction begins with one that is completed. -/
theorem Stretch.uncons (hs : Stretch m (k + 1) m') :
    ∃ m₁, step m = .ok () m₁ ∧ (0 < k → m₁.awaitingKey = false) ∧ Stretch m₁ k m' := by
  obtain ⟨m₁, h, hsteps⟩ := exists_step_of_steps hs.steps
  refine ⟨m₁, h, fun hk => ?_, hsteps, fun j m₂ hj hjk hm₂ => ?_⟩
  · exact hs.busy 1 m₁ Nat.zero_lt_one (by omega) (steps_succ_of_ok h 0)
  · exact hs.busy (j + 1) m₂ (by omega) (by omega) ((steps_succ_of_ok h j).trans hm₂)

theorem FrameEnds.cons (h : step m = .ok () m₁) (ha : m₁.awaitingKey = false)
    (hr : FrameEnds m₁ n r) : FrameEnds m (n + 1) r := by
  cases hr with
  | full hs => exact .full (hs.cons h fun _ => ha)
  | waiting hs hk hw => exact .waiting (hs.cons h fun _ => ha) (by omega) hw
  | @faulted k m' _ _ hs hk hb hf =>
    refine .faulted (hs.cons h fun _ => ha) (by omega) (fun _ => ?_) hf
    cases k with
    | zero =>
      cases hs.steps
      exact ha
    | succ k => exact hb (by omega)

/-! ### Batches -/

theorem batch_succ_of_ok (h : step m = .ok () m₁) (ha : m₁.awaitingKey = false) (n : Nat) :
    batch (n + 1) m = batch n m₁ := by
  simp [batch, h, ha]

/-- A batch goes on after a stretch that leaves the machine busy. -/
theorem Stretch.batch_add (hs : Stretch m k m') (ha : 0 < k → m'.awaitingKey = false) (n : Nat) :
    batch (k + n) m = batch n m' := by
  induction k generalizing m with
  | zero =>
    cases hs.steps
    rw [Nat.zero_add]
  | succ k ih =>
    obtain ⟨m₁, h, ha₁, hs₁⟩ := hs.uncons
    have hbusy : m₁.awaitingKey = false := by
      cases k with
      | zero =>
        cases hs₁.steps
        exact ha (by omega)
      | succ k => exact ha₁ (by omega)
    rw [Nat.add_right_comm, batch_succ_of_ok h hbusy]
    exact ih hs₁ fun _ => ha (by omega)

/-- A batch is over after a stretch that leaves the machine waiting. -/
theorem Stretch.batch_add_of_waiting (hs : Stretch m k m') (hk : 0 < k)
    (ha : m'.awaitingKey = true) (n : Nat) : batch (k + n) m = .ok () m' := by
  induction k generalizing m with
  | zero => omega
  | succ k ih =>
    obtain ⟨m₁, h, ha₁, hs₁⟩ := hs.uncons
    rw [Nat.add_right_comm]
    cases k with
    | zero =>
      cases hs₁.steps
      simp [batch, h, ha]
    | succ k =>
      rw [batch_succ_of_ok h (ha₁ (by omega))]
      exact ih hs₁ (by omega)

/-! ### Frames -/

theorem frame_eq_batch (hf : m.fault = none) :
    frame m = (batch m.cyclesPerFrame.toNat >>= fun _ => modify tick) m := by
  unfold frame
  rw [hf, Action.bind_apply]
  cases batch m.cyclesPerFrame.toNat m <;> rfl

theorem FrameEnds.of_batch (hm : m.Intact) (n : Nat) :
    FrameEnds m n ((batch n >>= fun _ => modify tick) m) := by
  -- By induction on the instructions left; a first one that neither faults nor waits goes in front
  -- of the ending that the others have.
  induction n generalizing m with
  | zero => exact .full (.zero m)
  | succ n ih =>
    rw [Action.bind_apply]
    cases h : step m with
    | error e m₁ =>
      obtain ⟨f, rfl, -⟩ := hm.of_step_error h
      simp only [batch, h]
      exact .faulted (.zero m) (by omega) (fun hk => absurd hk (by omega)) h
    | ok _ m₁ =>
      by_cases ha : m₁.awaitingKey = true
      · simp only [batch, h, ha]
        exact .waiting ((Stretch.zero m₁).cons h fun hk => absurd hk (by omega)) (by omega) ha
      · have hbusy : m₁.awaitingKey = false := by simpa using ha
        rw [batch_succ_of_ok h hbusy, ← Action.bind_apply]
        exact (ih (hm.of_step h)).cons h hbusy

theorem FrameEnds.batch_eq (h : FrameEnds m n r) :
    (batch n >>= fun _ => modify tick) m = r := by
  rw [Action.bind_apply]
  cases h with
  | @full m' hs =>
    -- The last instruction may leave the machine waiting, so this is not just `batch_add`.
    have hbatch : batch (n + 0) m = .ok () m' := by
      by_cases ha : 0 < n ∧ m'.awaitingKey = true
      · exact hs.batch_add_of_waiting ha.1 ha.2 0
      · rw [hs.batch_add (fun hn => by simpa [hn] using ha) 0]
        rfl
    rw [Nat.add_zero] at hbatch
    rw [hbatch]
    rfl
  | @waiting k m' hs hk ha =>
    rw [← Nat.add_sub_cancel' hk.2, hs.batch_add_of_waiting hk.1 ha]
    rfl
  | @faulted k m' m'' f hs hk ha hf =>
    obtain ⟨j, rfl⟩ := Nat.exists_eq_add_of_lt hk
    rw [Nat.add_assoc, hs.batch_add ha]
    simp only [batch, hf]

/-- What a batch of `n` instructions and a tick come to is what the endings of a frame say. -/
theorem batch_eq_iff (hm : m.Intact) :
    (batch n >>= fun _ => modify tick) m = r ↔ FrameEnds m n r :=
  ⟨fun h => h ▸ FrameEnds.of_batch hm n, FrameEnds.batch_eq⟩

theorem frame_eq_iff (hm : m.Intact) (hf : m.fault = none) :
    frame m = r ↔ FrameEnds m m.cyclesPerFrame.toNat r := by
  rw [frame_eq_batch hf, batch_eq_iff hm]

theorem frames_succ_of_ok (h : frame m = .ok () m₁) (k : Nat) : frames (k + 1) m = frames k m₁ := by
  simp only [frames, h]

/-- A frame goes on after a first instruction that leaves the machine busy. -/
theorem frame_eq_iff_of_ok (hm : m.Intact) (hc : 1 ≤ m.cyclesPerFrame) (h : step m = .ok () m₁)
    (ha : m₁.awaitingKey = false) :
    frame m = r ↔ FrameEnds m₁ (m.cyclesPerFrame.toNat - 1) r := by
  obtain ⟨hf, -⟩ := hm.of_step_ok h
  obtain ⟨n, hn⟩ : ∃ n, m.cyclesPerFrame.toNat = n + 1 :=
    Nat.exists_eq_add_one.2 (by omega)
  rw [frame_eq_batch hf, hn, Action.bind_apply, batch_succ_of_ok h ha, ← Action.bind_apply,
    batch_eq_iff (hm.of_step h)]
  rfl

end Chip8.Machine
