import Chip8.Proofs.Machine.Footprint
import Chip8.Proofs.Machine.Tracing

/-!
# Counting down

The value of a timer after any number of ticks, and after any run of a machine.

* `Timers.countdown` is that value in closed form: a timer that reloads goes through all values from
  the reload value down to zero again and again;
* `Timers.iterate_decay` says that ticks lead there one by one;
* `Machine.timer_step` says that only the instruction that sets a timer changes it, and
  `Machine.timer_afterAll` that otherwise nothing does but the tick of a completed frame;
* `Attainable.timers_count_down` puts this together.
-/

namespace Chip8

namespace Timers

/-- One of the two timers. -/
inductive Kind
  | delay
  | sound
  deriving DecidableEq

/-- What a timer holds. -/
def value (t : Timers) : Kind → Int
  | .delay => t.delay
  | .sound => t.sound

/-- The operation that sets a timer to what a register holds. -/
def Kind.setter : Kind → Register → Operation
  | .delay, x => .setDelay x
  | .sound, x => .setSound x

theorem Kind.setter_ne_machineCode (k : Kind) (x : Register) (a : Fin 4096) :
    k.setter x ≠ .machineCode a := by
  cases k <;> nofun

/-- What a timer holds `n` ticks after it held `v`. -/
def countdown (reload : Option Int) (v : Int) (n : Nat) : Int :=
  match reload with
  | none => max (v - n) 0
  | some r => if (n : Int) ≤ v then v - n else r - (n - v - 1) % (r + 1)

theorem value_tick (t : Timers) (k : Kind) : t.tick.value k = decay t.reload (t.value k) := by
  cases k <;> rfl

theorem iterate_tick (t : Timers) (k : Kind) (n : Nat) :
    (tick^[n] t).reload = t.reload ∧ (tick^[n] t).value k = (decay t.reload)^[n] (t.value k) := by
  induction n with
  | zero => exact ⟨rfl, rfl⟩
  | succ n ih =>
    rw [Function.iterate_succ_apply', Function.iterate_succ_apply', value_tick, ih.1, ih.2]
    exact ⟨ih.1, rfl⟩

/-- What is left on division by `r + 1` goes up by one, and from `r` back to zero. -/
theorem emod_succ {r : Int} (hr : 0 ≤ r) (k : Int) :
    (k + 1) % (r + 1) = if k % (r + 1) = r then 0 else k % (r + 1) + 1 := by
  have h0 := Int.emod_nonneg k (show r + 1 ≠ 0 by omega)
  have h1 := Int.emod_lt_of_pos k (show 0 < r + 1 by omega)
  rw [← Int.emod_add_emod]
  split_ifs with h
  · rw [h, Int.emod_self]
  · exact Int.emod_eq_of_lt (by omega) (by omega)

theorem countdown_of_le {r v : Int} {n : Nat} (h : (n : Int) ≤ v) :
    countdown (some r) v n = v - n :=
  if_pos h

theorem countdown_of_lt {r v : Int} {n : Nat} (h : v < n) :
    countdown (some r) v n = r - (n - v - 1) % (r + 1) :=
  if_neg (by omega)

theorem countdown_zero (reload : Option Int) {v : Int} (hv : 0 ≤ v) : countdown reload v 0 = v := by
  cases reload with
  | none => exact (max_eq_left (by omega)).trans (Int.sub_zero v)
  | some r => exact (countdown_of_le hv).trans (Int.sub_zero v)

/-- A tick leads from each value to the next one. -/
theorem decay_countdown {reload : Option Int} (hr : ∀ r, reload = some r → 0 ≤ r) (v : Int)
    (n : Nat) : decay reload (countdown reload v n) = countdown reload v (n + 1) := by
  cases reload with
  | none =>
    unfold decay countdown
    simp only [Option.getD_none]
    split_ifs <;> omega
  | some r =>
    have hr := hr r rfl
    rcases lt_trichotomy (n : Int) v with hlt | heq | hgt
    · rw [countdown_of_le hlt.le, countdown_of_le (by omega), decay_of_pos _ (by omega)]
      omega
    · -- The timer is at zero, from where it goes back to the reload value.
      have hperiod : ((n + 1 : Nat) - v - 1 : Int) = 0 := by omega
      rw [countdown_of_le heq.le, countdown_of_lt (by omega), decay_of_not_pos _ (by omega), hperiod,
        Int.zero_emod, Int.sub_zero]
      rfl
    · have hnext : ((n + 1 : Nat) - v - 1 : Int) = (n - v - 1) + 1 := by omega
      have hbound := Int.emod_lt_of_pos (n - v - 1) (show 0 < r + 1 by omega)
      rw [countdown_of_lt hgt, countdown_of_lt (by omega), hnext, emod_succ hr]
      split_ifs with hzero
      · rw [decay_of_not_pos _ (by omega), Int.sub_zero]
        rfl
      · rw [decay_of_pos _ (by omega)]
        omega

/-- **A timer counts down from the value it holds, in closed form.** -/
theorem iterate_decay {reload : Option Int} (hr : ∀ r, reload = some r → 0 ≤ r) {v : Int}
    (hv : 0 ≤ v) (n : Nat) : (decay reload)^[n] v = countdown reload v n := by
  induction n with
  | zero => exact (countdown_zero reload hv).symm
  | succ n ih => rw [Function.iterate_succ_apply', ih, decay_countdown hr]

end Timers

namespace Machine

variable {m : Machine} {k : Timers.Kind}

/-! ### Instructions -/

/-- No operation but the one that sets a timer changes what it holds. -/
theorem value_effect {op : Operation} (hop : ∀ x, op ≠ k.setter x) :
    (m.effect op).timers.reload = m.timers.reload ∧
      (m.effect op).timers.value k = m.timers.value k := by
  cases k with
  | delay =>
    cases op with
    | setDelay x => exact absurd rfl (hop x)
    | _ => exact ⟨rfl, rfl⟩
  | sound =>
    cases op with
    | setSound x => exact absurd rfl (hop x)
    | _ => exact ⟨rfl, rfl⟩

/-- A step that does not set a timer leaves it as it is, whether the step is completed or not. -/
theorem timer_step (hm : m.Intact) (h : ∀ x, ¬ m.NextIs (k.setter x)) :
    (Action.state (step m)).timers.reload = m.timers.reload ∧
      (Action.state (step m)).timers.value k = m.timers.value k := by
  cases hstep : step m with
  | ok _ m' =>
    obtain ⟨-, hpc, i, hi, -, rfl⟩ := hm.of_step_ok hstep
    obtain ⟨hop, -⟩ := Instruction.of_decode?_eq_some hi
    refine value_effect (m := m.ready i) fun x hx => h x ⟨hpc, ?_⟩
    rw [← hx]
    exact (Operation.encode_of_ofOpcode? m.isWord_nextWord hop).symm
  | error e m' =>
    obtain ⟨f, -, hm'⟩ := hm.of_step_error hstep
    show m'.timers.reload = _ ∧ m'.timers.value k = _
    rw [hm']
    exact ⟨rfl, rfl⟩

/-! ### Frames and other events -/

/-- A batch none of whose instructions sets a timer leaves it as it is. -/
theorem timer_batch (c : Nat) (hm : m.Intact)
    (h : ∀ p ∈ begunByBatch c m, ∀ x, ¬ p.NextIs (k.setter x)) :
    (Action.state (batch c m)).timers.reload = m.timers.reload ∧
      (Action.state (batch c m)).timers.value k = m.timers.value k := by
  induction c generalizing m with
  | zero => exact ⟨rfl, rfl⟩
  | succ c ih =>
    have hfirst := timer_step hm (h m (List.mem_cons_self ..))
    cases hstep : step m with
    | error e m₁ =>
      rw [hstep] at hfirst
      simpa only [batch, hstep] using hfirst
    | ok _ m₁ =>
      rw [hstep] at hfirst
      cases ha : m₁.awaitingKey with
      | true => simpa only [batch, hstep, ha, if_true] using hfirst
      | false =>
        rw [begunByBatch_succ_of_ok hstep ha] at h
        have hrest := ih (hm.of_step hstep) fun p hp => h p (List.mem_cons_of_mem m hp)
        rw [batch_succ_of_ok hstep ha]
        exact ⟨hrest.1.trans hfirst.1, hrest.2.trans hfirst.2⟩

/-- What an event does to a timer that none of its instructions sets: a frame that is completed
counts it down, and nothing else changes it. -/
theorem timer_after (hm : m.Intact) (e : Event)
    (h : ∀ p ∈ e.begun m, ∀ x, ¬ p.NextIs (k.setter x)) :
    (e.after m).timers.reload = m.timers.reload ∧
      (e.after m).timers.value k =
        (Timers.decay m.timers.reload)^[(e.completesFrame m).toNat] (m.timers.value k) := by
  cases e with
  | step =>
    show (Action.state (Machine.step m)).timers.reload = _ ∧
      (Action.state (Machine.step m)).timers.value k = m.timers.value k
    cases hf : m.fault with
    | some f =>
      rw [step_of_halted hf]
      exact ⟨rfl, rfl⟩
    | none =>
      rw [Event.begun, if_pos hf] at h
      exact timer_step hm (h m (List.mem_singleton_self m))
  | frame =>
    show (Action.state (Machine.frame m)).timers.reload = _ ∧
      (Action.state (Machine.frame m)).timers.value k =
        (Timers.decay m.timers.reload)^[(Action.isOk (Machine.frame m)).toNat] (m.timers.value k)
    cases hf : m.fault with
    | some f =>
      rw [frame_of_halted hf]
      exact ⟨rfl, rfl⟩
    | none =>
      rw [Event.begun, if_pos hf] at h
      have hbatch := timer_batch _ hm h
      rw [frame_eq_batch hf, Action.bind_apply]
      cases hend : batch m.cyclesPerFrame.toNat m with
      | error e m₁ =>
        rw [hend] at hbatch
        exact hbatch
      | ok _ m₁ =>
        rw [hend] at hbatch
        obtain ⟨hreload, hvalue⟩ := hbatch
        refine ⟨hreload, ?_⟩
        show m₁.timers.tick.value k = Timers.decay m.timers.reload (m.timers.value k)
        rw [Timers.value_tick, ← hreload, ← hvalue]
        rfl
  | hostKey code down | setCycles c | reset a => exact ⟨rfl, rfl⟩
  | hold index down =>
    show (Action.state (onKeypad (Keypad.hold index down) m)).timers.reload = _ ∧
      (Action.state (onKeypad (Keypad.hold index down) m)).timers.value k = m.timers.value k
    unfold onKeypad Keypad.hold
    cases place? 16 index <;> exact ⟨rfl, rfl⟩

/-- A run none of whose instructions sets a timer counts it down once for each completed frame. -/
theorem timer_afterAll (hm : m.Intact) (es : List Event)
    (h : ∀ p ∈ begunAll es m, ∀ x, ¬ p.NextIs (k.setter x)) :
    (Event.afterAll es m).timers.reload = m.timers.reload ∧
      (Event.afterAll es m).timers.value k =
        (Timers.decay m.timers.reload)^[completedFrames es m] (m.timers.value k) := by
  induction es generalizing m with
  | nil => exact ⟨rfl, rfl⟩
  | cons e es ih =>
    obtain ⟨hfirst, hrest⟩ := List.forall_mem_append.1 h
    obtain ⟨hreload, hvalue⟩ := timer_after hm e hfirst
    obtain ⟨hreload', hvalue'⟩ := ih (hm.after e) hrest
    refine ⟨hreload'.trans hreload, hvalue'.trans ?_⟩
    rw [hreload, hvalue, ← Function.iterate_add_apply, Nat.add_comm]
    rfl

/-- **Timers count down in closed form.** Ticks lead each of the two timers along the same law,
whatever the other one holds. On any machine that can come about, so do its completed frames, as
long as no instruction sets that timer, whatever else the program and its host do. -/
theorem Attainable.timers_count_down (hm : m.Attainable) :
    (∀ (t : Timers) (k : Timers.Kind) (n : Nat), (∀ r, t.reload = some r → 0 ≤ r ∧ r ≤ 255) →
      0 ≤ t.value k →
      (Timers.tick^[n] t).value k = Timers.countdown t.reload (t.value k) n) ∧
    ∀ (es : List Event) (k : Timers.Kind),
      (∀ p ∈ begunAll es m, ∀ x, ¬ p.NextIs (k.setter x)) →
      (Event.afterAll es m).timers.value k =
        Timers.countdown m.timers.reload (m.timers.value k) (completedFrames es m) := by
  have hbyte : 0 ≤ m.timers.delay ∧ 0 ≤ m.timers.sound :=
    ⟨hm.intact.timers.delay.1, hm.intact.timers.sound.1⟩
  constructor
  · intro t k n hr hv
    rw [(Timers.iterate_tick t k n).2, Timers.iterate_decay (fun r h => (hr r h).1) hv]
  · intro es k h
    have hv : 0 ≤ m.timers.value k := by
      cases k with
      | delay => exact hbyte.1
      | sound => exact hbyte.2
    rw [(timer_afterAll hm.intact es h).2,
      Timers.iterate_decay (fun r hr => (hm.intact.timers.reload r hr).1) hv]

/-- Frames of no instructions are all completed. -/
theorem frames_of_no_cycles (hf : m.fault = none) (hc : m.cyclesPerFrame ≤ 0) (n : Nat) :
    begunAll (List.replicate n .frame) m = [] ∧
      completedFrames (List.replicate n .frame) m = n := by
  induction n generalizing m with
  | zero => exact ⟨rfl, rfl⟩
  | succ n ih =>
    have hcycles : m.cyclesPerFrame.toNat = 0 := Int.toNat_of_nonpos hc
    have hframe : frame m = .ok () m.tick := by
      rw [frame_eq_batch hf, hcycles]
      rfl
    have hafter : Event.frame.after m = m.tick := congrArg Action.state hframe
    have hok : Event.frame.completesFrame m = true := congrArg Action.isOk hframe
    have hnone : Event.frame.begun m = [] := by
      rw [Event.begun, if_pos hf, hcycles]
      rfl
    obtain ⟨hbegun, hcompleted⟩ := ih (m := m.tick) hf hc
    rw [List.replicate_succ, begunAll, completedFrames, hafter, hok, hnone, hbegun, hcompleted]
    exact ⟨rfl, Nat.add_comm 1 n⟩

/-- A machine with frames of no instructions, whose timers start at two and return to it, about to
set the sound timer to zero. -/
def reloading : Machine :=
  powerOn [0xF0, 0x18] digitKeymap (.headless none) (.cycle []) ⟨none, some 0, some 2, false⟩
    ⟨some 2, 2, 2⟩

/-- Four ticks lead the delay timer from two past zero and back to one, although the sound timer is
set meanwhile. -/
theorem timers_count_down_of_reloading :
    reloading.Attainable ∧
      (∀ p ∈ begunAll (.step :: List.replicate 4 .frame) reloading,
        ∀ x, ¬ p.NextIs (Timers.Kind.delay.setter x)) ∧
      completedFrames (.step :: List.replicate 4 .frame) reloading = 4 ∧
      (Event.afterAll (.step :: List.replicate 4 .frame) reloading).timers.delay = 1 := by
  have hload : fontMemory.loadRefusal? (Settings.origin ⟨none, some 0, some 2, false⟩)
      ([0xF0, 0x18] : List UInt8).length = none := by
    rw [Memory.loadRefusal?_eq_none_iff]
    decide
  have hm : reloading.Attainable := .created (create_of_fits hload rfl)
  have hmemory : reloading.memory = (standard [0xF0, 0x18]).memory := rfl
  have hset : reloading.NextIs (Timers.Kind.sound.setter 0) :=
    ⟨by decide, nextWord_of_standard (j := 0) hmemory rfl (by decide) (by decide)⟩
  have hafter : Event.step.after reloading = _ :=
    congrArg Action.state (hset.step_eq (Timers.Kind.setter_ne_machineCode _ _) hm.intact rfl rfl)
  obtain ⟨hnone, hcompleted⟩ := frames_of_no_cycles (m := Event.step.after reloading)
    (by rw [hafter]; rfl) (by rw [hafter]; exact le_refl 0) 4
  have hframes : completedFrames (.step :: List.replicate 4 .frame) reloading = 4 := by
    rw [completedFrames, hcompleted]
    rfl
  have hfree : ∀ p ∈ begunAll (.step :: List.replicate 4 .frame) reloading,
      ∀ x, ¬ p.NextIs (Timers.Kind.delay.setter x) := by
    rw [begunAll, hnone, List.append_nil, Event.begun, if_pos (show reloading.fault = none from rfl),
      List.forall_mem_singleton]
    intro x h
    cases hset.eq h (Timers.Kind.setter_ne_machineCode _ _) (Timers.Kind.setter_ne_machineCode _ _)
  refine ⟨hm, hfree, hframes, ?_⟩
  obtain ⟨-, hruns⟩ := hm.timers_count_down
  refine (hruns _ .delay hfree).trans ?_
  rw [hframes]
  rfl

end Machine

end Chip8
