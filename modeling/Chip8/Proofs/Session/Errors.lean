import Chip8.Proofs.Session.Rounds

/-!
# How a session fails

The errors of a session are few. The clock may be exhausted, and the machine may halt at an
instruction; nothing else that a session does can fail.

* `Session.FrameFailsBy` says how the frames of a session may fail, and `frameFailsBy_frame` how those
  of a machine do;
* `Session.onReadingWith_ends` says it of a reading, and `Session.error_of_run` of a whole run.
-/

namespace Chip8

namespace Machine

variable {m m' : Machine} {e : Error}

/-- A frame that fails leaves the machine halted, with the error that it fails with. -/
theorem Intact.of_frame_error (hm : m.Intact) (h : frame m = .error e m') :
    ∃ f, e = .fault f ∧ m'.fault = some f := by
  cases hf : m.fault with
  | some f =>
    rw [frame_of_halted hf] at h
    cases h
    exact ⟨f, rfl, hf⟩
  | none =>
    cases (frame_eq_iff hm hf).1 h with
    | @faulted k m₁ _ f hs _ _ hstep =>
      obtain ⟨g, hg, hm'⟩ := (hm.of_steps hs.steps).of_step_error hstep
      cases hg
      exact ⟨f, rfl, by rw [hm']⟩

end Machine

namespace Session

/-- Frames leave the parts of a machine intact, and fail only with an error that goes with the fault
at which the machine has halted, if it has. -/
def FrameFailsBy (frame : Action Machine Unit) (reason : Error → Option Fault → Prop) : Prop :=
  ∀ m : Machine, m.Intact → match frame m with
    | .ok _ m' => m'.Intact
    | .error e m' => m'.Intact ∧ reason e m'.fault

/-- The frames of a machine fail only by halting it. -/
theorem frameFailsBy_frame :
    FrameFailsBy Machine.frame fun e fault => ∃ f, e = .fault f ∧ fault = some f := by
  intro m hm
  cases hframe : m.frame with
  | ok _ m' => exact (hm.of_frame hframe).1
  | error e m' => exact ⟨intact_of_frame_error hm hframe, hm.of_frame_error hframe⟩

variable {frame : Action Machine Unit} {reason : Error → Option Fault → Prop} {p : Pacing}
  {host : Host} {clock : Nat → Rat} {s s' : Session} {e : Error}

/-- Nothing but the display is refreshed. -/
theorem fault_of_refresh {m m' : Machine}
    (h : Machine.onScreen Screen.refresh m = .ok () m') : m'.fault = m.fault := by
  rw [Machine.onScreen_apply] at h
  cases hrefresh : Screen.refresh m.screen with
  | error e screen =>
    rw [hrefresh] at h
    cases h
  | ok _ screen =>
    rw [hrefresh] at h
    cases h
    rfl

/-- How a reading ends: the machine goes on intact, or a frame of it has failed. -/
theorem onReadingWith_ends (hframes : FrameFailsBy frame reason) (hs : s.machine.Intact)
    (p : Pacing) (host : Host) (time : Rat) :
    match onReadingWith frame p host time s with
    | .ok _ s' => s'.machine.Intact
    | .error e s' => reason e s'.machine.fault := by
  cases hwait : s.waitingUntil with
  | some frameEnd =>
    rw [onReadingWith_of_waiting frame hwait]
    exact hs
  | none =>
    rw [onReadingWith_of_not_waiting frame hwait]
    rcases hask : (s.opened p time).ask host with ⟨heard, quit⟩
    have hheard : Heard p host (fun _ => time) s quit heard := heard_of_ask hask
    have hintact := hheard.intact hs
    cases quit with
    | true => exact hintact
    | false =>
      dsimp only
      have hends := hframes heard.machine hintact
      cases hframe : frame heard.machine with
      | ok _ m₁ =>
        rw [hframe] at hends
        obtain ⟨m₂, -, hshow, hafter⟩ := showFrame_of_ok hframe hends
        simp only [runFrame, hshow]
        exact hafter
      | error e m₁ =>
        rw [hframe] at hends
        obtain ⟨m₂, hrefresh, hshow⟩ := showFrame_of_error hframe hends.1
        simp only [runFrame, hshow, fault_of_refresh hrefresh]
        exact hends.2

/-- **How a run fails.** Either the clock is exhausted, or a frame has failed. -/
theorem error_of_run (hframes : FrameFailsBy frame reason) (hs : s.machine.Intact) {limit : Nat}
    (h : run (onReadingWith frame p host) clock limit s = .error e s') :
    e = .clockExhausted ∨ reason e s'.machine.fault := by
  induction limit generalizing s with
  | zero =>
    cases h
    exact .inl rfl
  | succ limit ih =>
    have hends := onReadingWith_ends hframes hs p host (clock s.readings)
    cases hreading : onReadingWith frame p host (clock s.readings) s with
    | error e₁ s₁ =>
      rw [run_of_error hreading] at h
      cases h
      rw [hreading] at hends
      exact .inr hends
    | ok quit s₁ =>
      rw [hreading] at hends
      cases quit with
      | true =>
        rw [run_of_quit hreading] at h
        cases h
      | false =>
        rw [run_of_ok hreading] at h
        exact ih hends h

end Session

end Chip8
