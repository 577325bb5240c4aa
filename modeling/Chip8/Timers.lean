import Chip8.Error

/-!
# Timers

The delay and sound timers count down once a frame. A timer at zero stays there, unless the timers
were set up with a reload value, to which a timer at zero then returns.
-/

namespace Chip8

/-- The two timers, and the value to which they return from zero, if any. -/
structure Timers where
  reload : Option Int
  delay : Int
  sound : Int
  deriving DecidableEq, Inhabited

namespace Timers

/-- The timers at power-on. They start at the reload value, which has to fit in a byte. -/
def create (reload : Option Int) : Except Error Timers :=
  match reload with
  | none => .ok ⟨none, 0, 0⟩
  | some r => if 0 ≤ r ∧ r < 256 then .ok ⟨reload, r, r⟩ else .error (.timerReload r)

/-- One timer's value after a tick. -/
def decay (reload : Option Int) (value : Int) : Int :=
  if 0 < value then value - 1 else reload.getD 0

/-- Counts both timers down by one. -/
def tick (t : Timers) : Timers :=
  { t with delay := decay t.reload t.delay, sound := decay t.reload t.sound }

/-- Whether the sound is on. -/
def isSounding (t : Timers) : Bool := 0 < t.sound

@[simp] theorem reload_tick (t : Timers) : t.tick.reload = t.reload := rfl

@[simp] theorem decay_zero_none : decay none 0 = 0 := rfl

theorem decay_of_pos {value : Int} (reload : Option Int) (h : 0 < value) :
    decay reload value = value - 1 := by
  simp [decay, h]

theorem decay_of_not_pos {value : Int} (reload : Option Int) (h : ¬ 0 < value) :
    decay reload value = reload.getD 0 := by
  simp [decay, h]

end Timers

end Chip8
