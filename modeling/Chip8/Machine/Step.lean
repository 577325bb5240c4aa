import Chip8.Machine.Perform

/-!
# Steps and frames

A step fetches one instruction and executes it. It is completed, or it ends in a fault, which halts
the machine at that instruction: the fault is kept, and every later step and frame ends in it again
until the machine is reset.

A frame is a batch of steps followed by one tick of the timers. A batch ends early when an
instruction waits for a key, as nothing will change before the keypad is sampled again.

* `Machine.fetch`, `Machine.step`, `Machine.steps`;
* `Machine.batch`, `Machine.frame`.
-/

namespace Chip8.Machine

/-- The word that a run of bytes spells, the highest byte first. -/
def word (bytes : List UInt8) : Int := bytes.foldl (fun n b => 256 * n + b.toNat) 0

/-- The word at the program counter. -/
def fetch : Action Machine Int := do
  return word (← onMemory (Memory.readBlock (← get).pc 2))

/-- Fetches an instruction, moves on to the next one, and executes it. -/
def cycle : Action Machine Unit := do
  let opcode ← fetch
  modify fun m => { m.advance with opcode := some opcode }
  execute opcode

/-- The machine about to fetch an instruction. -/
def begin (m : Machine) : Machine := { m with begun := m.pc, opcode := none }

/-- Halts the machine at the instruction it has begun. -/
def halt (f : Fault) (m : Machine) : Machine :=
  { m with pc := m.begun, fault := some (f.attach (some m.begun) m.opcode) }

/-- Runs one instruction. -/
def step : Action Machine Unit := fun m =>
  match m.fault with
  | some f => .error (.fault f) m
  | none =>
    match cycle m.begin with
    | .ok _ m => .ok () { m with completed := m.completed + 1 }
    | .error (.fault f) m => .error (.fault (f.attach (some m.begun) m.opcode)) (m.halt f)
    | .error e m => .error e m

/-- Runs `n` instructions, or as many as go well. -/
def steps : Nat → Action Machine Unit
  | 0 => pure ()
  | n + 1 => fun m =>
    match step m with
    | .ok _ m => steps n m
    | .error e m => .error e m

/-- Runs up to `n` instructions, and none after one that waits for a key. -/
def batch : Nat → Action Machine Unit
  | 0 => pure ()
  | n + 1 => fun m =>
    match step m with
    | .ok _ m => if m.awaitingKey then .ok () m else batch n m
    | .error e m => .error e m

/-- Counts the timers down by one. -/
def tick (m : Machine) : Machine := { m with timers := m.timers.tick }

/-- Runs one frame. -/
def frame : Action Machine Unit := fun m =>
  match m.fault with
  | some f => .error (.fault f) m
  | none =>
    match batch m.cyclesPerFrame.toNat m with
    | .ok _ m => .ok () m.tick
    | .error e m => .error e m

/-- Runs `n` frames, or as many as go well. -/
def frames : Nat → Action Machine Unit
  | 0 => pure ()
  | n + 1 => fun m =>
    match frame m with
    | .ok _ m => frames n m
    | .error e m => .error e m

@[simp] theorem steps_zero (m : Machine) : steps 0 m = .ok () m := rfl

@[simp] theorem batch_zero (m : Machine) : batch 0 m = .ok () m := rfl

@[simp] theorem frames_zero (m : Machine) : frames 0 m = .ok () m := rfl

theorem step_of_halted {m : Machine} {f : Fault} (h : m.fault = some f) :
    step m = .error (.fault f) m := by
  simp [step, h]

theorem frame_of_halted {m : Machine} {f : Fault} (h : m.fault = some f) :
    frame m = .error (.fault f) m := by
  simp [frame, h]

end Chip8.Machine
