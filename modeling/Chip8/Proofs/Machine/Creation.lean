import Chip8.Proofs.Machine.WellFormed

/-!
# Machines at power-on

Creating a machine as a condition and a result.

* `Machine.fontMemory` is the memory before the program is loaded, `Machine.powerOn` the machine
  that is built around a memory;
* `createWithin_eq` and `create_eq` say which machine is created, or why none is, and that it is the
  same one wherever there is room for it;
* `WellFormed.of_create` says that each machine that is created is well formed.
-/

namespace Chip8

theorem Timers.WellFormed.of_create {reload : Option Int} {t : Timers}
    (h : Timers.create reload = .ok t) : t.WellFormed := by
  cases reload with
  | none =>
    cases h
    exact ⟨nofun, by decide, by decide⟩
  | some r =>
    unfold Timers.create at h
    simp only at h
    split_ifs at h with hr
    cases h
    refine ⟨?_, hr, hr⟩
    rintro r' ⟨⟩
    exact hr

namespace Machine

variable (program : List UInt8) (keymap : Keymap) (display : Display) (random : RandomSource)
  (settings : Settings)

/-- The memory of a machine before a program is loaded. -/
def fontMemory : Memory :=
  { (Memory.blank memorySize).written fontLocation Font.glyphs with
    protectedTop := fontLocation + Font.size - 1 }

theorem cells_fontMemory :
    fontMemory.cells = ((Memory.blank memorySize).written fontLocation Font.glyphs).cells := by
  unfold fontMemory
  simp only

theorem size_cells_fontMemory : fontMemory.cells.size = 0x1000 := by
  rw [cells_fontMemory, Memory.size_cells_written, Memory.cells_blank, Array.size_replicate]
  rfl

/-- Where a machine with these settings starts. -/
def Settings.origin (settings : Settings) : Int := settings.start.getD defaultStart

/-- The screen of a machine at power-on. -/
def blankScreen : Screen :=
  Screen.reportPerformance 0 0
    ⟨screenWidth, screenHeight, .blank (screenWidth * screenHeight),
      display.withResolution screenWidth screenHeight⟩

theorem cellAt_blankScreen (display : Display) (x y : Int) :
    (blankScreen display).cellAt x y = 0 :=
  Screen.cellAt_of_blank rfl x y

/-- The machine at power-on, its timers set up as `timers`. -/
def powerOn (timers : Timers) : Machine where
  memory := fontMemory.written settings.origin program
  registers := Vector.replicate 16 0
  index := 0
  pc := settings.origin
  stack := .empty stackDepth
  screen := blankScreen display
  timers := timers
  keypad := .released keymap
  random := random
  cyclesPerFrame := settings.cyclesPerFrame.getD defaultCycles
  awaitingKey := false
  fault := none
  completed := 0
  begun := 0
  opcode := none
  instruction := none
  live := settings.live
  trace := #[]

theorem fits_memorySize {capacity : Nat} (h : room ≤ capacity) : Fits capacity 1 memorySize :=
  Fits.of_capacity_le (by decide) h

theorem fits_screen {capacity : Nat} (h : room ≤ capacity) :
    Fits capacity display.bytesPerPixel (screenWidth * screenHeight) := by
  have hwindow : Fits room Window.pixelSize (screenWidth * screenHeight) := by decide
  exact (hwindow.of_unit_le display.bytesPerPixel_le_pixelSize).of_capacity_le h

theorem bootMemory_eq {capacity : Nat} (h : room ≤ capacity) (start : Int) :
    bootMemory capacity Font.glyphs start program (.blank 0) =
      match fontMemory.loadRefusal? start program.length with
      | none => .ok () (fontMemory.written start program)
      | some e => .error (.load e) fontMemory := by
  have hfont : (Memory.blank memorySize).writeRefusal? fontLocation Font.glyphs.length = none := by
    decide
  simp only [bootMemory, Action.bind_apply, Memory.resize_of_fits _ (fits_memorySize h),
    FileSystem.checkFont_of_length Font.length_glyphs, Memory.writeBlock_eq, hfont, Memory.protect,
    Action.modify_apply]
  exact Memory.loadImage_eq fontMemory start program

/-- A font of another size is refused, whatever the program is. -/
theorem bootMemory_of_length_ne {capacity : Nat} (h : room ≤ capacity) {font : List UInt8}
    (hfont : font.length ≠ Font.size) (start : Int) :
    bootMemory capacity font start program (.blank 0) =
      .error (.load (.wrongFontSize font.length)) (.blank memorySize) := by
  simp [bootMemory, Memory.resize_of_fits _ (fits_memorySize h),
    FileSystem.checkFont_of_length_ne hfont]

/-- Where there is room for it, a machine is created unless the program cannot be loaded or the
reload value is no byte. -/
theorem createWithin_eq {capacity : Nat} (h : room ≤ capacity) :
    createWithin capacity program keymap display random settings =
      match fontMemory.loadRefusal? settings.origin program.length with
      | none =>
        (Timers.create settings.timerReload).map (powerOn program keymap display random settings)
      | some e => .error (.load e) := by
  have hscreen : Screen.create capacity display screenWidth screenHeight =
      .ok (blankScreen display) :=
    Screen.create_of_fits (fits_screen display h)
  unfold createWithin
  simp only [bootMemory_eq program h, hscreen]
  unfold Settings.origin
  cases fontMemory.loadRefusal? (settings.start.getD defaultStart) program.length with
  | some e => rfl
  | none => cases Timers.create settings.timerReload <;> rfl

theorem create_eq :
    create program keymap display random settings =
      match fontMemory.loadRefusal? settings.origin program.length with
      | none =>
        (Timers.create settings.timerReload).map (powerOn program keymap display random settings)
      | some e => .error (.load e) :=
  createWithin_eq program keymap display random settings (Nat.le_refl room)

/-- How much more room there is makes no difference to a machine. -/
theorem createWithin_eq_create {capacity : Nat} (h : room ≤ capacity) :
    createWithin capacity program keymap display random settings =
      create program keymap display random settings := by
  rw [createWithin_eq program keymap display random settings h, create_eq]

variable {program keymap display random settings}

theorem create_of_fits {timers : Timers}
    (hload : fontMemory.loadRefusal? settings.origin program.length = none)
    (htimers : Timers.create settings.timerReload = .ok timers) :
    create program keymap display random settings =
      .ok (powerOn program keymap display random settings timers) := by
  rw [create_eq, hload, htimers]
  rfl

/-- A machine that is created is at power-on, with a program that could be loaded. -/
theorem create_eq_ok_iff {m : Machine} :
    create program keymap display random settings = .ok m ↔
      fontMemory.loadRefusal? settings.origin program.length = none ∧
        ∃ timers, Timers.create settings.timerReload = .ok timers ∧
          m = powerOn program keymap display random settings timers := by
  rw [create_eq]
  cases fontMemory.loadRefusal? settings.origin program.length with
  | some e => simp
  | none => cases Timers.create settings.timerReload <;> simp [Except.map, eq_comm]

/-- **Each machine that is created is well formed.** -/
theorem WellFormed.of_create {m : Machine}
    (h : create program keymap display random settings = .ok m) : m.WellFormed := by
  obtain ⟨hload, timers, htimers, rfl⟩ := create_eq_ok_iff.1 h
  obtain ⟨⟨h0, htop⟩, -, -⟩ := Memory.loadRefusal?_eq_none_iff.1 hload
  have hscreen : (blankScreen display).WellFormed :=
    (Screen.WellFormed.blank (by decide) (by decide) display).reportPerformance 0 0
  exact {
    size_memory := rfl
    size_cells := (Memory.size_cells_written ..).trans size_cells_fontMemory
    protectedTop := rfl
    screen := hscreen
    width := rfl
    height := rfl
    index := ⟨le_refl 0, by show (0 : Int) < 0x10000; decide⟩
    depth := rfl
    size_stack := Nat.zero_le _
    returns := nofun
    timers := .of_create htimers
    pc := ⟨h0, le_trans htop (by decide)⟩
    awaiting := nofun
    halted := nofun }

end Machine

end Chip8
