import Chip8.Proofs.Machine.Glyphs
import Chip8.Proofs.Machine.Reachable

/-!
# What a new machine holds

Which programs and settings make a machine, and the machine that they make.

* `Settings.Loadable` says that a program fits in memory above the font, `Settings.ReloadFits` that
  the timers accept their reload value;
* `Machine.PoweredOn` says of each part of a machine what it holds at power-on;
* `create_accepts` says that a machine is created just if the program can be loaded and the reload
  value is accepted, what is wrong otherwise, and that each machine that is created is at power-on.
-/

namespace Chip8.Machine

variable {program : List UInt8} {keymap : Keymap} {display : Display} {random : RandomSource}
  {settings : Settings}

/-- A program of `size` bytes begins in memory above the font, and ends in memory. -/
def Settings.Loadable (settings : Settings) (size : Nat) : Prop :=
  (80 ≤ settings.start.getD 0x200 ∧ settings.start.getD 0x200 ≤ 0xFFF) ∧
    settings.start.getD 0x200 + size ≤ 0x1000

/-- The reload value of the timers, if there is one, is a byte. -/
def Settings.ReloadFits (settings : Settings) : Prop :=
  ∀ r, settings.timerReload = some r → 0 ≤ r ∧ r ≤ 255

/-- The machine has not run yet: nothing is in memory but the font and the program from `start` on,
and all other parts are as they are first set up. -/
structure PoweredOn (m : Machine) (image : List UInt8) (start : Int) (reload : Option Int) :
    Prop where
  size : m.memory.size = 0x1000 ∧ m.memory.cells.size = 0x1000
  font : m.memory.bytes 0 80 = Font.glyphs
  program : m.memory.bytes start image.length = image
  elsewhere : ∀ a, 80 ≤ a ∧ a ≤ 0xFFF → ¬ (start ≤ a ∧ a < start + image.length) →
    m.memory.byteAt a = 0
  pc : m.pc = start
  registers : ∀ x, m.register x = 0
  index : m.index = 0
  completed : m.completed = 0
  stack : m.stack.toList = []
  screen : ∀ x y, (0 ≤ x ∧ x < 64) → (0 ≤ y ∧ y < 32) →
    Screen.getPixel x y m.screen = .ok false m.screen
  timers : m.timers = ⟨reload, reload.getD 0, reload.getD 0⟩
  latch : m.keypad.latch.asserted = false
  awaitingKey : m.awaitingKey = false
  fault : m.fault = none

/-! ### What is accepted -/

theorem Settings.loadable_iff {size : Nat} :
    settings.Loadable size ↔ fontMemory.loadRefusal? settings.origin size = none := by
  rw [Memory.loadRefusal?_eq_none_iff]
  show _ ↔ (0 ≤ settings.start.getD 0x200 ∧ settings.start.getD 0x200 ≤ 0xFFF) ∧
    79 < settings.start.getD 0x200 ∧ settings.start.getD 0x200 + size ≤ 0x1000
  unfold Loadable
  omega

/-- The timers are set up with the reload value if it fits, and refuse it otherwise. -/
theorem Settings.timers_create (settings : Settings) :
    (settings.ReloadFits ∧ Timers.create settings.timerReload =
        .ok ⟨settings.timerReload, settings.timerReload.getD 0, settings.timerReload.getD 0⟩) ∨
      ∃ r, settings.timerReload = some r ∧ ¬ (0 ≤ r ∧ r ≤ 255) ∧
        Timers.create settings.timerReload = .error (.timerReload r) := by
  unfold ReloadFits Timers.create
  cases settings.timerReload with
  | none => exact .inl ⟨nofun, rfl⟩
  | some r =>
    by_cases hr : 0 ≤ r ∧ r < 256
    · refine .inl ⟨?_, if_pos hr⟩
      rintro r' ⟨⟩
      omega
    · exact .inr ⟨r, rfl, by omega, if_neg hr⟩

/-! ### What is built -/

/-- Above the font, memory is zero before the program is loaded. -/
theorem byteAt_fontMemory {a : Int} (ha : 80 ≤ a) : fontMemory.byteAt a = 0 := by
  have hfont : ((Memory.blank memorySize).written fontLocation Font.glyphs).byteAt a =
      (Memory.blank memorySize).byteAt a := by
    refine Memory.byteAt_written_of_not_mem _ _ (le_refl 0) (by omega) fun h => ?_
    have hend : a < 80 := h.2
    omega
  unfold Memory.byteAt at hfont ⊢
  rw [cells_fontMemory, hfont]
  exact Memory.byteAt_blank memorySize a

/-- A machine that is created is at power-on. -/
theorem PoweredOn.of_create {m : Machine}
    (h : create program keymap display random settings = .ok m) :
    m.PoweredOn program (settings.start.getD 0x200) settings.timerReload := by
  have hm := WellFormed.of_create h
  have hfont : m.memory.bytes ((0 : Nat) : Int) 80 = Font.glyphs :=
    (Attainable.created h).hasFont.bytes_eq (le_refl 80)
  obtain ⟨hload, timers, htimers, rfl⟩ := create_eq_ok_iff.1 h
  have htop := Settings.loadable_iff.2 hload
  obtain ⟨⟨hbottom, -⟩, hfits⟩ := htop
  have h0 : 0 ≤ settings.origin := le_trans (by decide) hbottom
  refine
    { size := ⟨hm.size_memory, hm.size_cells⟩
      font := hfont
      program := ?program
      elsewhere := ?elsewhere
      pc := rfl
      registers := ?registers
      index := rfl
      completed := rfl
      stack := rfl
      screen := ?screen
      timers := ?timers
      latch := rfl
      awaitingKey := rfl
      fault := rfl }
  case program =>
    refine Memory.bytes_written fontMemory settings.origin h0 ?_
    rw [size_cells_fontMemory]
    exact hfits
  case elsewhere =>
    intro a ha hother
    exact (Memory.byteAt_written_of_not_mem fontMemory settings.origin h0 (by omega) hother).trans
      (byteAt_fontMemory ha.1)
  case registers =>
    intro x
    exact Vector.getElem_replicate x.isLt
  case screen =>
    intro x y hx hy
    rw [Screen.getPixel_eq hm.screen, hm.width, hm.height, if_pos ⟨hx.1, hx.2, hy⟩]
    show EStateM.Result.ok ((blankScreen display).cellAt x y != 0) _ = _
    rw [cellAt_blankScreen]
    rfl
  case timers =>
    rcases settings.timers_create with ⟨-, hok⟩ | ⟨r, -, -, herror⟩
    · rw [hok] at htimers
      exact (Except.ok.inj htimers).symm
    · rw [herror] at htimers
      cases htimers

/-! ### All starts -/

/-- A machine is created if the program can be loaded and the reload value fits. -/
theorem exists_create (hload : settings.Loadable program.length) (hreload : settings.ReloadFits) :
    ∃ m, create program keymap display random settings = .ok m := by
  rcases settings.timers_create with ⟨-, hok⟩ | ⟨r, hr, hbad, -⟩
  · exact ⟨_, create_of_fits (Settings.loadable_iff.1 hload) hok⟩
  · exact absurd (hreload r hr) hbad

/-- A program that cannot be loaded is what is wrong, whatever the reload value is. -/
theorem create_of_not_loadable (hload : ¬ settings.Loadable program.length) :
    ∃ e, create program keymap display random settings = .error (.load e) := by
  obtain ⟨e, he⟩ := Option.ne_none_iff_exists'.1 (mt Settings.loadable_iff.2 hload)
  refine ⟨e, ?_⟩
  rw [create_eq, he]

/-- A reload value that is no byte is what is wrong if the program can be loaded. -/
theorem create_of_not_reloadFits (hload : settings.Loadable program.length)
    (hreload : ¬ settings.ReloadFits) :
    ∃ r, settings.timerReload = some r ∧
      create program keymap display random settings = .error (.timerReload r) := by
  rcases settings.timers_create with ⟨hfits, -⟩ | ⟨r, hr, -, herror⟩
  · exact absurd hfits hreload
  · refine ⟨r, hr, ?_⟩
    rw [create_eq, Settings.loadable_iff.1 hload, herror]
    rfl

/-- **A machine is created just if the program begins above the font and ends in memory, and the
reload value is a byte.** If the program does not, that is the error, also when the reload value is
wrong too; each machine that is created is at power-on. -/
theorem create_accepts (program : List UInt8) (keymap : Keymap) (display : Display)
    (random : RandomSource) (settings : Settings) :
    ((∃ m, create program keymap display random settings = .ok m) ↔
      settings.Loadable program.length ∧ settings.ReloadFits) ∧
    (¬ settings.Loadable program.length →
      ∃ e, create program keymap display random settings = .error (.load e)) ∧
    (settings.Loadable program.length → ¬ settings.ReloadFits →
      ∃ r, settings.timerReload = some r ∧
        create program keymap display random settings = .error (.timerReload r)) ∧
    ∀ m, create program keymap display random settings = .ok m →
      m.PoweredOn program (settings.start.getD 0x200) settings.timerReload := by
  refine ⟨⟨?_, fun h => exists_create h.1 h.2⟩, create_of_not_loadable, create_of_not_reloadFits,
    fun m => PoweredOn.of_create⟩
  rintro ⟨m, hm⟩
  constructor
  · by_contra hload
    obtain ⟨e, he⟩ := create_of_not_loadable hload
    rw [hm] at he
    cases he
  · by_contra hreload
    obtain ⟨hload, -⟩ := create_eq_ok_iff.1 hm
    obtain ⟨r, -, he⟩ := create_of_not_reloadFits (Settings.loadable_iff.2 hload) hreload
    rw [hm] at he
    cases he

/-- One byte fits into the last cell of memory, and two do not, which is named before a reload value
that is no byte. -/
theorem create_accepts_of_last_cell :
    (∃ m, create [0x12] digitKeymap (.headless none) (.cycle []) ⟨some 0xFFF, none, some 255, false⟩ =
        .ok m ∧ m.pc = 0xFFF ∧ m.memory.bytes 0xFFF 1 = [0x12] ∧ m.memory.byteAt 0xFFE = 0 ∧
        m.timers.delay = 255) ∧
      ∃ e, create [0x12, 0x34] digitKeymap (.headless none) (.cycle [])
        ⟨some 0xFFF, none, some 256, false⟩ = .error (.load e) := by
  constructor
  · obtain ⟨haccepted, -, -, hbuilt⟩ := create_accepts [0x12] digitKeymap (.headless none)
      (.cycle []) ⟨some 0xFFF, none, some 255, false⟩
    obtain ⟨m, hm⟩ := haccepted.2 ⟨⟨by decide, by decide⟩, by rintro r ⟨⟩; decide⟩
    have hon := hbuilt m hm
    exact ⟨m, hm, hon.pc, hon.program, hon.elsewhere 0xFFE (by decide) (by decide),
      congrArg Timers.delay hon.timers⟩
  · obtain ⟨-, hlarge, -⟩ := create_accepts [0x12, 0x34] digitKeymap (.headless none)
      (.cycle []) ⟨some 0xFFF, none, some 256, false⟩
    exact hlarge fun h => absurd h.2 (by decide)

end Chip8.Machine
