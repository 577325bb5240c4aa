import Chip8.Proofs.Machine.Tracing
import Chip8.Proofs.Startup.Defaults

/-!
# The stages of a start

A start goes through its stages in a fixed order, and the first one that fails decides the error,
whatever is wrong with those after it.

* `Choices` are options of which each has a value or is left at its default;
* `Choices.Fails` says for each `Stage` when it fails and with which error, `Choices.FirstFails`
  which error is that of the first stage that fails;
* `Decides` relates what is computed at a stage to the failures of that stage;
* `prepare_eq_error_iff` says how a start fails, `prepare_of_passes` what it comes to otherwise, and
  `first_bad_stage_decides` what the whole program then does.
-/

namespace Chip8

/-- An option that is left at its default or has a value. -/
def Given.ofOption {α : Type} : Option α → Given α
  | none => .unset
  | some a => .value a

@[simp] theorem Given.value?_ofOption {α : Type} (o : Option α) : (ofOption o).value? = o := by
  cases o <;> rfl

@[simp] theorem Given.optionalValue_ofOption {α : Type} (o : Option α) (name : OptionName) :
    (ofOption o).optionalValue name = .ok o := by
  cases o <;> rfl

namespace Startup

/-- Options that are all there, and none of them without a value where one is needed. -/
structure Choices where
  filename : String
  keymap : String
  renderer : Option String
  scale : Option Int
  start : Option Int
  cycles : Option Int
  timerReload : Option Int
  debug : Option Bool

namespace Choices

/-- The options as they are given to the program. -/
def options (c : Choices) : Options where
  filename := some (.value c.filename)
  start := some (.ofOption c.start)
  cycles := some (.ofOption c.cycles)
  renderer := some (.ofOption c.renderer)
  scale := some (.ofOption c.scale)
  keymap := some (.value c.keymap)
  timerReload := some (.ofOption c.timerReload)
  debug := some (.ofOption c.debug)

/-- What is chosen about the machine. -/
def settings (c : Choices) : Machine.Settings :=
  ⟨c.start, c.cycles, c.timerReload, c.debug.getD false⟩

/-- Where the program is to be loaded. -/
def origin (c : Choices) : Int := c.start.getD 0x200

/-- A renderer with a window is asked for. -/
def WantsWindow (c : Choices) : Prop := c.renderer = none ∨ c.renderer = some windowedName

end Choices

/-! ### Stages and their failures -/

/-- A stage that may fail. -/
inductive Stage
  | renderer
  | program
  | keymap
  | image
  | timers
  deriving DecidableEq

/-- The stages from the first one to the last one. -/
def Stage.inOrder : List Stage := [.renderer, .program, .keymap, .image, .timers]

variable {fs : FileSystem} {c : Choices} {windowSystem : Bool} {random : RandomSource} {e : Error}
  {stage : Stage} {program : List UInt8}

/-- When a stage fails, and with which error, if there is no window system. The stages are taken by
themselves here: those before may fail too. -/
inductive Choices.Fails (fs : FileSystem) (c : Choices) : Stage → Error → Prop
  | noWindow (h : c.WantsWindow) : Fails fs c .renderer .noWindowSystem
  | unknown {name : String} (h : c.renderer = some name) (hwindowed : name ≠ windowedName)
      (hheadless : name ≠ headlessName) : Fails fs c .renderer (.unknownRenderer name)
  | unreadable {reason : FileError} (h : fs c.filename = .error reason) :
      Fails fs c .program (.load (.unreadable c.filename reason))
  | empty (h : fs c.filename = .ok []) : Fails fs c .program (.load (.empty c.filename))
  | keymap {reason : KeymapError} (h : Keymap.parse c.keymap = .error reason) :
      Fails fs c .keymap (.keymap reason)
  | outside {program : List UInt8} (h : fs c.filename = .ok program)
      (horigin : c.origin < 0 ∨ 0x1000 ≤ c.origin) :
      Fails fs c .image (.load (.outside c.origin))
  /-- The program would begin in the font. -/
  | reserved {program : List UInt8} (h : fs c.filename = .ok program) (h0 : 0 ≤ c.origin)
      (hfont : c.origin < 80) : Fails fs c .image (.load (.reserved c.origin))
  | tooLarge {program : List UInt8} (h : fs c.filename = .ok program) (hfont : 80 ≤ c.origin)
      (horigin : c.origin < 0x1000) (hsize : 0x1000 < c.origin + program.length) :
      Fails fs c .image (.load (.tooLarge program.length (0x1000 - c.origin) c.origin))
  | reload {r : Int} (h : c.timerReload = some r) (hbyte : ¬ (0 ≤ r ∧ r ≤ 255)) :
      Fails fs c .timers (.timerReload r)

/-- A stage does not fail. -/
def Choices.Passes (fs : FileSystem) (c : Choices) (stage : Stage) : Prop :=
  ∀ e, ¬ c.Fails fs stage e

/-- Of some stages, one after the other, the first one that fails does so with a given error. -/
inductive Choices.FirstFails (fs : FileSystem) (c : Choices) : List Stage → Error → Prop
  | here {stage : Stage} {stages : List Stage} {e : Error} (h : c.Fails fs stage e) :
      FirstFails fs c (stage :: stages) e
  | later {stage : Stage} {stages : List Stage} {e : Error} (h : c.Passes fs stage)
      (rest : FirstFails fs c stages e) : FirstFails fs c (stage :: stages) e

theorem Choices.firstFails_or_passes (fs : FileSystem) (c : Choices) (stages : List Stage) :
    (∃ e, c.FirstFails fs stages e) ∨ ∀ stage ∈ stages, c.Passes fs stage := by
  induction stages with
  | nil => exact .inr nofun
  | cons stage stages ih =>
    by_cases h : ∃ e, c.Fails fs stage e
    · obtain ⟨e, he⟩ := h
      exact .inl ⟨e, .here he⟩
    · have hpasses : c.Passes fs stage := fun e he => h ⟨e, he⟩
      exact ih.imp (fun ⟨e, he⟩ => ⟨e, .later hpasses he⟩)
        fun hall => List.forall_mem_cons.2 ⟨hpasses, hall⟩

/-! ### What is computed at each stage -/

/-- A computation fails when a stage fails, and with the same error. -/
def Decides {α : Type} (fs : FileSystem) (c : Choices) (stage : Stage) (x : Except Error α) :
    Prop :=
  ∀ e, x = .error e ↔ c.Fails fs stage e

theorem Decides.bind_of_fails {α β : Type} {x : Except Error α} (h : Decides fs c stage x)
    (hf : c.Fails fs stage e) (k : α → Except Error β) : (x >>= k) = .error e := by
  rw [(h e).2 hf]
  rfl

theorem Decides.exists_ok {α : Type} {x : Except Error α} (h : Decides fs c stage x)
    (hp : c.Passes fs stage) : ∃ a, x = .ok a := by
  cases hx : x with
  | error e => exact absurd ((h e).1 hx) (hp e)
  | ok a => exact ⟨a, rfl⟩

theorem Decides.passes {α : Type} {x : Except Error α} {a : α} (h : Decides fs c stage x)
    (hx : x = .ok a) : c.Passes fs stage := by
  intro e he
  cases ((h e).2 he).symm.trans hx

theorem chooseRenderer_of_noWindow (hwindow : c.WantsWindow → windowSystem = false) :
    chooseRenderer windowSystem (.ofOption c.renderer) = match c.renderer with
      | none => .error .noWindowSystem
      | some name =>
        if name = windowedName then .error .noWindowSystem
        else if name = headlessName then .ok .headless
        else .error (.unknownRenderer name) := by
  cases hr : c.renderer with
  | none =>
    rw [hwindow (.inl hr)]
    rfl
  | some name =>
    show chooseRenderer windowSystem (.value name) = _
    rw [chooseRenderer]
    by_cases hname : name = windowedName
    · have hmissing : windowSystem = false := hwindow (.inr (hname ▸ hr))
      simp [hname, hmissing]
    · simp [hname]

theorem decides_chooseRenderer (hwindow : c.WantsWindow → windowSystem = false) :
    Decides fs c .renderer (chooseRenderer windowSystem (.ofOption c.renderer)) := by
  intro e
  rw [chooseRenderer_of_noWindow hwindow]
  constructor
  · intro h
    cases hr : c.renderer with
    | none =>
      rw [hr] at h
      cases h
      exact .noWindow (.inl hr)
    | some name =>
      rw [hr] at h
      simp only at h
      split_ifs at h with hwindowed hheadless <;> cases h
      · exact .noWindow (.inr (hwindowed ▸ hr))
      · exact .unknown hr hwindowed hheadless
  · intro h
    cases h with
    | noWindow h =>
      rcases h with h | h
      · rw [h]
      · rw [h]
        exact if_pos rfl
    | unknown h hwindowed hheadless =>
      rw [h]
      simp only
      rw [if_neg hwindowed, if_neg hheadless]

/-- Where there can be no window, the only renderer that can be used is the headless one. -/
theorem eq_headless_of_chooseRenderer (hwindow : c.WantsWindow → windowSystem = false)
    {renderer : Renderer}
    (h : chooseRenderer windowSystem (.ofOption c.renderer) = .ok renderer) :
    renderer = .headless := by
  rw [chooseRenderer_of_noWindow hwindow] at h
  cases hr : c.renderer with
  | none =>
    rw [hr] at h
    cases h
  | some name =>
    rw [hr] at h
    simp only at h
    split_ifs at h
    cases h
    rfl

theorem readProgram_of_name {name : String} (hname : '\x00' ∉ name.toList) :
    fs.readProgram name = match fs name with
      | .ok [] => .error (.load (.empty name))
      | .ok program => .ok program
      | .error reason => .error (.load (.unreadable name reason)) := by
  unfold FileSystem.readProgram FileSystem.read
  rw [if_neg hname]
  cases fs name with
  | error reason => rfl
  | ok program => cases program <;> rfl

/-- A program cannot be read because of its file, or because there is nothing in it. -/
theorem error_of_readProgram {name : String} (hname : '\x00' ∉ name.toList)
    (h : fs.readProgram name = .error e) :
    (∃ reason, fs name = .error reason ∧ e = .load (.unreadable name reason)) ∨
      fs name = .ok [] ∧ e = .load (.empty name) := by
  rw [readProgram_of_name hname] at h
  cases hfile : fs name with
  | error reason =>
    rw [hfile] at h
    cases h
    exact .inl ⟨reason, rfl, rfl⟩
  | ok program =>
    rw [hfile] at h
    cases program with
    | nil =>
      cases h
      exact .inr ⟨rfl, rfl⟩
    | cons b program => cases h

theorem decides_readProgram (hname : '\x00' ∉ c.filename.toList) :
    Decides fs c .program (fs.readProgram c.filename) := by
  intro e
  constructor
  · intro h
    rcases error_of_readProgram hname h with ⟨reason, hfile, rfl⟩ | ⟨hfile, rfl⟩
    · exact .unreadable hfile
    · exact .empty hfile
  · intro h
    rw [readProgram_of_name hname]
    cases h with
    | unreadable h => rw [h]
    | empty h => rw [h]

/-- The program is what the file holds. -/
theorem eq_ok_of_readProgram {name : String} (hname : '\x00' ∉ name.toList)
    (h : fs.readProgram name = .ok program) : fs name = .ok program := by
  rw [readProgram_of_name hname] at h
  cases hfile : fs name with
  | error reason =>
    rw [hfile] at h
    cases h
  | ok bytes =>
    rw [hfile] at h
    cases bytes <;> cases h
    rfl

theorem error_of_chooseKeymap {text : String} (h : chooseKeymap (.value text) = .error e) :
    ∃ reason, Keymap.parse text = .error reason ∧ e = .keymap reason := by
  change (Keymap.parse text).mapError Error.keymap = _ at h
  cases hparse : Keymap.parse text with
  | error reason =>
    rw [hparse] at h
    cases h
    exact ⟨reason, rfl, rfl⟩
  | ok keymap =>
    rw [hparse] at h
    cases h

theorem decides_chooseKeymap : Decides fs c .keymap (chooseKeymap (.value c.keymap)) := by
  intro e
  constructor
  · intro h
    obtain ⟨reason, hparse, rfl⟩ := error_of_chooseKeymap h
    exact .keymap hparse
  · intro h
    show (Keymap.parse c.keymap).mapError Error.keymap = _
    cases h with
    | keymap h =>
      rw [h]
      rfl

theorem eq_ok_of_chooseKeymap {text : String} {keymap : Keymap}
    (h : chooseKeymap (.value text) = .ok keymap) : Keymap.parse text = .ok keymap := by
  change (Keymap.parse text).mapError Error.keymap = _ at h
  cases hparse : Keymap.parse text with
  | error reason =>
    rw [hparse] at h
    cases h
  | ok keymap' =>
    rw [hparse] at h
    cases h
    rfl

/-- Where an image does not fit above the font, and why. -/
theorem loadRefusal?_fontMemory (location : Int) (size : Nat) :
    Machine.fontMemory.loadRefusal? location size =
      if location < 0 ∨ 0xFFF < location then some (.outside location)
      else if location ≤ 79 then some (.reserved location)
      else if 0x1000 < location + size then some (.tooLarge size (0x1000 - location) location)
      else none := rfl

/-- Whether the image can be loaded, once the program is known. -/
theorem decides_loadRefusal? (h : fs c.filename = .ok program) :
    ((∃ reason, Machine.fontMemory.loadRefusal? c.origin program.length = some reason ∧
      .load reason = e) ↔ c.Fails fs .image e) := by
  rw [loadRefusal?_fontMemory]
  constructor
  · rintro ⟨reason, hreason, rfl⟩
    split_ifs at hreason with horigin hfont hsize <;> cases hreason
    · exact .outside h (by omega)
    · exact .reserved h (by omega) (by omega)
    · exact .tooLarge h (by omega) (by omega) hsize
  · intro hf
    cases hf with
    | outside _ horigin => exact ⟨_, if_pos (by omega), rfl⟩
    | reserved _ h0 hfont => exact ⟨_, by rw [if_neg (by omega), if_pos (by omega)], rfl⟩
    | tooLarge h' hfont horigin hsize =>
      obtain rfl := Except.ok.inj (h.symm.trans h')
      exact ⟨_, by rw [if_neg (by omega), if_neg (by omega), if_pos hsize], rfl⟩

theorem decides_timers : Decides fs c .timers (Timers.create c.timerReload) := by
  intro e
  unfold Timers.create
  constructor
  · intro h
    cases hr : c.timerReload with
    | none =>
      rw [hr] at h
      cases h
    | some r =>
      rw [hr] at h
      simp only at h
      split_ifs at h with hbyte
      cases h
      exact .reload hr (by omega)
  · intro h
    cases h with
    | reload h hbyte =>
      rw [h]
      exact if_neg (by omega)

/-! ### The whole start -/

/-- The stages of a start with these choices. -/
theorem prepare_options (fs : FileSystem) (windowSystem : Bool) (random : RandomSource)
    (c : Choices) :
    prepare fs windowSystem random c.options = (do
      let renderer ← chooseRenderer windowSystem (.ofOption c.renderer)
      let program ← fs.readProgram c.filename
      let display ← openDisplay renderer (.ofOption c.scale)
      let keymap ← chooseKeymap (.value c.keymap)
      let machine ← Machine.create program keymap display random c.settings
      return ⟨machine, .ofOption c.cycles⟩) := by
  have hbuild : ∀ program keymap display,
      build program keymap display random ((Given.ofOption c.debug).value?.getD false)
        (.ofOption c.start) (.ofOption c.cycles) (.ofOption c.timerReload) =
          Machine.create program keymap display random c.settings := by
    intro program keymap display
    unfold build
    simp only [Given.optionalValue_ofOption, Given.value?_ofOption]
    change (Machine.create program keymap display random c.settings >>= fun m => .ok m) = _
    cases Machine.create program keymap display random c.settings <;> rfl
  simp only [← hbuild]
  rfl

/-- The machine is created unless its image or its timers are refused. -/
theorem decides_create (h : fs c.filename = .ok program) (hp : c.Passes fs .image) (keymap : Keymap)
    (display : Display) (random : RandomSource) :
    Decides fs c .timers (Machine.create program keymap display random c.settings) := by
  intro e
  have hload : Machine.fontMemory.loadRefusal? c.settings.origin program.length = none := by
    rw [Option.eq_none_iff_forall_ne_some]
    exact fun reason hreason => hp _ ((decides_loadRefusal? h).1 ⟨reason, hreason, rfl⟩)
  rw [Machine.create_eq, hload, ← decides_timers e]
  show (Timers.create c.timerReload).map _ = _ ↔ _
  cases Timers.create c.timerReload <;> simp [Except.map]

theorem create_of_fails_image (h : fs c.filename = .ok program) (hf : c.Fails fs .image e)
    (keymap : Keymap) (display : Display) (random : RandomSource) :
    Machine.create program keymap display random c.settings = .error e := by
  obtain ⟨reason, hreason, rfl⟩ := (decides_loadRefusal? h).2 hf
  have hload : Machine.fontMemory.loadRefusal? c.settings.origin program.length = some reason :=
    hreason
  rw [Machine.create_eq, hload]

/-- A start whose renderer passes goes on without a window. -/
theorem prepare_of_passes_renderer (hwindow : c.WantsWindow → windowSystem = false)
    (random : RandomSource) (hp : c.Passes fs .renderer) :
    prepare fs windowSystem random c.options = (do
      let program ← fs.readProgram c.filename
      let keymap ← chooseKeymap (.value c.keymap)
      let machine ← Machine.create program keymap (.headless c.scale) random c.settings
      return ⟨machine, .ofOption c.cycles⟩) := by
  obtain ⟨renderer, hchosen⟩ := (decides_chooseRenderer hwindow).exists_ok hp
  obtain rfl := eq_headless_of_chooseRenderer hwindow hchosen
  have hdisplay : openDisplay .headless (.ofOption c.scale) = .ok (.headless c.scale) := by
    rw [openDisplay, Given.value?_ofOption]
  rw [prepare_options, hchosen]
  change (fs.readProgram c.filename >>= fun program =>
    openDisplay .headless (.ofOption c.scale) >>= _) = _
  rw [hdisplay]
  rfl

/-- The error of a start is that of the first stage that fails. -/
theorem prepare_of_firstFails (hname : '\x00' ∉ c.filename.toList)
    (hwindow : c.WantsWindow → windowSystem = false) (random : RandomSource)
    (h : c.FirstFails fs Stage.inOrder e) :
    prepare fs windowSystem random c.options = .error e := by
  rcases h with h | ⟨hrenderer, h⟩
  · rw [prepare_options]
    exact (decides_chooseRenderer hwindow).bind_of_fails h _
  rw [prepare_of_passes_renderer hwindow random hrenderer]
  rcases h with h | ⟨hprogram, h⟩
  · exact (decides_readProgram hname).bind_of_fails h _
  obtain ⟨program, hread⟩ := (decides_readProgram hname).exists_ok hprogram
  have hfile := eq_ok_of_readProgram hname hread
  rw [hread]
  rcases h with h | ⟨hkeymap, h⟩
  · exact decides_chooseKeymap.bind_of_fails h _
  obtain ⟨keymap, hchosen⟩ := decides_chooseKeymap.exists_ok hkeymap
  rw [hchosen]
  -- The image and the timers are refused when the machine is created.
  have hcreate :
      Machine.create program keymap (.headless c.scale) random c.settings = .error e := by
    rcases h with h | ⟨himage, h⟩
    · exact create_of_fails_image hfile h keymap _ random
    rcases h with h | ⟨-, h⟩
    · exact (decides_create hfile himage keymap _ random e).2 h
    · cases h
  show (Machine.create program keymap (.headless c.scale) random c.settings >>= _) = _
  rw [hcreate]
  rfl

/-- If no stage fails, a start comes to the machine that is created from the bytes of the file. -/
theorem prepare_of_passes (hname : '\x00' ∉ c.filename.toList)
    (hwindow : c.WantsWindow → windowSystem = false) (random : RandomSource)
    (hp : ∀ stage, c.Passes fs stage) :
    ∃ program keymap m, fs c.filename = .ok program ∧ Keymap.parse c.keymap = .ok keymap ∧
      Machine.create program keymap (.headless c.scale) random c.settings = .ok m ∧
      prepare fs windowSystem random c.options = .ok ⟨m, .ofOption c.cycles⟩ := by
  obtain ⟨program, hread⟩ := (decides_readProgram hname).exists_ok (hp .program)
  have hfile := eq_ok_of_readProgram hname hread
  obtain ⟨keymap, hchosen⟩ := decides_chooseKeymap.exists_ok (hp .keymap)
  obtain ⟨m, hcreate⟩ := (decides_create hfile (hp .image) keymap (.headless c.scale)
    random).exists_ok (hp .timers)
  refine ⟨program, keymap, m, hfile, eq_ok_of_chooseKeymap hchosen, hcreate, ?_⟩
  rw [prepare_of_passes_renderer hwindow random (hp .renderer), hread, hchosen]
  show (Machine.create program keymap (.headless c.scale) random c.settings >>= _) = _
  rw [hcreate]
  rfl

/-- A start fails with the error of the first stage that fails, and only with that one. -/
theorem prepare_eq_error_iff (hname : '\x00' ∉ c.filename.toList)
    (hwindow : c.WantsWindow → windowSystem = false) (random : RandomSource) :
    prepare fs windowSystem random c.options = .error e ↔ c.FirstFails fs Stage.inOrder e := by
  refine ⟨fun h => ?_, prepare_of_firstFails hname hwindow random⟩
  rcases c.firstFails_or_passes fs Stage.inOrder with ⟨e', he'⟩ | hp
  · obtain rfl : e' = e :=
      Except.error.inj ((prepare_of_firstFails hname hwindow random he').symm.trans h)
    exact he'
  · have hall : ∀ stage, c.Passes fs stage := fun stage => hp stage (by cases stage <;> decide)
    obtain ⟨_, _, m, -, -, -, hprepare⟩ := prepare_of_passes hname hwindow random hall
    cases h.symm.trans hprepare

/-- What the program comes to with a run: the lines that were printed, and the error. -/
def Outcome.ofRun (r : EStateM.Result Error Session Unit) : Outcome :=
  ⟨banner :: (Action.state r).machine.trace.toList, Action.error? r⟩

theorem launch_of_prepare_ok {o : Options} {p : Prepared}
    (h : prepare fs windowSystem random o = .ok p) (pacing : Pacing) (host : Host)
    (clock : Nat → Rat) (limit : Nat) :
    launch fs windowSystem random o pacing host clock limit =
      .ofRun (p.session pacing host clock limit) := by
  unfold launch Prepared.session
  rw [h]
  dsimp only
  cases Session.run (p.onReading pacing host) clock limit (.start p.machine) <;> rfl

theorem session_ofOption (m : Machine) (cycles : Option Int) (pacing : Pacing) (host : Host)
    (clock : Nat → Rat) (limit : Nat) :
    Prepared.session ⟨m, .ofOption cycles⟩ pacing host clock limit =
      Session.run (Session.onReading pacing host) clock limit (.start m) := by
  cases cycles <;> rfl

/-- **The first bad stage decides, and nothing has run before.** For options that are all there, and
a renderer that needs no window or cannot have one: a start fails just with the error of the first
stage that fails. There is no machine then that could run, and nothing but the banner is printed. If
no stage fails, a machine is created from the bytes of the file, and the program does what a run of
that machine does. -/
theorem first_bad_stage_decides (fs : FileSystem) (c : Choices)
    (hname : '\x00' ∉ c.filename.toList) (hwindow : c.WantsWindow → windowSystem = false)
    (random : RandomSource) :
    (∀ e, prepare fs windowSystem random c.options = .error e ↔
        c.FirstFails fs Stage.inOrder e) ∧
      (∀ e, c.FirstFails fs Stage.inOrder e → ∀ pacing host clock limit,
        launch fs windowSystem random c.options pacing host clock limit = ⟨[banner], some e⟩) ∧
      ((∀ stage, c.Passes fs stage) → ∃ program keymap m,
        fs c.filename = .ok program ∧ Keymap.parse c.keymap = .ok keymap ∧
          Machine.create program keymap (.headless c.scale) random c.settings = .ok m ∧
          prepare fs windowSystem random c.options = .ok ⟨m, .ofOption c.cycles⟩ ∧
          ∀ pacing host clock limit,
            launch fs windowSystem random c.options pacing host clock limit =
              .ofRun (Session.run (Session.onReading pacing host) clock limit (.start m))) := by
  refine ⟨fun e => prepare_eq_error_iff hname hwindow random,
    fun e he pacing host clock limit => ?_, fun hp => ?_⟩
  · rw [launch, prepare_of_firstFails hname hwindow random he]
  · obtain ⟨program, keymap, m, hfile, hparse, hcreate, hprepare⟩ :=
      prepare_of_passes hname hwindow random hp
    refine ⟨program, keymap, m, hfile, hparse, hcreate, hprepare,
      fun pacing host clock limit => ?_⟩
    rw [launch_of_prepare_ok hprepare, session_ofOption]

/-- Choices of which much is wrong: the keymap is too short, the program would begin in the font,
and the reload value is no byte. -/
def wrongChoices : Choices where
  filename := "p"
  keymap := "1,2"
  renderer := some headlessName
  scale := none
  start := some 0x10
  cycles := some 0
  timerReload := some 300
  debug := some true

/-- The same choices with nothing wrong. -/
def rightChoices : Choices :=
  { wrongChoices with
    keymap := Keymap.defaultText
    start := none
    timerReload := none }

theorem short_keymap_decides :
    let fs : FileSystem := fun _ => .ok [0x12, 0x00]
    '\x00' ∉ wrongChoices.filename.toList ∧ (wrongChoices.WantsWindow → true = false) ∧
      wrongChoices.FirstFails fs Stage.inOrder (.keymap .wrongCount) ∧
      wrongChoices.Fails fs .image (.load (.reserved 0x10)) ∧
      wrongChoices.Fails fs .timers (.timerReload 300) ∧
      launch fs true (.cycle []) wrongChoices.options .binary64 .idle (fun _ => 0) 5 =
        ⟨[banner], some (.keymap .wrongCount)⟩ ∧
      (∀ stage, rightChoices.Passes fs stage) ∧ ∃ keymap m,
        Machine.create [0x12, 0x00] keymap (.headless none) (.cycle []) rightChoices.settings =
            .ok m ∧
          launch fs true (.cycle []) rightChoices.options .binary64 .idle (fun _ => 0) 5 =
            .ofRun (Session.run (Session.onReading .binary64 .idle) (fun _ => 0) 5 (.start m)) := by
  intro fs
  have hwindow : ∀ c : Choices, c.renderer = some headlessName → c.WantsWindow → true = false := by
    intro c h
    rintro (hnone | hwindowed)
    · cases h.symm.trans hnone
    · exact absurd (Option.some.inj (h.symm.trans hwindowed)) (by decide)
  have hfirst : wrongChoices.FirstFails fs Stage.inOrder (.keymap .wrongCount) :=
    .later ((decides_chooseRenderer (hwindow _ rfl)).passes rfl)
      (.later ((decides_readProgram (by decide)).passes rfl) (.here (.keymap rfl)))
  have hpasses : ∀ stage, rightChoices.Passes fs stage := by
    intro stage
    cases stage with
    | renderer => exact (decides_chooseRenderer (hwindow _ rfl)).passes rfl
    | program => exact (decides_readProgram (by decide)).passes rfl
    | keymap => exact decides_chooseKeymap.passes rfl
    | timers => exact decides_timers.passes rfl
    | image =>
      intro e he
      obtain ⟨reason, hreason, -⟩ := (decides_loadRefusal? rfl).2 he
      cases hreason
  obtain ⟨-, -, hruns⟩ :=
    first_bad_stage_decides fs rightChoices (by decide) (hwindow _ rfl) (.cycle [])
  obtain ⟨program, keymap, m, hfile, -, hcreate, -, hlaunch⟩ := hruns hpasses
  cases hfile
  obtain ⟨-, hfails, -⟩ :=
    first_bad_stage_decides fs wrongChoices (by decide) (hwindow _ rfl) (.cycle [])
  exact ⟨by decide, hwindow _ rfl, hfirst, .reserved rfl (by decide) (by decide),
    .reload rfl (by decide), hfails _ hfirst _ _ _ _, hpasses, keymap, m, hcreate, hlaunch _ _ _ _⟩

end Startup

end Chip8
