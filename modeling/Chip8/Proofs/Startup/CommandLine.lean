import Chip8.Proofs.CommandLine.Reload
import Chip8.Proofs.Machine.PowerOn
import Chip8.Proofs.Session.Errors
import Chip8.Proofs.Startup.Stages

/-!
# Starting from the command line

A command line that is accepted, and asks for no window, starts a machine that is set up as it says,
unless something is wrong with the program or with the keymap. There is one more way to fail: an
option that stands without a value is accepted, and refused only at the start.

* `Refusal` are the errors with which such a start fails, each with its reason;
* `Carries` says of a machine about to run that it is set up by the options;
* `EndsRun` are the errors with which its run fails;
* `refusal_of_prepare`, `carries_of_prepare` and `endsRun_of_session` derive these for options that
  a command line comes to, and `starts_as_accepted` puts them together.
-/

namespace Chip8.Startup

open CommandLine (Accepted Stands bind_eq_ok)

variable {fs : FileSystem} {windowSystem : Bool} {random : RandomSource} {arguments : List String}
  {o : Options} {e : Error} {p : Prepared} {name : String} {program : List UInt8}

/-- Why a start without a window is refused. -/
inductive Refusal (fs : FileSystem) (o : Options) : Error → Prop
  | unreadable {name : String} {reason : FileError} (hname : o.filename = some (.value name))
      (h : fs name = .error reason) : Refusal fs o (.load (.unreadable name reason))
  | empty {name : String} (hname : o.filename = some (.value name)) (h : fs name = .ok []) :
      Refusal fs o (.load (.empty name))
  /-- The program does not fit in memory above the font. -/
  | image {name : String} {program : List UInt8} {start : Int} {reason : LoadError}
      (hname : o.filename = some (.value name)) (hfile : fs name = .ok program)
      (hstart : o.start = some (.value start))
      (h : Machine.fontMemory.loadRefusal? start program.length = some reason) :
      Refusal fs o (.load reason)
  | keymap {text : String} {reason : KeymapError} (htext : o.keymap = some (.value text))
      (h : Keymap.parse text = .error reason) : Refusal fs o (.keymap reason)
  | blankKeymap (h : o.keymap = some .blank) : Refusal fs o (.blankOption .keymap)
  | blankStart (h : o.start = some .blank) : Refusal fs o (.blankOption .start)
  | blankReload (h : o.timerReload = some .blank) : Refusal fs o (.blankOption .timerReload)

/-- A machine is about to run the program that the options name, and is set up by them. -/
structure Carries (fs : FileSystem) (o : Options) (p : Prepared) : Prop where
  poweredOn : ∃ name program start reload,
    o.filename = some (.value name) ∧ fs name = .ok program ∧ o.start = some (.value start) ∧
      o.timerReload = some (.ofOption reload) ∧ p.machine.PoweredOn program start reload
  cycles : o.cycles = some p.cycles
  cyclesPerFrame : ∀ cycles, p.cycles = .value cycles → p.machine.cyclesPerFrame = cycles
  keymap : ∃ text, o.keymap = some (.value text) ∧
    Keymap.parse text = .ok p.machine.keypad.keymap
  debug : o.debug = some (.value p.machine.live)

/-- Why a run of a prepared machine fails, which then is `m`: the clock is exhausted, the number of
instructions in a frame stands without a value, or the machine has halted at an instruction. -/
inductive EndsRun (p : Prepared) (m : Machine) : Error → Prop
  | clock : EndsRun p m .clockExhausted
  | blankCycles (h : p.cycles = .blank) : EndsRun p m (.blankOption .cycles)
  | halted {f : Fault} (h : m.fault = some f) : EndsRun p m (.fault f)

/-! ### Refusals -/

/-- A computation in two steps fails just if one of them fails, the first one or the second one. -/
theorem bind_eq_error {α β : Type} {x : Except Error α} {k : α → Except Error β} :
    (x >>= k) = .error e ↔ x = .error e ∨ ∃ a, x = .ok a ∧ k a = .error e := by
  cases x with
  | error e' =>
    have hfails : (Except.error e' >>= k) = .error e' := rfl
    simp [hfails]
  | ok a =>
    have hgoes : (Except.ok a >>= k) = k a := rfl
    simp [hgoes]

theorem refusal_of_readProgram (hnull : '\x00' ∉ name.toList)
    (hname : o.filename = some (.value name)) (h : fs.readProgram name = .error e) :
    Refusal fs o e := by
  rcases error_of_readProgram hnull h with ⟨reason, hfile, rfl⟩ | ⟨hfile, rfl⟩
  · exact .unreadable hname hfile
  · exact .empty hname hfile

theorem refusal_of_chooseKeymap {keymap : Given String} (hkeymap : o.keymap = some keymap)
    (hstands : Stands (fun _ => True) o.keymap) (h : chooseKeymap keymap = .error e) :
    Refusal fs o e := by
  rw [hkeymap] at hstands
  rcases hstands with hblank | ⟨text, htext, -⟩
  · cases hblank
    cases h
    exact .blankKeymap hkeymap
  · cases htext
    obtain ⟨reason, hparse, rfl⟩ := error_of_chooseKeymap h
    exact .keymap hkeymap hparse

theorem build_eq (program : List UInt8) (keymap : Keymap) (display : Display)
    (random : RandomSource) (live : Bool) (start cycles timerReload : Given Int) :
    build program keymap display random live start cycles timerReload = (do
      let start ← start.optionalValue .start
      let machine ← Machine.create program keymap display random
        ⟨start, cycles.value?, timerReload.value?, live⟩
      let _ ← timerReload.optionalValue .timerReload
      return machine) := rfl

/-- A reload value that the command line accepts is one that the timers accept. -/
theorem exists_timers (hreload : o.timerReload = some .unset ∨
      Stands (fun r => 0 ≤ r ∧ r < 256) o.timerReload) {timerReload : Given Int}
    (htimerReload : o.timerReload = some timerReload) :
    ∃ timers, Timers.create timerReload.value? = .ok timers := by
  rw [htimerReload] at hreload
  rcases hreload with hunset | hblank | ⟨r, hr, hbyte⟩
  · cases hunset
    exact ⟨_, rfl⟩
  · cases hblank
    exact ⟨_, rfl⟩
  · cases hr
    exact ⟨_, if_pos hbyte⟩

theorem error_of_optionalValue {α : Type} {given : Given α} {option : OptionName}
    (h : given.optionalValue option = .error e) : given = .blank ∧ e = .blankOption option := by
  cases given with
  | blank =>
    cases h
    exact ⟨rfl, rfl⟩
  | unset | value => cases h

theorem eq_ofOption_of_ok {α : Type} {given : Given α} {option : OptionName} {a : Option α}
    (h : given.optionalValue option = .ok a) : given = .ofOption a := by
  cases given with
  | blank => cases h
  | unset | value =>
    cases h
    rfl

/-- An option that is there and does not stand without a value has one. -/
theorem exists_value_of_stands {α : Type} {P : α → Prop} {a : Option α}
    (h : Stands P (some (.ofOption a))) : ∃ value, a = some value := by
  cases a with
  | some value => exact ⟨value, rfl⟩
  | none => rcases h with h | ⟨_, h, -⟩ <;> cases h

/-- With a reload value that the timers accept, a machine is not created only because of its
program. -/
theorem error_of_create {keymap : Keymap} {display : Display} {settings : Machine.Settings}
    (htimers : ∃ timers, Timers.create settings.timerReload = .ok timers)
    (h : Machine.create program keymap display random settings = .error e) :
    ∃ reason, Machine.fontMemory.loadRefusal? settings.origin program.length = some reason ∧
      e = .load reason := by
  rw [Machine.create_eq] at h
  cases hload : Machine.fontMemory.loadRefusal? settings.origin program.length with
  | some reason =>
    rw [hload] at h
    cases h
    exact ⟨reason, rfl, rfl⟩
  | none =>
    obtain ⟨timers, htimers⟩ := htimers
    rw [hload, htimers] at h
    cases h

theorem refusal_of_build (ho : Accepted arguments o) (hname : o.filename = some (.value name))
    (hfile : fs name = .ok program) {start cycles timerReload : Given Int}
    (hstart : o.start = some start) (htimerReload : o.timerReload = some timerReload)
    {keymap : Keymap} {display : Display} {live : Bool}
    (h : build program keymap display random live start cycles timerReload = .error e) :
    Refusal fs o e := by
  rw [build_eq] at h
  rcases bind_eq_error.1 h with hblank | ⟨start?, hvalue, hcreated⟩
  · obtain ⟨rfl, rfl⟩ := error_of_optionalValue hblank
    exact .blankStart hstart
  obtain rfl := eq_ofOption_of_ok hvalue
  obtain ⟨start, rfl⟩ := exists_value_of_stands (hstart ▸ ho.start)
  have htimers := exists_timers ho.timerReload htimerReload
  rcases bind_eq_error.1 hcreated with hcreate | ⟨m, -, hreload⟩
  · obtain ⟨reason, hload, rfl⟩ := error_of_create htimers hcreate
    exact .image hname hfile hstart hload
  rcases bind_eq_error.1 hreload with hblank | ⟨reload, -, hdone⟩
  · obtain ⟨rfl, rfl⟩ := error_of_optionalValue hblank
    exact .blankReload htimerReload
  · cases hdone

/-! ### The start -/

theorem exists_text_of_chooseKeymap {given : Given String} {keymap : Keymap}
    (h : chooseKeymap given = .ok keymap) :
    ∃ text, given = .value text ∧ Keymap.parse text = .ok keymap := by
  cases given with
  | unset | blank => cases h
  | value text => exact ⟨text, rfl, eq_ok_of_chooseKeymap h⟩

/-- A machine that is built is created with what the options say, and none of those that are needed
stands without a value. -/
theorem exists_create_of_build {keymap : Keymap} {display : Display} {live : Bool}
    {start cycles timerReload : Given Int} {m : Machine}
    (h : build program keymap display random live start cycles timerReload = .ok m) :
    ∃ start? reload, start = .ofOption start? ∧ timerReload = .ofOption reload ∧
      Machine.create program keymap display random ⟨start?, cycles.value?, reload, live⟩ =
        .ok m := by
  rw [build_eq] at h
  obtain ⟨start?, hstart, h⟩ := bind_eq_ok.1 h
  obtain ⟨m', hcreate, h⟩ := bind_eq_ok.1 h
  obtain ⟨reload, hreload, h⟩ := bind_eq_ok.1 h
  cases h
  obtain rfl := eq_ofOption_of_ok hstart
  obtain rfl := eq_ofOption_of_ok hreload
  rw [Given.value?_ofOption] at hcreate
  exact ⟨start?, reload, rfl, rfl, hcreate⟩

/-- The stages of a start without a window. -/
theorem prepare_headless (fs : FileSystem) (windowSystem : Bool) (random : RandomSource)
    (name : String) (scale start cycles timerReload : Given Int) (keymap : Given String)
    (live : Bool) :
    prepare fs windowSystem random
        { filename := some (.value name)
          start := some start
          cycles := some cycles
          renderer := some (.value headlessName)
          scale := some scale
          keymap := some keymap
          timerReload := some timerReload
          debug := some (.value live) } = (do
      let program ← fs.readProgram name
      let keymap ← chooseKeymap keymap
      let machine ←
        build program keymap (.headless scale.value?) random live start cycles timerReload
      return ⟨machine, cycles⟩) := rfl

/-- Options of a command line that asks for no window. -/
theorem exists_givens (ho : Accepted arguments o) (hname : o.filename = some (.value name))
    (hrenderer : o.renderer = some (.value headlessName)) :
    ∃ start cycles scale keymap timerReload live,
      o = { filename := some (.value name)
            start := some start
            cycles := some cycles
            renderer := some (.value headlessName)
            scale := some scale
            keymap := some keymap
            timerReload := some timerReload
            debug := some (.value live) } := by
  obtain ⟨start, hstart⟩ := ho.start.exists_given
  obtain ⟨cycles, hcycles⟩ := ho.cycles.exists_given
  obtain ⟨scale, hscale⟩ : ∃ scale, o.scale = some scale :=
    ho.scale.elim (fun h => ⟨_, h⟩) Stands.exists_given
  obtain ⟨keymap, hkeymap⟩ := ho.keymap.exists_given
  obtain ⟨timerReload, htimerReload⟩ : ∃ timerReload, o.timerReload = some timerReload :=
    ho.timerReload.elim (fun h => ⟨_, h⟩) Stands.exists_given
  obtain ⟨live, hdebug⟩ := ho.debug
  refine ⟨start, cycles, scale, keymap, timerReload, live, ?_⟩
  cases o
  simp only at *
  simp only [*]

/-- **Why an accepted command line does not start.** -/
theorem refusal_of_prepare (ho : Accepted arguments o) (hname : o.filename = some (.value name))
    (hnull : '\x00' ∉ name.toList) (hrenderer : o.renderer = some (.value headlessName))
    (h : prepare fs windowSystem random o = .error e) : Refusal fs o e := by
  obtain ⟨start, cycles, scale, keymap, timerReload, live, rfl⟩ := exists_givens ho hname hrenderer
  rw [prepare_headless] at h
  rcases bind_eq_error.1 h with hread | ⟨program, hread, h⟩
  · exact refusal_of_readProgram hnull rfl hread
  rcases bind_eq_error.1 h with hchoose | ⟨keymap, -, h⟩
  · exact refusal_of_chooseKeymap rfl ho.keymap hchoose
  rcases bind_eq_error.1 h with hbuild | ⟨m, -, h⟩
  · exact refusal_of_build ho rfl (eq_ok_of_readProgram hnull hread) rfl rfl hbuild
  · cases h

/-- **What an accepted command line starts.** -/
theorem carries_of_prepare (ho : Accepted arguments o) (hname : o.filename = some (.value name))
    (hnull : '\x00' ∉ name.toList) (hrenderer : o.renderer = some (.value headlessName))
    (h : prepare fs windowSystem random o = .ok p) : Carries fs o p ∧ p.machine.Intact := by
  obtain ⟨start, cycles, scale, keymap, timerReload, live, rfl⟩ := exists_givens ho hname hrenderer
  rw [prepare_headless] at h
  obtain ⟨program, hread, h⟩ := bind_eq_ok.1 h
  obtain ⟨map, hchoose, h⟩ := bind_eq_ok.1 h
  obtain ⟨m, hbuild, h⟩ := bind_eq_ok.1 h
  cases h
  obtain ⟨text, rfl, hparse⟩ := exists_text_of_chooseKeymap hchoose
  obtain ⟨start?, reload, rfl, rfl, hcreate⟩ := exists_create_of_build hbuild
  obtain ⟨start, rfl⟩ := exists_value_of_stands ho.start
  have hon := Machine.PoweredOn.of_create hcreate
  have hfile := eq_ok_of_readProgram hnull hread
  have hintact := (Machine.WellFormed.of_create hcreate).toIntact
  obtain ⟨-, timers, -, rfl⟩ := Machine.create_eq_ok_iff.1 hcreate
  have hcycles : ∀ c, cycles = .value c → cycles.value?.getD Machine.defaultCycles = c := by
    rintro c rfl
    rfl
  exact
    ⟨{ poweredOn := ⟨name, program, start, reload, rfl, hfile, rfl, rfl, hon⟩
       cycles := rfl
       cyclesPerFrame := hcycles
       keymap := ⟨text, rfl, hparse⟩
       debug := rfl }, hintact⟩

/-! ### The run -/

/-- The frames of a prepared machine fail for want of a number of instructions, or by halting it. -/
theorem frameFailsBy_frame : Session.FrameFailsBy p.frame fun e fault =>
    p.cycles = .blank ∧ e = .blankOption .cycles ∨ ∃ f, e = .fault f ∧ fault = some f := by
  intro m hm
  by_cases hblank : p.cycles = .blank ∧ m.fault = none
  · rw [Prepared.frame, if_pos hblank]
    exact ⟨hm, .inl ⟨hblank.1, rfl⟩⟩
  · rw [Prepared.frame, if_neg hblank]
    have hends := Session.frameFailsBy_frame m hm
    cases hframe : m.frame with
    | ok _ m' =>
      rw [hframe] at hends
      exact hends
    | error e m' =>
      rw [hframe] at hends
      exact ⟨hends.1, .inr hends.2⟩

/-- **How the run of a machine fails that has been started.** -/
theorem endsRun_of_session (hm : p.machine.Intact) {pacing : Pacing} {host : Host}
    {clock : Nat → Rat} {limit : Nat} {s : Session}
    (h : p.session pacing host clock limit = .error e s) : EndsRun p s.machine e := by
  have hstart : (Session.start p.machine).machine.Intact := hm
  rcases Session.error_of_run frameFailsBy_frame hstart h with
    rfl | ⟨hblank, rfl⟩ | ⟨f, rfl, hf⟩
  · exact .clock
  · exact .blankCycles hblank
  · exact .halted hf

/-! ### Command lines -/

/-- **What the command line accepts is started as it says.** Let a command line be accepted that
asks for no window and in which no argument holds the character `U+0000`. If the start is refused,
that is for the program, for the keymap, or for an option that stands without a value. Otherwise the
machine that is run is set up as the options say, and the run fails only if the clock is exhausted,
if the number of instructions in a frame stands without a value, or at an instruction at which the
machine halts. Conversely, each reload value that the timers accept is accepted in front of the
command line, and sets the reload value if that is left open. -/
theorem starts_as_accepted (h : CommandLine.parse arguments = .ok o)
    (hnull : ∀ text ∈ arguments, '\x00' ∉ text.toList)
    (hrenderer : o.renderer = some (.value headlessName)) (fs : FileSystem) (windowSystem : Bool)
    (random : RandomSource) :
    (∀ e, prepare fs windowSystem random o = .error e → Refusal fs o e) ∧
      (∀ p, prepare fs windowSystem random o = .ok p →
        Carries fs o p ∧ ∀ pacing host clock limit,
          launch fs windowSystem random o pacing host clock limit =
              .ofRun (p.session pacing host clock limit) ∧
            ∀ e s, p.session pacing host clock limit = .error e s → EndsRun p s.machine e) ∧
      ∀ r timers, Timers.create (some r) = .ok timers →
        ∀ name ∈ CommandLine.Switch.timerReload.names,
          CommandLine.parse (name :: toString r :: arguments) = .ok (o.withReload r) := by
  obtain ⟨ho, name, hmem, hname⟩ := CommandLine.accepted_of_parse h
  have hnull := hnull name hmem
  refine ⟨fun e he => refusal_of_prepare ho hname hnull hrenderer he, fun p hp => ?_,
    fun r timers htimers switch hswitch => ?_⟩
  · obtain ⟨hcarries, hintact⟩ := carries_of_prepare ho hname hnull hrenderer hp
    refine ⟨hcarries, fun pacing host clock limit => ?_⟩
    exact ⟨launch_of_prepare_ok hp pacing host clock limit,
      fun e s hs => endsRun_of_session hintact hs⟩
  · have hbyte : 0 ≤ r ∧ r < 256 := by
      unfold Timers.create at htimers
      dsimp only at htimers
      split_ifs at htimers with hbyte
      exact hbyte
    rw [CommandLine.parse_reload hswitch hbyte, h]
    rfl

/-- A jump to itself, in whatever file it is looked for. -/
def jumpFile : FileSystem := fun _ => .ok [0x12, 0x00]

/-- The options of a command line with a file name and a reload value. -/
def reloadOptions (timerReload : Given Int) : Options :=
  { CommandLine.defaults with
    filename := some (.value "p")
    renderer := some (.value headlessName)
    timerReload := some timerReload }

/-- The only thing that can be wrong with these options is a reload value that is left out. -/
theorem of_refusal_reloadOptions {timerReload : Given Int}
    (h : Refusal jumpFile (reloadOptions timerReload) e) :
    timerReload = .blank ∧ e = .blankOption .timerReload := by
  cases h with
  | unreadable _ h => cases h
  | empty _ h => cases h
  | image hname hfile hstart h =>
    cases hfile
    cases hstart
    cases h
  | keymap htext h =>
    cases htext
    cases h
  | blankKeymap h => cases h
  | blankStart h => cases h
  | blankReload h =>
    cases h
    exact ⟨rfl, rfl⟩

theorem starts_as_accepted_of_reload :
    CommandLine.parse ["p", "-r", "null", "-t", "60"] = .ok (reloadOptions (.value 60)) ∧
      (∀ text ∈ ["p", "-r", "null", "-t", "60"], '\x00' ∉ text.toList) ∧
      (reloadOptions (.value 60)).renderer = some (.value headlessName) ∧
      Timers.create (some 7) = .ok ⟨some 7, 7, 7⟩ ∧
      "-t" ∈ CommandLine.Switch.timerReload.names ∧
      (∃ p, prepare jumpFile true (.cycle []) (reloadOptions (.value 60)) = .ok p ∧
        p.machine.pc = 0x200 ∧ p.machine.timers.delay = 60 ∧ p.machine.cyclesPerFrame = 20) ∧
      CommandLine.parse ["-t", "7", "p", "-r", "null", "-t", "60"] =
        .ok (reloadOptions (.value 60)) := by
  have hparse : CommandLine.parse ["p", "-r", "null", "-t", "60"] =
      .ok (reloadOptions (.value 60)) := by decide +kernel
  have hnull : ∀ text ∈ ["p", "-r", "null", "-t", "60"], '\x00' ∉ text.toList := by decide
  obtain ⟨hrefused, hstarted, hreload⟩ :=
    starts_as_accepted hparse hnull rfl jumpFile true (.cycle [])
  refine ⟨hparse, hnull, rfl, rfl, by decide, ?_, hreload 7 _ rfl "-t" (by decide)⟩
  cases hprepare : prepare jumpFile true (.cycle []) (reloadOptions (.value 60)) with
  | error e => exact absurd (of_refusal_reloadOptions (hrefused e hprepare)).1 nofun
  | ok p =>
    obtain ⟨hcarries, -⟩ := hstarted p hprepare
    obtain ⟨_, _, _, reload, -, -, hstart, htimerReload, hon⟩ := hcarries.poweredOn
    cases hstart
    obtain rfl : reload = some 60 := by
      have hvalue : some 60 = (Given.ofOption reload).value? :=
        congrArg (Option.bind · Given.value?) htimerReload
      rw [Given.value?_ofOption] at hvalue
      exact hvalue.symm
    have hcycles : p.cycles = .value 20 := (Option.some.inj hcarries.cycles).symm
    exact ⟨p, rfl, hon.pc, congrArg Timers.delay hon.timers, hcarries.cyclesPerFrame 20 hcycles⟩

/-- A reload value that is left out behind its switch is accepted, and refused at the start. -/
theorem blank_reload_refused :
    CommandLine.parse ["p", "-r", "null", "-t--"] = .ok (reloadOptions .blank) ∧
      (∀ text ∈ ["p", "-r", "null", "-t--"], '\x00' ∉ text.toList) ∧
      (reloadOptions .blank).renderer = some (.value headlessName) ∧
      launch jumpFile true (.cycle []) (reloadOptions .blank) .binary64 .idle (fun _ => 0) 5 =
        ⟨[banner], some (.blankOption .timerReload)⟩ := by
  have hparse : CommandLine.parse ["p", "-r", "null", "-t--"] = .ok (reloadOptions .blank) := by
    decide +kernel
  obtain ⟨ho, -⟩ := CommandLine.accepted_of_parse hparse
  refine ⟨hparse, by decide, rfl, ?_⟩
  cases hprepare : prepare jumpFile true (.cycle []) (reloadOptions .blank) with
  | error e =>
    obtain ⟨-, rfl⟩ := of_refusal_reloadOptions (refusal_of_prepare ho rfl (by decide) rfl hprepare)
    rw [launch, hprepare]
  | ok p =>
    obtain ⟨hcarries, -⟩ := carries_of_prepare ho rfl (by decide) rfl hprepare
    obtain ⟨_, _, _, reload, -, -, -, hreload, -⟩ := hcarries.poweredOn
    cases reload <;> cases hreload

end Chip8.Startup
