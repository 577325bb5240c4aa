import Mathlib.Data.Option.Basic
import Mathlib.Tactic.SplitIfs
import Chip8.Proofs.Machine.Creation
import Chip8.Startup

/-!
# Defaults

An option that is unset means its default, and so a start does not change if some of its unset
options are spelled out. The keymap is the one that must be spelled out.

* `Given.Spelled` is one option as it stands or with its default spelled out, `Options.Spelled` all
  of them but the keymap;
* `Startup.Prepared.session` is the run of a prepared machine, with its last state;
* `Options.Spelled.session_prepare` says that options that are spelled out lead to the same error or
  to the same run, and `prepare_of_unset_keymap` that an unset keymap leads to no run.
-/

namespace Chip8

/-- An option as it stands, or with the default it means spelled out. -/
inductive Given.Spelled {α : Type} (meant : α) : Given α → Given α → Prop
  | same (given : Given α) : Spelled meant given given
  | out : Spelled meant .unset (.value meant)

/-- The scale of a renderer for which none is asked. -/
def Startup.Renderer.defaultScale : Startup.Renderer → Int
  | .windowed => 640
  | .headless => 1

/-- The renderer that the options name, whether or not it can be used. -/
def Options.named (o : Options) : Startup.Renderer :=
  if o.renderer = some (.value headlessName) then .headless else .windowed

/-- The same options, some of the unset ones spelled out; but not the keymap. The reload value has
no default that could be spelled out: unset, there is none. -/
structure Options.Spelled (o o' : Options) : Prop where
  filename : o'.filename = o.filename
  start : Option.Rel (Given.Spelled Machine.defaultStart) o.start o'.start
  cycles : Option.Rel (Given.Spelled Machine.defaultCycles) o.cycles o'.cycles
  renderer : Option.Rel (Given.Spelled windowedName) o.renderer o'.renderer
  scale : Option.Rel (Given.Spelled o.named.defaultScale) o.scale o'.scale
  keymap : o'.keymap = o.keymap
  timerReload : o'.timerReload = o.timerReload
  debug : Option.Rel (Given.Spelled false) o.debug o'.debug

/-- What follows a stage only has to agree on the result that the stage really has. -/
theorem bind_congr_of_ok {α β : Type} {x : Except Error α} {k k' : α → Except Error β}
    (hk : ∀ a, x = .ok a → k a = k' a) : (x >>= k) = (x >>= k') := by
  cases x with
  | error e => rfl
  | ok a => exact hk a rfl

/-- Options that are both missing fail alike. -/
theorem bind_require {α β : Type} {R : Given α → Given α → Prop} {o o' : Option (Given α)}
    (h : Option.Rel R o o') (name : OptionName) {k k' : Given α → Except Error β}
    (hk : ∀ given given', o = some given → R given given' → k given = k' given') :
    (require name o >>= k) = (require name o' >>= k') := by
  cases h with
  | none => rfl
  | some hgiven => exact hk _ _ rfl hgiven

namespace Startup

variable {fs : FileSystem} {windowSystem : Bool} {random : RandomSource} {o o' : Options}

/-! ### The stages -/

theorem chooseRenderer_spelled {given given' : Given String}
    (h : Given.Spelled windowedName given given') :
    chooseRenderer windowSystem given = chooseRenderer windowSystem given' := by
  cases h with
  | same => rfl
  | out => rw [chooseRenderer, chooseRenderer, if_pos rfl]

/-- A renderer that can be used is the one that was named. -/
theorem named_of_chooseRenderer {given : Given String} {renderer : Renderer}
    (hgiven : o.renderer = some given) (h : chooseRenderer windowSystem given = .ok renderer) :
    o.named = renderer := by
  have hdistinct : windowedName ≠ headlessName := by decide
  unfold Options.named
  rw [hgiven]
  cases given with
  | unset =>
    rw [if_neg nofun]
    rw [chooseRenderer] at h
    split_ifs at h
    exact Except.ok.inj h
  | blank => cases h
  | value name =>
    rw [chooseRenderer] at h
    split_ifs at h with hwindowed _ hheadless
    · rw [hwindowed, if_neg (by simpa using hdistinct)]
      exact Except.ok.inj h
    · rw [hheadless, if_pos rfl]
      exact Except.ok.inj h

theorem openDisplay_spelled {renderer : Renderer} {given given' : Given Int}
    (h : Given.Spelled renderer.defaultScale given given') :
    openDisplay renderer given = openDisplay renderer given' := by
  cases h with
  | same => rfl
  | out => cases renderer <;> rfl

theorem debug_spelled {given given' : Given Bool} (h : Given.Spelled false given given') :
    given.value?.getD false = given'.value?.getD false := by
  cases h <;> rfl

theorem build_spelled (program : List UInt8) (keymap : Keymap) (display : Display)
    (random : RandomSource) (live : Bool) {start start' cycles cycles' : Given Int}
    (hstart : Given.Spelled Machine.defaultStart start start')
    (hcycles : Given.Spelled Machine.defaultCycles cycles cycles') (timerReload : Given Int) :
    build program keymap display random live start cycles timerReload =
      build program keymap display random live start' cycles' timerReload := by
  cases hstart <;> cases hcycles <;> rfl

/-! ### The whole start -/

/-- The run of a prepared machine on a clock. -/
def Prepared.session (p : Prepared) (pacing : Pacing) (host : Host) (clock : Nat → Rat)
    (limit : Nat) : EStateM.Result Error Session Unit :=
  Session.run (p.onReading pacing host) clock limit (.start p.machine)

theorem session_spelled (machine : Machine) {cycles cycles' : Given Int} {meant : Int}
    (h : Given.Spelled meant cycles cycles') :
    Prepared.session ⟨machine, cycles⟩ = Prepared.session ⟨machine, cycles'⟩ := by
  cases h <;> rfl

/-- Options of which some are spelled out, any of them but the keymap, fail for the same reason or
lead to the same run, up to its last state. -/
theorem session_prepare_spelled (h : o.Spelled o') :
    Prepared.session <$> prepare fs windowSystem random o =
      Prepared.session <$> prepare fs windowSystem random o' := by
  unfold prepare
  simp only [map_bind]
  refine bind_require h.renderer _ fun name name' hname hrenderer => ?_
  rw [chooseRenderer_spelled hrenderer, h.filename, h.keymap, h.timerReload]
  -- The scale's default is the renderer's own, so that the stage of the scale has to know which
  -- renderer was chosen.
  refine bind_congr_of_ok fun renderer hchosen => ?_
  have hnamed : o.named = renderer :=
    named_of_chooseRenderer hname ((chooseRenderer_spelled hrenderer).trans hchosen)
  refine bind_congr fun given => bind_congr fun filename => bind_congr fun program => ?_
  refine bind_require h.scale _ fun scale scale' _ hscale => ?_
  rw [openDisplay_spelled (hnamed ▸ hscale)]
  refine bind_congr fun display => bind_congr fun given => bind_congr fun keymap => ?_
  refine bind_require h.debug _ fun debug debug' _ hdebug => ?_
  refine bind_require h.start _ fun start start' _ hstart => ?_
  refine bind_require h.cycles _ fun cycles cycles' _ hcycles => bind_congr fun reload => ?_
  rw [debug_spelled hdebug, build_spelled program keymap display random _ hstart hcycles reload]
  refine bind_congr fun machine => ?_
  rw [map_pure, map_pure, session_spelled machine hcycles]

/-- What the program prints is decided by the run of the machine that it prepares. -/
theorem launch_eq (o : Options) (pacing : Pacing) (host : Host) (clock : Nat → Rat) (limit : Nat) :
    launch fs windowSystem random o pacing host clock limit =
      match Prepared.session <$> prepare fs windowSystem random o with
      | .error e => ⟨[banner], some e⟩
      | .ok session =>
        match session pacing host clock limit with
        | .ok _ s => ⟨banner :: s.machine.trace.toList, none⟩
        | .error e s => ⟨banner :: s.machine.trace.toList, some e⟩ := by
  unfold launch
  cases prepare fs windowSystem random o <;> rfl

/-! ### The keymap -/

/-- The first of two starts fails, for the reason `e` or for one that the second fails for too. -/
def FailsBy {α : Type} (e : Error) (x y : Except Error α) : Prop :=
  ∃ reason, x = .error reason ∧ (reason = e ∨ y = .error reason)

theorem FailsBy.bind {α β : Type} {e : Error} {x : Except Error α} {k k' : α → Except Error β}
    (hk : ∀ a, FailsBy e (k a) (k' a)) : FailsBy e (x >>= k) (x >>= k') := by
  cases x with
  | error reason => exact ⟨reason, rfl, .inr rfl⟩
  | ok a => exact hk a

/-- An unset keymap is refused, unless the start fails before it comes to the keymap. -/
theorem prepare_of_unset_keymap (h : o.keymap = some .unset) (given : Given String) :
    FailsBy (.unsetOption .keymap) (prepare fs windowSystem random o)
      (prepare fs windowSystem random { o with keymap := some given }) := by
  unfold prepare
  refine .bind fun name => .bind fun renderer => .bind fun filename => .bind fun filename => ?_
  refine .bind fun program => .bind fun scale => .bind fun display => ?_
  rw [h]
  exact ⟨.unsetOption .keymap, rfl, .inl rfl⟩

/-- **A default may be spelled out, that of the keymap must be.** Options that differ in that some
unset ones are spelled out, any of them but the keymap, lead to the same run, up to its last state,
or fail for the same reason, and print the same. With its keymap unset the program does not run: it
is refused for that, unless it fails before for a reason that spelling the keymap out leaves. -/
theorem defaults_spelled_out (h : o.Spelled o') (pacing : Pacing) (host : Host)
    (clock : Nat → Rat) (limit : Nat) :
    Prepared.session <$> prepare fs windowSystem random o =
        Prepared.session <$> prepare fs windowSystem random o' ∧
      launch fs windowSystem random o pacing host clock limit =
        launch fs windowSystem random o' pacing host clock limit ∧
      (o.keymap = some .unset → ∀ text, ∃ reason,
        launch fs windowSystem random o pacing host clock limit = ⟨[banner], some reason⟩ ∧
          (reason = .unsetOption .keymap ∨
            launch fs windowSystem random { o with keymap := some (.value text) } pacing host clock
              limit = ⟨[banner], some reason⟩)) := by
  have hsession : Prepared.session <$> prepare fs windowSystem random o =
      Prepared.session <$> prepare fs windowSystem random o' := session_prepare_spelled h
  refine ⟨hsession, by rw [launch_eq, launch_eq, hsession], fun hkeymap text => ?_⟩
  have hfails : FailsBy (.unsetOption .keymap) (prepare fs windowSystem random o)
      (prepare fs windowSystem random { o with keymap := some (.value text) }) :=
    prepare_of_unset_keymap hkeymap (.value text)
  obtain ⟨reason, hreason, hspelled⟩ := hfails
  refine ⟨reason, by rw [launch, hreason], hspelled.imp_right fun hsame => ?_⟩
  rw [launch, hsame]

/-- The default keymap, all other options unset but for the name of the program and a renderer
without a window. -/
def unsetOptions : Options where
  filename := some (.value "p")
  start := some .unset
  cycles := some .unset
  renderer := some (.value headlessName)
  scale := some .unset
  keymap := some (.value Keymap.defaultText)
  timerReload := some .unset
  debug := some .unset

/-- The same options with every default spelled out. -/
def spelledOptions : Options :=
  { unsetOptions with
    start := some (.value 0x200)
    cycles := some (.value 20)
    scale := some (.value 1)
    debug := some (.value false) }

/-- The address at which a run has halted. -/
def Outcome.haltedAt? (outcome : Outcome) : Option Int :=
  match outcome.error with
  | some (.fault f) => f.address
  | _ => none

/-- A program of two instructions, of which the second one is a call of native code, runs with
either options, and halts at that call. -/
theorem defaults_spelled_out_of_unset :
    let fs : FileSystem := fun _ => .ok [0x60, 0x05, 0x00, 0x00]
    unsetOptions.Spelled spelledOptions ∧
      launch fs false (.cycle []) unsetOptions .binary64 .idle (fun _ => 0) 5 =
        launch fs false (.cycle []) spelledOptions .binary64 .idle (fun _ => 0) 5 ∧
      (launch fs false (.cycle []) spelledOptions .binary64 .idle (fun _ => 0) 5).haltedAt? =
        some 0x202 := by
  intro fs
  have hspelled : unsetOptions.Spelled spelledOptions :=
    ⟨rfl, .some .out, .some .out, .some (.same _), .some .out, rfl, rfl, .some .out⟩
  exact ⟨hspelled, (defaults_spelled_out hspelled _ _ _ _).2.1, by decide +kernel⟩

/-- The default of the keymap is not used when the keymap is unset. -/
theorem unset_keymap_ne_default :
    launch (fun _ => .ok [0x12, 0x00]) false (.cycle [])
        { unsetOptions with keymap := some .unset } .binary64 .idle (fun _ => 0) 0 ≠
      launch (fun _ => .ok [0x12, 0x00]) false (.cycle []) unsetOptions .binary64 .idle
        (fun _ => 0) 0 := by
  let keymap : Keymap :=
    ⟨[120, 49, 50, 51, 113, 119, 101, 97, 115, 100, 122, 99, 52, 114, 102, 118], rfl, by decide⟩
  let settings : Machine.Settings := ⟨none, none, none, false⟩
  have hload : Machine.fontMemory.loadRefusal? settings.origin 2 = none := by
    rw [Memory.loadRefusal?_eq_none_iff]
    exact ⟨by decide, by decide, by decide⟩
  let m : Machine :=
    .powerOn [0x12, 0x00] keymap (.headless none) (.cycle []) settings ⟨none, 0, 0⟩
  have hcreate : Machine.create [0x12, 0x00] keymap (.headless none) (.cycle []) settings = .ok m :=
    Machine.create_of_fits hload rfl
  have hspelled : prepare (fun _ => .ok [0x12, 0x00]) false (.cycle []) unsetOptions =
      .ok ⟨m, .unset⟩ := by
    have hkeymap : chooseKeymap (.value Keymap.defaultText) = .ok keymap := rfl
    change (chooseKeymap (.value Keymap.defaultText) >>= fun keymap =>
      build [0x12, 0x00] keymap (.headless none) (.cycle []) false .unset .unset .unset >>=
        fun m => (pure ⟨m, .unset⟩ : Except Error Prepared)) = _
    rw [hkeymap]
    change (Machine.create [0x12, 0x00] keymap (.headless none) (.cycle []) settings >>= fun m =>
      (pure ⟨m, .unset⟩ : Except Error Prepared)) = _
    rw [hcreate]
    rfl
  have hunset : prepare (fun _ => .ok [0x12, 0x00]) false (.cycle [])
      { unsetOptions with keymap := some .unset } = .error (.unsetOption .keymap) := rfl
  rw [launch, launch, hspelled, hunset]
  intro hsame
  have herror : some (Error.unsetOption .keymap) = some .clockExhausted :=
    congrArg Outcome.error hsame
  cases herror

end Startup

end Chip8
