import Chip8.Proofs.Machine.Footprint
import Chip8.Proofs.Screen.Parity

/-!
# The font in memory

Programs find the glyphs of the hexadecimal digits at the bottom of memory, and nothing that they do
damages them.

* `Machine.HasFont` says that the bottom of memory holds the font;
* `Intact.cells_effect_protected` says that an operation never changes a cell there, as every store
  that begins below the end of the font is refused;
* `Attainable.hasFont` takes this along all runs, and `Attainable.draws_glyph` says what follows for
  programs that look a glyph up and draw it.
-/

namespace Chip8.Machine

variable {m : Machine}

/-- The bottom of memory holds the font. -/
def HasFont (m : Machine) : Prop := ∀ k : Nat, k < 80 → m.memory.cells[k]? = Font.glyphs[k]?

/-! ### No store reaches the font -/

/-- An operation that is not refused changes no cell of the font. -/
theorem Intact.cells_effect_protected (hm : m.Intact) {i : Instruction} (hi : m.refusal? i = none)
    {k : Nat} (hk : k < 80) :
    (m.effect i.operation).memory.cells[k]? = m.memory.cells[k]? := by
  have hstore : ∀ n, (m.memory.writeRefusal? m.index n).map Fault.ofCause = none →
      80 ≤ m.index := by
    intro n hn
    obtain ⟨-, hfree⟩ := Memory.writeRefusal?_eq_none_iff.1 (Option.map_eq_none_iff.1 hn)
    rw [hm.protectedTop] at hfree
    omega
  unfold refusal? at hi
  by_contra h
  rcases cells_effect hm.index.1 _ h with ⟨x, hx, hlow, -⟩ | ⟨x, hx, hlow, -⟩
  · rw [hx] at hi
    have := hstore 3 hi
    omega
  · rw [hx] at hi
    have := hstore (x + 1) hi
    omega

/-- A step changes no cell of the font, whether it is completed or not. -/
theorem Intact.cells_step_protected (hm : m.Intact) {k : Nat} (hk : k < 80) :
    (Action.state (Machine.step m)).memory.cells[k]? = m.memory.cells[k]? := by
  cases h : Machine.step m with
  | ok _ m' =>
    obtain ⟨-, -, i, -, hg, rfl⟩ := hm.of_step_ok h
    exact (hm.ready i).cells_effect_protected hg hk
  | error e m' =>
    obtain ⟨f, -, hm'⟩ := hm.of_step_error h
    show m'.memory.cells[k]? = _
    rw [hm']

/-- The font is in memory at power-on, and a program is loaded above it. -/
theorem HasFont.of_create {program : List UInt8} {keymap : Keymap} {display : Display}
    {random : RandomSource} {settings : Settings}
    (h : create program keymap display random settings = .ok m) : m.HasFont := by
  obtain ⟨hload, timers, -, rfl⟩ := create_eq_ok_iff.1 h
  obtain ⟨⟨h0, -⟩, habove, -⟩ := Memory.loadRefusal?_eq_none_iff.1 hload
  intro k hk
  have hfree : (79 : Int) < settings.origin := habove
  have hfont : fontMemory.cells[k]? = Font.glyphs[k]? := by
    have hsize : k < (Memory.blank memorySize).cells.size := by
      rw [Memory.cells_blank, Array.size_replicate]
      exact lt_trans hk (by decide)
    rw [cells_fontMemory]
    exact Memory.getElem?_cells_written_of_mem _ _ ⟨Nat.zero_le k, lt_of_lt_of_eq hk rfl⟩ hsize
  rw [← hfont]
  exact Memory.getElem?_cells_written fontMemory settings.origin h0 (by omega)

/-- Every machine that can come about has the font in memory. -/
theorem Attainable.hasFont (hm : m.Attainable) : m.HasFont :=
  hm.induction HasFont.of_create
    (fun _ hm h k hk => (hm.cells_step_protected hk).trans (h k hk))
    (fun _ h => h) (fun _ _ h => h) (fun _ _ h => h) fun _ _ h => h

/-! ### Looking up a glyph -/

/-- Reading at the bottom of memory reads the font. -/
theorem HasFont.bytes_eq (h : m.HasFont) {first n : Nat} (hn : first + n ≤ 80) :
    m.memory.bytes first n = (Font.glyphs.drop first).take n := by
  have hlength : Font.glyphs.length = 80 := rfl
  apply List.ext_getElem
  · rw [Memory.length_bytes, List.length_take, List.length_drop, hlength]
    omega
  · intro j hj hj'
    rw [Memory.length_bytes] at hj
    simp only [Memory.bytes, List.getElem_map, List.getElem_range, List.getElem_take,
      List.getElem_drop]
    have hplace : ((first : Int) + (j : Int)).toNat = first + j := by omega
    unfold Memory.byteAt
    rw [hplace, Array.getD_eq_getD_getElem?, h (first + j) (by omega),
      List.getElem?_eq_getElem (by omega)]
    rfl

/-- The digit whose glyph an instruction looks up. -/
def digit (m : Machine) (x : Register) : Fin 16 :=
  ⟨(m.register x).toNat % 16, Nat.mod_lt _ (by decide)⟩

/-- From where a digit's glyph begins, its rows can be read. -/
theorem HasFont.bytes_glyph (h : m.HasFont) (d : Fin 16) {n : Nat} (hn : n ≤ 5) :
    m.memory.bytes ((5 * d : Nat) : Int) n = (Font.glyph d).take n := by
  rw [h.bytes_eq (by omega)]
  unfold Font.glyph
  rw [List.take_take, min_eq_left (show n ≤ Font.glyphSize from hn)]
  rfl

/-- Looking up a glyph is completed, and leaves the index register where the glyph begins. -/
theorem Intact.step_loadGlyph (hm : m.Intact) (hf : m.fault = none) {x : Register}
    (hx : m.NextIs (.loadGlyph x)) :
    ∃ m', Machine.step m = .ok () m' ∧ m'.fault = none ∧ m'.index = ((5 * m.digit x : Nat) : Int) :=
  ⟨_, hx.step_eq nofun hm hf rfl, (fault_stepped m _).trans hf, by
    show (0 : Int) + ((5 : Nat) : Int) * ((m.register x).toNat % 16 : Nat) =
      ((5 * ((m.register x).toNat % 16) : Nat) : Int)
    omega⟩

/-- Drawing a part of a glyph is completed, and inverts just the pixels under the glyph's rows. -/
theorem Intact.step_drawGlyph (hm : m.Intact) (hf : m.fault = none) (hfont : m.HasFont)
    {d : Fin 16} (hindex : m.index = ((5 * d : Nat) : Int)) {x y : Register} {n : Fin 16}
    (hn : (n : Nat) ≤ 5) (hx : m.NextIs (.draw x y n)) :
    ∃ m', Machine.step m = .ok () m' ∧ ∀ a b : Int, m'.screen.cellAt a b =
      if Screen.spriteBit ((Font.glyph d).take n) ((a - (m.register x).toNat).fmod 64).toNat
          ((b - (m.register y).toNat).fmod 32).toNat then
        m.screen.cellAt a b ^^^ 0xFF
      else m.screen.cellAt a b := by
  have hrange : m.memory.InRange m.index n := by
    unfold Memory.InRange Memory.top
    rw [hm.size_memory, hindex]
    omega
  have hread : m.memory.readRefusal? m.index n = none := Memory.readRefusal?_eq_none_iff.2 hrange
  refine ⟨_, hx.step_eq nofun hm hf (Option.map_eq_none_iff.2 hread), ?_⟩
  intro a b
  show (m.screen.drawn (m.register x).toNat (m.register y).toNat
    (m.memory.bytes m.index n)).2.cellAt a b = _
  rw [hindex, hfont.bytes_glyph d hn]
  have hrows : (((Font.glyph d).take n).length : Int) ≤ m.screen.height := by
    rw [hm.height, List.length_take]
    omega
  rw [hm.screen.cellAt_drawn_of_fits (by rw [hm.width]; decide) hrows, hm.width, hm.height]

/-- **The font is never damaged, so that a program always finds the glyph of a digit and can draw
it.** -/
theorem Attainable.draws_glyph {m : Machine} (hm : m.Attainable) :
    m.memory.bytes 0 80 = Font.glyphs ∧
      ∀ x, m.fault = none → m.NextIs (.loadGlyph x) →
        ∃ m₁, step m = .ok () m₁ ∧ m₁.memory.bytes m₁.index 5 = Font.glyph (m.digit x) ∧
          ∀ a b (n : Fin 16), (n : Nat) ≤ 5 → m₁.NextIs (.draw a b n) →
            ∃ m₂, step m₁ = .ok () m₂ ∧ ∀ p q : Int, m₂.screen.cellAt p q =
              if Screen.spriteBit ((Font.glyph (m.digit x)).take n)
                  ((p - (m₁.register a).toNat).fmod 64).toNat
                  ((q - (m₁.register b).toNat).fmod 32).toNat then
                m₁.screen.cellAt p q ^^^ 0xFF
              else m₁.screen.cellAt p q := by
  have hall : m.memory.bytes ((0 : Nat) : Int) 80 = (Font.glyphs.drop 0).take 80 :=
    hm.hasFont.bytes_eq (le_refl 80)
  refine ⟨hall, fun x hf hx => ?_⟩
  obtain ⟨m₁, hstep, hf₁, hindex⟩ := hm.intact.step_loadGlyph hf hx
  have hm₁ : m₁.Attainable := hm.of_step hstep
  refine ⟨m₁, hstep, ?_, fun a b n hn hdraw => ?_⟩
  · rw [hindex, hm₁.hasFont.bytes_glyph _ (le_refl 5)]
    exact List.take_of_length_le (List.length_take_le _ _)
  · exact hm₁.intact.step_drawGlyph hf₁ hm₁.hasFont hindex hn hdraw

/-- A program that looks up the digit `B` and draws three rows of it in the corner of the screen. -/
def digitProgram : List UInt8 := [0x6A, 0x1B, 0xFA, 0x29, 0xD0, 0x03]

/-- The program looks up the glyph of `B`, and draws its first rows on the blank screen. -/
theorem draws_glyph_of_digit :
    ∃ m m₁ m₂, step (standard digitProgram) = .ok () m ∧
      step m = .ok () m₁ ∧ m₁.memory.bytes m₁.index 5 = [0xE0, 0x90, 0xE0, 0x90, 0xE0] ∧
      step m₁ = .ok () m₂ ∧ m₂.screen.cellAt 2 0 = 0xFF ∧ m₂.screen.cellAt 3 0 = 0x00 := by
  have h₀ := (reachable_standard digitProgram (by decide)).attainable
  have hload : (standard digitProgram).NextIs (.loadByte 10 0x1B) :=
    ⟨by decide, nextWord_standard⟩
  have hstep := hload.step_eq nofun h₀.intact rfl rfl
  generalize hm : (standard digitProgram).stepped
    ((Operation.loadByte 10 0x1B).instruction (standard digitProgram).nextWord) = m at hstep
  have hreach : m.Attainable := h₀.of_step hstep
  have hmemory : m.memory = (standard digitProgram).memory := hm ▸ rfl
  have hpc : m.pc = 0x202 := hm ▸ rfl
  have hglyph : m.NextIs (.loadGlyph 10) :=
    ⟨hpc ▸ by decide, nextWord_of_standard (j := 2) hmemory hpc (by decide) (by decide)⟩
  obtain ⟨-, hdraws⟩ := hreach.draws_glyph
  obtain ⟨m₁, hstep₁, hbytes, hdraw⟩ := hdraws 10 (by subst hm; rfl) hglyph
  have hm₁ : m₁ = m.stepped ((Operation.loadGlyph 10).instruction m.nextWord) := by
    have := hglyph.step_eq nofun hreach.intact (by subst hm; rfl) rfl
    rw [hstep₁] at this
    cases this
    rfl
  have hmemory₁ : m₁.memory = (standard digitProgram).memory := hm₁ ▸ hmemory
  have hpc₁ : m₁.pc = 0x204 := by
    subst hm₁ hm
    rfl
  have hsprite : m₁.NextIs (.draw 0 0 3) :=
    ⟨hpc₁ ▸ by decide, nextWord_of_standard (j := 4) hmemory₁ hpc₁ (by decide) (by decide)⟩
  have hscreen : m₁.screen = blankScreen (.headless none) := by
    subst hm₁ hm
    rfl
  have hdigit : m.digit 10 = 0xB := hm ▸ rfl
  have hzero : m₁.register 0 = 0 := by
    subst hm₁ hm
    rfl
  obtain ⟨m₂, hstep₂, hcell⟩ := hdraw 0 0 3 (by decide) hsprite
  rw [hdigit, hzero, hscreen] at hcell
  refine ⟨m, m₁, m₂, hstep, hstep₁, hbytes.trans (hdigit ▸ rfl), hstep₂, ?_, ?_⟩
  · rw [hcell, cellAt_blankScreen]
    rfl
  · rw [hcell, cellAt_blankScreen]
    rfl

end Chip8.Machine
