import Chip8.Proofs.Machine.Glyphs
import Chip8.Proofs.Screen.Collision
import Chip8.Proofs.Screen.Draws
import Chip8.Proofs.Screen.Views

/-!
# Sprites from memory

An instruction that draws, from the bytes in memory to the pixels on the screen.

* `Machine.sprite` are the set bits of the sprite that the index register points to, and
  `Machine.covered` the pixels on which they fall;
* `Intact.getPixel_overdrawn` says that drawing inverts just these pixels, and
  `Intact.overdrawn_fst_iff` that a collision is reported just if one of them was lit;
* `Attainable.draws_sprite` puts this together for a step of a machine.
-/

namespace Chip8.Machine

variable {m : Machine} {x y : Register} {n : Nat}

/-! ### The bits and their pixels -/

/-- The set bits of the sprite of `n` rows in memory, as column and row. The highest bit of a byte
is the leftmost. -/
def sprite (m : Machine) (n : Nat) : Finset (Nat × Nat) :=
  (Finset.range 8 ×ˢ Finset.range n).filter fun bit =>
    (m.memory.byteAt (m.index + bit.2)).toNat.testBit (7 - bit.1) = true

/-- The pixel on which a bit of a sprite falls whose corner is where two registers say. -/
def target (m : Machine) (x y : Register) (bit : Nat × Nat) : Int × Int :=
  (((m.register x).toNat + bit.1) % 64, ((m.register y).toNat + bit.2) % 32)

/-- The pixels under the set bits of a sprite. -/
def covered (m : Machine) (x y : Register) (n : Nat) : Finset (Int × Int) :=
  (m.sprite n).image (m.target x y)

theorem mem_sprite {c r : Nat} :
    (c, r) ∈ m.sprite n ↔ (c < 8 ∧ r < n) ∧
      (m.memory.byteAt (m.index + r)).toNat.testBit (7 - c) = true := by
  simp [sprite]

/-- The rows that are read from memory have the bits of the sprite. -/
theorem spriteBit_bytes {c r : Nat} :
    Screen.spriteBit (m.memory.bytes m.index n) c r = true ↔ (c, r) ∈ m.sprite n := by
  rw [mem_sprite]
  by_cases hr : r < n
  · simp [Screen.spriteBit, Memory.bytes, hr]
  · refine iff_of_false (fun h => ?_) fun h => hr h.1.2
    have := (Screen.lt_of_spriteBit h).2
    rw [Memory.length_bytes] at this
    exact hr this

theorem mem_spriteBits_bytes {bit : Nat × Nat} :
    bit ∈ Screen.spriteBits (m.memory.bytes m.index n) ↔ bit ∈ m.sprite n :=
  Screen.mem_spriteBits.trans spriteBit_bytes

theorem length_spriteBits_bytes (n : Nat) :
    (Screen.spriteBits (m.memory.bytes m.index n)).length = (m.sprite n).card := by
  rw [← List.toFinset_card_of_nodup (Screen.nodup_spriteBits _)]
  congr 1
  ext bit
  rw [List.mem_toFinset, mem_spriteBits_bytes]

theorem target_bounds (m : Machine) (x y : Register) (bit : Nat × Nat) :
    (0 ≤ (m.target x y bit).1 ∧ (m.target x y bit).1 < 64) ∧
      (0 ≤ (m.target x y bit).2 ∧ (m.target x y bit).2 < 32) := by
  unfold target
  omega

theorem covered_bounds {p : Int × Int} (hp : p ∈ m.covered x y n) :
    (0 ≤ p.1 ∧ p.1 < 64) ∧ (0 ≤ p.2 ∧ p.2 < 32) := by
  obtain ⟨bit, -, rfl⟩ := Finset.mem_image.1 hp
  exact m.target_bounds x y bit

/-- A pixel of the screen is covered just if the bit at its distance from the corner is set. -/
theorem mem_covered_iff (hn : n ≤ 32) {a b : Int} (ha : 0 ≤ a ∧ a < 64) (hb : 0 ≤ b ∧ b < 32) :
    (a, b) ∈ m.covered x y n ↔
      (((a - (m.register x).toNat).fmod 64).toNat, ((b - (m.register y).toNat).fmod 32).toNat) ∈
        m.sprite n := by
  have hcolumn := Int.fmod_nonneg_of_pos (a - (m.register x).toNat) (show (0 : Int) < 64 by decide)
  have hrow := Int.fmod_nonneg_of_pos (b - (m.register y).toNat) (show (0 : Int) < 32 by decide)
  -- A bit falls on the pixel just if it lies at the pixel's distance from the corner.
  have htarget : ∀ c r : Nat, c < 8 → r < n →
      (m.target x y (c, r) = (a, b) ↔ c = ((a - (m.register x).toNat).fmod 64).toNat ∧
        r = ((b - (m.register y).toNat).fmod 32).toNat) := by
    intro c r hc hr
    have hwrapped : m.target x y (c, r) = (a, b) ↔
        (((m.register x).toNat : Int) + c).fmod 64 = a.fmod 64 ∧
          (((m.register y).toNat : Int) + r).fmod 32 = b.fmod 32 := by
      rw [Int.fmod_eq_of_lt ha.1 ha.2, Int.fmod_eq_of_lt hb.1 hb.2,
        Int.fmod_eq_emod_of_nonneg _ (by decide), Int.fmod_eq_emod_of_nonneg _ (by decide)]
      exact Prod.mk.injEq ..  ▸ Iff.rfl
    rw [hwrapped, wrapped_add_eq_iff (by omega) (by omega), wrapped_add_eq_iff (by omega) (by omega)]
    omega
  unfold covered
  rw [Finset.mem_image]
  constructor
  · rintro ⟨⟨c, r⟩, hbit, h⟩
    obtain ⟨⟨hc, hr⟩, -⟩ := mem_sprite.1 hbit
    obtain ⟨rfl, rfl⟩ := (htarget c r hc hr).1 h
    exact hbit
  · intro hbit
    obtain ⟨⟨hc, hr⟩, -⟩ := mem_sprite.1 hbit
    exact ⟨_, hbit, (htarget _ _ hc hr).2 ⟨rfl, rfl⟩⟩

/-! ### The screen and the flag -/

/-- The screen after the sprite in memory is drawn, and whether it met a lit pixel. -/
def overdrawn (m : Machine) (x y : Register) (n : Nat) : Bool × Screen :=
  m.screen.drawn (m.register x).toNat (m.register y).toNat (m.memory.bytes m.index n)

theorem Intact.rows_fit (hm : m.Intact) (hn : n ≤ 32) :
    8 ≤ m.screen.width ∧ ((m.memory.bytes m.index n).length : Int) ≤ m.screen.height := by
  rw [hm.width, hm.height, Memory.length_bytes]
  omega

/-- **Drawing inverts just the pixels that are covered.** -/
theorem Intact.getPixel_overdrawn (hm : m.Intact) (hn : n ≤ 32) {a b : Int}
    (ha : 0 ≤ a ∧ a < 64) (hb : 0 ≤ b ∧ b < 32) :
    ∃ lit, Screen.getPixel a b m.screen = .ok lit m.screen ∧
      Screen.getPixel a b (m.overdrawn x y n).2 =
        .ok (if (a, b) ∈ m.covered x y n then !lit else lit) (m.overdrawn x y n).2 := by
  obtain ⟨hw, hh⟩ := hm.rows_fit hn
  have hafter : (m.overdrawn x y n).2.WellFormed := hm.screen.drawn _ _ _
  have hcell := hm.screen.cellAt_drawn_of_fits hw hh (m.register x).toNat (m.register y).toNat a b
  simp only [hm.width, hm.height, spriteBit_bytes, ← mem_covered_iff hn ha hb] at hcell
  have hwidth : (m.overdrawn x y n).2.width = 64 := (Screen.width_drawn ..).trans hm.width
  have hheight : (m.overdrawn x y n).2.height = 32 := (Screen.height_drawn ..).trans hm.height
  refine ⟨m.screen.cellAt a b != 0, ?_, ?_⟩
  · rw [Screen.getPixel_eq hm.screen, hm.width, hm.height, if_pos ⟨ha.1, ha.2, hb⟩]
  · rw [Screen.getPixel_eq hafter, hwidth, hheight, if_pos ⟨ha.1, ha.2, hb⟩]
    have hbefore := hm.screen.cellAt_cases a b
    unfold overdrawn
    rw [hcell]
    split_ifs with hcovered
    · rcases hbefore with h | h <;> rw [h] <;> rfl
    · rfl

/-- **A collision is reported just if a pixel that is covered was lit.** -/
theorem Intact.overdrawn_fst_iff (hm : m.Intact) (hn : n ≤ 32) :
    (m.overdrawn x y n).1 = true ↔
      ∃ p ∈ m.covered x y n, Screen.getPixel p.1 p.2 m.screen = .ok true m.screen := by
  obtain ⟨hw, hh⟩ := hm.rows_fit hn
  have hlit : ∀ bit, Screen.getPixel (m.target x y bit).1 (m.target x y bit).2 m.screen =
        .ok true m.screen ↔
      m.screen.cellAt ((m.register x).toNat + bit.1) ((m.register y).toNat + bit.2) ≠ 0 := by
    intro bit
    obtain ⟨ha, hb⟩ := m.target_bounds x y bit
    have hplace : m.screen.cellAt (m.target x y bit).1 (m.target x y bit).2 =
        m.screen.cellAt ((m.register x).toNat + bit.1) ((m.register y).toNat + bit.2) := by
      refine Screen.cellAt_congr ?_ ?_
      · rw [hm.width, Int.fmod_eq_of_lt ha.1 ha.2, Int.fmod_eq_emod_of_nonneg _ (by decide)]
        rfl
      · rw [hm.height, Int.fmod_eq_of_lt hb.1 hb.2, Int.fmod_eq_emod_of_nonneg _ (by decide)]
        rfl
    rw [hm.screen.getPixel_eq_true_iff, hm.width, hm.height, hplace]
    tauto
  have hreport := hm.screen.drawn_fst_iff hw hh (m.register x).toNat (m.register y).toNat
  simp only [mem_spriteBits_bytes] at hreport
  rw [covered, Finset.exists_mem_image]
  simp only [hlit]
  exact hreport

/-! ### The instruction -/

/-- Drawing a sprite that lies in memory is completed. -/
theorem Intact.step_draw {n : Fin 16} (hm : m.Intact) (hf : m.fault = none)
    (hnext : m.NextIs (.draw x y n)) (hrange : m.index + (n : Nat) ≤ 0x1000) :
    Machine.step m = .ok () (m.stepped ((Operation.draw x y n).instruction m.nextWord)) := by
  have hread : m.memory.readRefusal? m.index n = none := by
    rw [Memory.readRefusal?_eq_none_iff, Memory.InRange, Memory.top, hm.size_memory]
    exact ⟨hm.index.1, by omega⟩
  exact hnext.step_eq nofun hm hf (Option.map_eq_none_iff.2 hread)

/-- **An instruction that draws inverts the pixels under the set bits of the sprite in memory**, and
no other, and its flag tells whether one of them was lit before. The registers are read before the
flag is set, and the display is sent one pixel for each set bit. -/
theorem Attainable.draws_sprite {n : Fin 16} (hm : m.Attainable) (hf : m.fault = none)
    (hnext : m.NextIs (.draw x y n)) (hrange : m.index + (n : Nat) ≤ 0x1000) :
    ∃ m', step m = .ok () m' ∧
      (∀ a b, (0 ≤ a ∧ a < 64) → (0 ≤ b ∧ b < 32) →
        ∃ lit, Screen.getPixel a b m.screen = .ok lit m.screen ∧
          Screen.getPixel a b m'.screen =
            .ok (if (a, b) ∈ m.covered x y n then !lit else lit) m'.screen) ∧
      ((∃ p ∈ m.covered x y n, Screen.getPixel p.1 p.2 m.screen = .ok true m.screen) ∧
          m'.register flag = 1 ∨
        (∀ p ∈ m.covered x y n, Screen.getPixel p.1 p.2 m.screen = .ok false m.screen) ∧
          m'.register flag = 0) ∧
      m'.screen.display.pixelUpdates = m.screen.display.pixelUpdates + (m.sprite n).card ∧
      (∀ r ≠ flag, m'.register r = m.register r) ∧ m'.index = m.index ∧
      m'.memory = m.memory ∧ m'.stack = m.stack := by
  have hn : (n : Nat) ≤ 32 := by omega
  have hstep := hm.intact.step_draw hf hnext hrange
  generalize hm' : m.stepped ((Operation.draw x y n).instruction m.nextWord) = m' at hstep
  have hscreen : m'.screen = (m.overdrawn x y n).2 := hm' ▸ rfl
  have hflag : m'.register flag = if (m.overdrawn x y n).1 then 1 else 0 := by
    subst hm'
    exact Vector.getElem_set_self flag.isLt
  have hothers : ∀ r ≠ flag, m'.register r = m.register r := by
    subst hm'
    exact fun r hr => register_setRegister_of_ne hr _
  refine ⟨m', hstep, fun a b ha hb => ?_, ?_, ?_, hothers, hm' ▸ rfl, hm' ▸ rfl, hm' ▸ rfl⟩
  · rw [hscreen]
    exact hm.intact.getPixel_overdrawn hn ha hb
  · rw [hflag]
    by_cases hmet : (m.overdrawn x y n).1 = true
    · exact .inl ⟨(hm.intact.overdrawn_fst_iff hn).1 hmet, if_pos hmet⟩
    · refine .inr ⟨fun p hp => ?_, if_neg hmet⟩
      obtain ⟨ha, hb⟩ := covered_bounds hp
      obtain ⟨lit, hlit, -⟩ := hm.intact.getPixel_overdrawn (x := x) (y := y) hn ha hb
      cases lit with
      | false => exact hlit
      | true => exact absurd ((hm.intact.overdrawn_fst_iff hn).2 ⟨p, hp, hlit⟩) hmet
  · rw [hscreen, ← length_spriteBits_bytes]
    exact Screen.pixelUpdates_drawn _ _ _ _

/-! ### Two digits, one over the other -/

/-- The index register of a new machine points to the glyph of zero. -/
theorem Attainable.bytes_zero (hm : m.Attainable) (hindex : m.index = 0) :
    m.memory.bytes m.index (5 : Fin 16) = Font.glyph 0 := by
  rw [hindex]
  exact hm.hasFont.bytes_glyph 0 (le_refl 5)

theorem Attainable.card_sprite_zero (hm : m.Attainable) (hindex : m.index = 0) :
    (m.sprite (5 : Fin 16)).card = 14 := by
  rw [← length_spriteBits_bytes, hm.bytes_zero hindex]
  rfl

/-- The digit zero in the corner of the screen covers the end of its upper edge. -/
theorem Attainable.edge_mem_covered (hm : m.Attainable) (hindex : m.index = 0)
    (hx : m.register x = 0) (hy : m.register y = 0) : (3, 0) ∈ m.covered x y (5 : Fin 16) := by
  rw [mem_covered_iff (by decide) (by decide) (by decide), ← spriteBit_bytes,
    hm.bytes_zero hindex, hx, hy]
  rfl

/-- No pixel of a new machine is lit. -/
theorem getPixel_standard {program : List UInt8} (h : program.length ≤ 0xE00) {a b : Int}
    (ha : 0 ≤ a ∧ a < 64) (hb : 0 ≤ b ∧ b < 32) :
    Screen.getPixel a b (standard program).screen = .ok false (standard program).screen := by
  have hm := (reachable_standard program h).wellFormed
  have hcell : (standard program).screen.cellAt a b = 0 := cellAt_blankScreen (.headless none) a b
  rw [Screen.getPixel_eq hm.screen, hm.width, hm.height, if_pos ⟨ha.1, ha.2, hb⟩, hcell]
  rfl

/-- A program that draws the digit zero in the corner of the screen, and then once more where the
flag says, which tells of no collision yet. -/
def overlapProgram : List UInt8 := [0xD0, 0x05, 0xDF, 0xF5]

/-- The second digit puts out all fourteen pixels of the first one, and the flag tells so. -/
theorem draws_sprite_of_overlap :
    ∃ m m', step (standard overlapProgram) = .ok () m ∧ m.register flag = 0 ∧
      step m = .ok () m' ∧ m'.register flag = 1 ∧ m'.screen.display.pixelUpdates = 28 ∧
      Screen.getPixel 3 0 m.screen = .ok true m.screen ∧
      Screen.getPixel 3 0 m'.screen = .ok false m'.screen := by
  have hlength : overlapProgram.length ≤ 0xE00 := by decide
  have h₀ := (reachable_standard overlapProgram hlength).attainable
  have hdraw : (standard overlapProgram).NextIs (.draw 0 0 5) := ⟨by decide, nextWord_standard⟩
  obtain ⟨m, hstep, hpixel, hflag, hupdates, -, hindex, hmemory, -⟩ :=
    h₀.draws_sprite rfl hdraw (by decide)
  have hm : m.Attainable := h₀.of_step hstep
  have hrun : m.pc = 0x202 ∧ m.fault = none := by
    rw [h₀.intact.step_draw rfl hdraw (by decide)] at hstep
    injection hstep with _ hm
    rw [← hm]
    exact ⟨rfl, rfl⟩
  have hdraw' : m.NextIs (.draw flag flag 5) :=
    ⟨hrun.1 ▸ by decide, nextWord_of_standard (j := 2) hmemory hrun.1 (by decide) (by decide)⟩
  obtain ⟨m', hstep', hpixel', hflag', hupdates', -⟩ :=
    hm.draws_sprite hrun.2 hdraw' (by rw [hindex]; decide)
  -- Nothing is lit at first, so that the first digit meets nothing.
  have hzero : m.register flag = 0 := by
    rcases hflag with ⟨⟨p, hp, hlit⟩, -⟩ | ⟨-, hzero⟩
    · obtain ⟨ha, hb⟩ := covered_bounds hp
      rw [getPixel_standard hlength ha hb] at hlit
      cases hlit
    · exact hzero
  have hfirst := h₀.edge_mem_covered (x := 0) (y := 0) rfl rfl rfl
  have hsecond := hm.edge_mem_covered hindex hzero hzero
  have hlit : Screen.getPixel 3 0 m.screen = .ok true m.screen := by
    obtain ⟨lit, hbefore, hafter⟩ := hpixel 3 0 (by decide) (by decide)
    rw [getPixel_standard hlength (by decide) (by decide)] at hbefore
    cases hbefore
    rwa [if_pos hfirst] at hafter
  have hunlit : Screen.getPixel 3 0 m'.screen = .ok false m'.screen := by
    obtain ⟨lit, hbefore, hafter⟩ := hpixel' 3 0 (by decide) (by decide)
    rw [hlit] at hbefore
    cases hbefore
    rwa [if_pos hsecond] at hafter
  have hone : m'.register flag = 1 := by
    rcases hflag' with ⟨-, hone⟩ | ⟨hnone, -⟩
    · exact hone
    · have hunlit := hnone (3, 0) hsecond
      rw [hlit] at hunlit
      cases hunlit
  have hsent : m'.screen.display.pixelUpdates = 28 := by
    have hnone : (standard overlapProgram).screen.display.pixelUpdates = 0 := rfl
    rw [hupdates', hupdates, h₀.card_sprite_zero rfl, hm.card_sprite_zero hindex, hnone]
  exact ⟨m, m', hstep, hzero, hstep', hone, hsent, hlit, hunlit⟩

end Chip8.Machine
