import Chip8.Proofs.Screen.Parity

/-!
# Collisions

What drawing a sprite tells its caller, and what it tells the display.

* `Screen.Meet` says that two bits of a sprite fall on the same pixel; `meet_iff` says
  that on a screen as large as the sprite only equal bits do;
* `WellFormed.drawn_fst_iff` says that a collision is reported just if one of the pixels under the
  set bits was lit before the sprite was drawn;
* `pixelUpdates_drawn` says that the display is sent one pixel for each set bit.
-/

namespace Chip8.Screen

variable {s : Screen} {x y : Int} {bits : List (Nat × Nat)} {rows : List UInt8}

/-! ### Bits that fall on one pixel -/

/-- Two bits of a sprite at `(x, y)` fall on the same pixel. -/
def Meet (s : Screen) (x y : Int) (p q : Nat × Nat) : Prop :=
  (x + p.1).fmod s.width = (x + q.1).fmod s.width ∧
    (y + p.2).fmod s.height = (y + q.2).fmod s.height

/-- Only equal bits meet, if the screen is as large as the sprite. -/
theorem meet_iff (hw : 8 ≤ s.width) (hh : (rows.length : Int) ≤ s.height) {p q : Nat × Nat}
    (hp : p ∈ spriteBits rows) (hq : q ∈ spriteBits rows) : s.Meet x y p q ↔ p = q := by
  obtain ⟨hpc, hpr⟩ := lt_of_spriteBit (mem_spriteBits.1 hp)
  obtain ⟨hqc, hqr⟩ := lt_of_spriteBit (mem_spriteBits.1 hq)
  have hcolumn : (x + (q.1 : Int) - x).fmod s.width = q.1 := by
    rw [add_sub_cancel_left]
    exact Int.fmod_eq_of_lt (by omega) (by omega)
  have hrow : (y + (q.2 : Int) - y).fmod s.height = q.2 := by
    rw [add_sub_cancel_left]
    exact Int.fmod_eq_of_lt (by omega) (by omega)
  unfold Meet
  rw [wrapped_add_eq_iff (by omega) (by omega), wrapped_add_eq_iff (by omega) (by omega), hcolumn,
    hrow, Prod.ext_iff]
  omega

/-- The bits of a sprite fall on different pixels, if the screen is as large as the sprite. -/
theorem pairwise_not_meet (hw : 8 ≤ s.width) (hh : (rows.length : Int) ≤ s.height) (x y : Int) :
    (spriteBits rows).Pairwise fun p q => ¬ s.Meet x y p q :=
  (nodup_spriteBits rows).imp_of_mem fun hp hq hne h => hne ((meet_iff hw hh hp hq).1 h)

/-! ### The report -/

/-- Bits that fall on different pixels meet a lit pixel just if one of these is lit at first. -/
theorem WellFormed.foldl_drawBit_fst_iff (hs : s.WellFormed)
    (h : bits.Pairwise fun p q => ¬ s.Meet x y p q) (collided : Bool) :
    (bits.foldl (drawBit x y) (collided, s)).1 = true ↔
      collided = true ∨ ∃ bit ∈ bits, s.cellAt (x + bit.1) (y + bit.2) ≠ 0 := by
  -- The first bit changes the cell of no other bit, so that these find what was there at first.
  induction bits generalizing collided s with
  | nil => simp
  | cons bit bits ih =>
    obtain ⟨hfirst, hrest⟩ := List.pairwise_cons.1 h
    have hothers : (∃ q ∈ bits,
          (s.flip (x + bit.1) (y + bit.2)).cellAt (x + q.1) (y + q.2) ≠ 0) ↔
        ∃ q ∈ bits, s.cellAt (x + q.1) (y + q.2) ≠ 0 := by
      refine exists_congr fun q => and_congr_right fun hq => ?_
      have hkept := (hs.cellAt_flip (x + bit.1) (y + bit.2) (x + q.1) (y + q.2)).trans
        (if_neg (hfirst q hq))
      rw [hkept]
    refine (ih (hs.flip (x + bit.1) (y + bit.2)) hrest _).trans ?_
    rw [hothers, Bool.or_eq_true, bne_iff_ne, List.exists_mem_cons_iff, or_assoc]

/-- **A collision is reported just if a pixel under a set bit was lit before**, if the screen is as
large as the sprite. -/
theorem WellFormed.drawn_fst_iff (hs : s.WellFormed) (hw : 8 ≤ s.width)
    (hh : (rows.length : Int) ≤ s.height) (x y : Int) :
    (s.drawn x y rows).1 = true ↔
      ∃ bit ∈ spriteBits rows, s.cellAt (x + bit.1) (y + bit.2) ≠ 0 := by
  refine (hs.foldl_drawBit_fst_iff (pairwise_not_meet hw hh x y) false).trans ?_
  simp only [Bool.false_eq_true, false_or]

/-! ### The display -/

/-- **The display is sent one pixel for each set bit.** -/
theorem pixelUpdates_drawn (x y : Int) (rows : List UInt8) (s : Screen) :
    (s.drawn x y rows).2.display.pixelUpdates =
      s.display.pixelUpdates + (spriteBits rows).length := by
  unfold drawn
  generalize false = collided
  induction spriteBits rows generalizing collided s with
  | nil => rfl
  | cons bit bits ih =>
    have hnext := ih (s.flip (x + bit.1) (y + bit.2))
      (collided || s.cellAt (x + bit.1) (y + bit.2) != 0)
    have hflip : (s.flip (x + bit.1) (y + bit.2)).display.pixelUpdates =
        s.display.pixelUpdates + 1 := rfl
    rw [hflip] at hnext
    rw [List.length_cons, Nat.add_comm bits.length, ← Nat.add_assoc]
    exact hnext

end Chip8.Screen
