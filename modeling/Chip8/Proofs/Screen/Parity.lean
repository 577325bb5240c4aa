import Chip8.Proofs.Screen.Drawing
import Mathlib.Data.Int.ModEq
import Mathlib.Data.List.GetD
import Mathlib.Data.List.Sigma
import Mathlib.Logic.Function.Iterate

/-!
# Drawing, pixel by pixel

What a sprite does to a single cell of a screen.

* `Screen.hits` is the number of set bits of a sprite that fall on a pixel;
* `cellAt_drawn` says that drawing inverts each cell just as often as it is hit;
* `Screen.spriteBit` is one bit of a sprite, and `cellAt_drawn_of_fits` says that a sprite which is
  no larger than the screen inverts exactly the cells under its set bits.
-/

namespace Chip8

/-- A step of `c` places from `x` leads to `a`, on a circle of `w` places, if `c` is their
distance. -/
theorem wrapped_add_eq_iff {w x a c : Int} (h0 : 0 ≤ c) (h1 : c < w) :
    (x + c).fmod w = a.fmod w ↔ c = (a - x).fmod w := by
  have hw : 0 ≤ w := by omega
  rw [Int.fmod_eq_emod_of_nonneg _ hw, Int.fmod_eq_emod_of_nonneg _ hw,
    Int.fmod_eq_emod_of_nonneg _ hw]
  have hc : c % w = c := Int.emod_eq_of_lt h0 h1
  constructor
  · intro h
    have hsub : (x + c - x) % w = (a - x) % w := Int.ModEq.sub_right x h
    rw [← hsub, add_sub_cancel_left, hc]
  · intro h
    have hmod : c ≡ a - x [ZMOD w] := hc.trans h
    have hadd : (x + c) % w = (x + (a - x)) % w := hmod.add_left x
    rw [hadd, add_sub_cancel]

namespace Screen

variable {s : Screen}

/-! ### Flipping one pixel -/

/-- Two pixels have the same cell exactly if they wrap around to the same place. -/
theorem WellFormed.place_eq_iff (hs : s.WellFormed) {x y a b : Int} :
    s.place x y = s.place a b ↔
      x.fmod s.width = a.fmod s.width ∧ y.fmod s.height = b.fmod s.height := by
  constructor
  · intro h
    have hplace : x.fmod s.width + y.fmod s.height * s.width =
        a.fmod s.width + b.fmod s.height * s.width := by
      have hxy := (hs.place_bounds x y).1
      have hab := (hs.place_bounds a b).1
      rw [h] at hxy
      omega
    obtain ⟨hx0, hx1⟩ := hs.wrapped_x x
    obtain ⟨ha0, ha1⟩ := hs.wrapped_x a
    have hcolumn : x.fmod s.width = a.fmod s.width := by
      have hmod := congrArg (· % s.width) hplace
      simp only [Int.add_mul_emod_self_right] at hmod
      rwa [Int.emod_eq_of_lt hx0 hx1, Int.emod_eq_of_lt ha0 ha1] at hmod
    refine ⟨hcolumn, ?_⟩
    rw [hcolumn] at hplace
    exact Int.eq_of_mul_eq_mul_right hs.width_pos.ne' (Int.add_left_cancel hplace)
  · rintro ⟨hx, hy⟩
    unfold place
    rw [hx, hy]

theorem WellFormed.cellAt_flip (hs : s.WellFormed) (x y a b : Int) :
    (s.flip x y).cellAt a b =
      if x.fmod s.width = a.fmod s.width ∧ y.fmod s.height = b.fmod s.height then
        s.cellAt a b ^^^ 0xFF
      else s.cellAt a b := by
  have hlt : s.place x y < s.cells.cells.size := by
    have := (hs.place_bounds x y).2
    have := hs.size_cells
    omega
  show (s.cells.cells.setIfInBounds (s.place x y) (s.cellAt x y ^^^ 0xFF)).getD (s.place a b) 0 = _
  rw [Array.getD_eq_getD_getElem?, Array.getElem?_setIfInBounds]
  by_cases h : s.place x y = s.place a b
  · rw [if_pos h, if_pos hlt, if_pos (hs.place_eq_iff.1 h)]
    unfold cellAt
    rw [h]
    rfl
  · rw [if_neg h, if_neg (mt hs.place_eq_iff.2 h), ← Array.getD_eq_getD_getElem?]
    rfl

/-! ### Drawing a sprite -/

/-- How many set bits of a sprite at `(x, y)` fall on the pixel `(a, b)`. -/
def hits (s : Screen) (x y : Int) (rows : List UInt8) (a b : Int) : Nat :=
  (spriteBits rows).countP fun bit =>
    (x + bit.1).fmod s.width = a.fmod s.width ∧ (y + bit.2).fmod s.height = b.fmod s.height

/-- **A sprite inverts each cell just as often as it hits it.** -/
theorem WellFormed.cellAt_drawn (hs : s.WellFormed) (x y : Int) (rows : List UInt8) (a b : Int) :
    (s.drawn x y rows).2.cellAt a b = (· ^^^ 0xFF)^[s.hits x y rows a b] (s.cellAt a b) := by
  unfold Screen.drawn hits
  generalize false = collided
  induction spriteBits rows generalizing collided s with
  | nil => rfl
  | cons bit bits ih =>
    rw [List.foldl_cons, List.countP_cons]
    refine (ih (hs.flip (x + bit.1) (y + bit.2)) _).trans ?_
    rw [hs.cellAt_flip]
    by_cases h : (x + bit.1).fmod s.width = a.fmod s.width ∧
        (y + bit.2).fmod s.height = b.fmod s.height
    · rw [if_pos h, if_pos (decide_eq_true h), Function.iterate_succ_apply]
      rfl
    · rw [if_neg h, if_neg (by simpa using h)]
      rfl

/-! ### Sprites that fit on the screen -/

/-- The bit of a sprite in column `c` of row `r`, unset outside of the sprite. -/
def spriteBit (rows : List UInt8) (c r : Nat) : Bool :=
  decide (c < 8) && (rows.getD r 0).toNat.testBit (7 - c)

theorem mem_spriteBits {rows : List UInt8} {c r : Nat} :
    (c, r) ∈ spriteBits rows ↔ spriteBit rows c r = true := by
  simp only [spriteBits, List.mem_flatten, List.mem_map, Prod.exists,
    List.mk_mem_zipIdx_iff_getElem?, spriteBit, Bool.and_eq_true, decide_eq_true_eq,
    List.getD_eq_getElem?_getD]
  constructor
  · rintro ⟨bits, ⟨row, r', hrow, rfl⟩, hbit⟩
    obtain ⟨c', hc', hset⟩ := List.mem_filterMap.1 hbit
    split_ifs at hset with htest
    cases hset
    rw [hrow]
    exact ⟨List.mem_range.1 hc', htest⟩
  · rintro ⟨hc, htest⟩
    cases hrow : rows[r]? with
    | none =>
      rw [hrow] at htest
      simp at htest
    | some row =>
      rw [hrow] at htest
      refine ⟨_, ⟨row, r, hrow, rfl⟩, List.mem_filterMap.2 ⟨c, List.mem_range.2 hc, ?_⟩⟩
      exact if_pos htest

theorem nodup_spriteBits (rows : List UInt8) : (spriteBits rows).Nodup := by
  unfold spriteBits
  rw [List.nodup_flatten, List.pairwise_map]
  constructor
  · intro bits hbits
    obtain ⟨⟨row, r⟩, -, rfl⟩ := List.mem_map.1 hbits
    refine List.nodup_range.filterMap ?_
    intro c c' bit hc hc'
    simp only [Option.mem_def] at hc hc'
    split_ifs at hc hc'
    cases hc
    cases hc'
    rfl
  · -- Bits of two rows differ in their row.
    have hrows : (rows.zipIdx).Pairwise fun p q => p.2 ≠ q.2 :=
      List.pairwise_map.1 (List.nodup_zipIdx_map_snd rows)
    refine hrows.imp ?_
    rintro ⟨row, r⟩ ⟨row', r'⟩ hne bit hbit hbit'
    obtain ⟨c, -, hc⟩ := List.mem_filterMap.1 hbit
    obtain ⟨c', -, hc'⟩ := List.mem_filterMap.1 hbit'
    split_ifs at hc hc'
    cases hc
    cases hc'
    exact hne rfl

/-- A set bit of a sprite lies in one of its eight columns and in one of its rows. -/
theorem lt_of_spriteBit {rows : List UInt8} {c r : Nat} (h : spriteBit rows c r = true) :
    c < 8 ∧ r < rows.length := by
  simp only [spriteBit, Bool.and_eq_true, decide_eq_true_eq] at h
  refine ⟨h.1, ?_⟩
  by_contra hr
  rw [List.getD_eq_default _ _ (by omega)] at h
  simp at h

/-- A sprite that is no larger than the screen hits a pixel at most once. -/
theorem WellFormed.hits_of_fits (hs : s.WellFormed) {rows : List UInt8} (hw : 8 ≤ s.width)
    (hh : (rows.length : Int) ≤ s.height) (x y a b : Int) :
    s.hits x y rows a b =
      if spriteBit rows ((a - x).fmod s.width).toNat ((b - y).fmod s.height).toNat then 1
      else 0 := by
  have hcolumn := hs.wrapped_x (a - x)
  have hrow := hs.wrapped_y (b - y)
  have hplace : ∀ bit ∈ spriteBits rows,
      ((x + bit.1).fmod s.width = a.fmod s.width ∧
        (y + bit.2).fmod s.height = b.fmod s.height) ↔
      bit = (((a - x).fmod s.width).toNat, ((b - y).fmod s.height).toNat) := by
    rintro ⟨c, r⟩ hbit
    obtain ⟨hc, hr⟩ := lt_of_spriteBit (mem_spriteBits.1 hbit)
    rw [wrapped_add_eq_iff (by omega) (by omega), wrapped_add_eq_iff (by omega) (by omega),
      Prod.mk.injEq]
    omega
  have hcount : s.hits x y rows a b = (spriteBits rows).count
      (((a - x).fmod s.width).toNat, ((b - y).fmod s.height).toNat) := by
    refine List.countP_congr fun bit hbit => ?_
    rw [decide_eq_true_eq, beq_iff_eq]
    exact hplace bit hbit
  rw [hcount, (nodup_spriteBits rows).count]
  simp only [mem_spriteBits]

/-- **A sprite that is no larger than the screen inverts exactly the cells under its set bits.** -/
theorem WellFormed.cellAt_drawn_of_fits (hs : s.WellFormed) {rows : List UInt8}
    (hw : 8 ≤ s.width) (hh : (rows.length : Int) ≤ s.height) (x y a b : Int) :
    (s.drawn x y rows).2.cellAt a b =
      if spriteBit rows ((a - x).fmod s.width).toNat ((b - y).fmod s.height).toNat then
        s.cellAt a b ^^^ 0xFF
      else s.cellAt a b := by
  rw [hs.cellAt_drawn, hs.hits_of_fits hw hh]
  split_ifs <;> rfl

end Screen

end Chip8
