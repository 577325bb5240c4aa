import Chip8.Proofs.Screen.Parity
import Mathlib.Algebra.Ring.Parity
import Mathlib.Data.Finset.Prod

/-!
# Any number of sprites

What drawing several sprites, one after the other, does to a screen.

* `Draw` is a sprite and where it is drawn, and `Draw.coverage` is the number of its set bits that
  fall on a pixel;
* `Screen.drawnAll` is the screen after some draws, and `cellAt_drawnAll` says that they invert each
  cell just as often as they cover it;
* `drawn_congr` says that positions which wrap around to the same place draw the same;
* `WellFormed.drawSprites_parity` puts this together: the final cells are given by parities, so that
  neither the order of the draws matters nor two draws that are the same.
-/

namespace Chip8

/-- A sprite and where it is drawn. -/
structure Draw where
  x : Int
  y : Int
  rows : List UInt8
  deriving DecidableEq

/-- How many set bits of a sprite fall on the pixel `(a, b)` of a screen of this size. -/
def Draw.coverage (d : Draw) (width height a b : Int) : Nat :=
  ((Finset.range 8 ×ˢ Finset.range d.rows.length).filter fun (c, r) =>
    Screen.spriteBit d.rows c r = true ∧ (d.x + c) % width = a ∧ (d.y + r) % height = b).card

/-- How many set bits of some sprites fall on the pixel `(a, b)` of a screen of this size. -/
def Draw.coverageAll (draws : List Draw) (width height a b : Int) : Nat :=
  (draws.map fun d => d.coverage width height a b).sum

namespace Screen

variable {s t : Screen}

/-- Draws sprites one after the other. -/
def drawSprites (draws : List Draw) : Action Screen Unit :=
  draws.forM fun d => do
    let _ ← drawSprite d.x d.y d.rows

/-- The screen after some draws. -/
def drawnAll (draws : List Draw) (s : Screen) : Screen :=
  draws.foldl (fun s d => (s.drawn d.x d.y d.rows).2) s

theorem drawnAll_cons (d : Draw) (draws : List Draw) (s : Screen) :
    s.drawnAll (d :: draws) = (s.drawn d.x d.y d.rows).2.drawnAll draws := rfl

theorem WellFormed.drawnAll (hs : s.WellFormed) (draws : List Draw) :
    (s.drawnAll draws).WellFormed := by
  induction draws generalizing s with
  | nil => exact hs
  | cons d draws ih => exact ih (hs.drawn d.x d.y d.rows)

@[simp] theorem width_drawnAll (draws : List Draw) (s : Screen) :
    (s.drawnAll draws).width = s.width := by
  induction draws generalizing s with
  | nil => rfl
  | cons d draws ih => rw [drawnAll_cons, ih, width_drawn]

@[simp] theorem height_drawnAll (draws : List Draw) (s : Screen) :
    (s.drawnAll draws).height = s.height := by
  induction draws generalizing s with
  | nil => rfl
  | cons d draws ih => rw [drawnAll_cons, ih, height_drawn]

theorem drawSprites_eq (hs : s.WellFormed) (draws : List Draw) :
    drawSprites draws s = .ok () (s.drawnAll draws) := by
  unfold drawSprites
  induction draws generalizing s with
  | nil => rfl
  | cons d draws ih =>
    simp only [List.forM, Action.bind_apply, drawSprite_eq hs, Action.pure_apply]
    exact ih (hs.drawn d.x d.y d.rows)

/-! ### Cells by their coordinates -/

/-- Screens of one size have the same cells if they agree on each pixel. -/
theorem WellFormed.cells_ext (hs : s.WellFormed) (ht : t.WellFormed) (hw : t.width = s.width)
    (hh : t.height = s.height)
    (h : ∀ a b, (0 ≤ a ∧ a < s.width) → (0 ≤ b ∧ b < s.height) → t.cellAt a b = s.cellAt a b) :
    t.cells = s.cells := by
  have hsize : t.cells.cells.size = s.cells.cells.size := by
    have hs' := hs.size_cells
    have ht' := ht.size_cells
    rw [hw, hh] at ht'
    omega
  have hcells : t.cells.cells = s.cells.cells := by
    refine Array.ext hsize fun k hk hk' => ?_
    have hk0 : (0 : Int) ≤ k ∧ (k : Int) < s.width * s.height := by
      rw [← hs.size_cells]
      omega
    obtain ⟨x, y, hx, hy, hxy⟩ := exists_rowMajor hs.width_pos hk0
    have hpixel := h x y hx hy
    rw [cellAt_of_mem (hw ▸ hx) (hh ▸ hy), cellAt_of_mem hx hy, hw, hxy] at hpixel
    simpa [Memory.byteAt, hk, hk'] using hpixel
  have hbank : t.cells.size = s.cells.size := by rw [ht.size, hs.size, hw, hh]
  have htop : t.cells.protectedTop = s.cells.protectedTop :=
    ht.protectedTop.trans hs.protectedTop.symm
  cases ht' : t.cells
  cases hs' : s.cells
  simp_all

/-! ### Parities -/

/-- A sprite hits a pixel of the screen with just the bits that cover it. -/
theorem WellFormed.hits_eq_coverage (hs : s.WellFormed) (d : Draw) {a b : Int}
    (ha : 0 ≤ a ∧ a < s.width) (hb : 0 ≤ b ∧ b < s.height) :
    s.hits d.x d.y d.rows a b = d.coverage s.width s.height a b := by
  unfold hits Draw.coverage
  rw [List.countP_eq_length_filter,
    ← List.toFinset_card_of_nodup ((nodup_spriteBits d.rows).filter _)]
  congr 1
  ext ⟨c, r⟩
  have hbit : spriteBit d.rows c r = true → c < 8 ∧ r < d.rows.length := lt_of_spriteBit
  simp only [List.mem_toFinset, List.mem_filter, mem_spriteBits, decide_eq_true_eq,
    Finset.mem_filter, Finset.mem_product, Finset.mem_range, Int.fmod_eq_of_lt ha.1 ha.2,
    Int.fmod_eq_of_lt hb.1 hb.2, Int.fmod_eq_emod_of_nonneg _ hs.width_pos.le,
    Int.fmod_eq_emod_of_nonneg _ hs.height_pos.le]
  tauto

/-- **Draws invert each cell just as often as they cover it.** -/
theorem WellFormed.cellAt_drawnAll (hs : s.WellFormed) (draws : List Draw) {a b : Int}
    (ha : 0 ≤ a ∧ a < s.width) (hb : 0 ≤ b ∧ b < s.height) :
    (s.drawnAll draws).cellAt a b =
      (· ^^^ 0xFF)^[Draw.coverageAll draws s.width s.height a b] (s.cellAt a b) := by
  induction draws generalizing s with
  | nil => rfl
  | cons d draws ih =>
    have hd := hs.drawn d.x d.y d.rows
    rw [drawnAll_cons, ih hd (by simpa using ha) (by simpa using hb), hs.cellAt_drawn,
      hs.hits_eq_coverage d ha hb, ← Function.iterate_add_apply, width_drawn, height_drawn,
      Nat.add_comm]
    rfl

theorem involutive_xor : Function.Involutive fun c : UInt8 => c ^^^ 0xFF := by
  intro c
  show c ^^^ 0xFF ^^^ 0xFF = c
  rw [UInt8.xor_assoc, UInt8.xor_self, UInt8.xor_zero]

/-- Draws invert a cell if they cover it an odd number of times. -/
theorem WellFormed.cellAt_drawnAll_eq_ite (hs : s.WellFormed) (draws : List Draw) {a b : Int}
    (ha : 0 ≤ a ∧ a < s.width) (hb : 0 ≤ b ∧ b < s.height) :
    (s.drawnAll draws).cellAt a b =
      if Odd (Draw.coverageAll draws s.width s.height a b) then s.cellAt a b ^^^ 0xFF
      else s.cellAt a b := by
  rw [hs.cellAt_drawnAll draws ha hb]
  split_ifs with hodd
  · rw [involutive_xor.iterate_odd hodd]
  · rw [involutive_xor.iterate_even (Nat.not_odd_iff_even.1 hodd)]
    rfl

/-- Draws that cover each pixel equally often, up to even numbers, lead to the same cells. -/
theorem WellFormed.cells_drawnAll_congr (hs : s.WellFormed) {draws draws' : List Draw}
    (h : ∀ a b, Odd (Draw.coverageAll draws' s.width s.height a b) ↔
      Odd (Draw.coverageAll draws s.width s.height a b)) :
    (s.drawnAll draws').cells = (s.drawnAll draws).cells := by
  refine (hs.drawnAll draws).cells_ext (hs.drawnAll draws') (by simp) (by simp) fun a b ha hb => ?_
  rw [width_drawnAll] at ha
  rw [height_drawnAll] at hb
  rw [hs.cellAt_drawnAll_eq_ite draws' ha hb, hs.cellAt_drawnAll_eq_ite draws ha hb]
  simp only [h a b]

/-! ### Positions that wrap around -/

theorem flip_congr {x y x' y' : Int} (hx : x.fmod s.width = x'.fmod s.width)
    (hy : y.fmod s.height = y'.fmod s.height) : s.flip x y = s.flip x' y' := by
  unfold flip cellAt place
  rw [hx, hy]

theorem cellAt_congr {x y x' y' : Int} (hx : x.fmod s.width = x'.fmod s.width)
    (hy : y.fmod s.height = y'.fmod s.height) : s.cellAt x y = s.cellAt x' y' := by
  unfold cellAt place
  rw [hx, hy]

/-- Positions that wrap around to the same place draw the same, and report the same. -/
theorem WellFormed.drawn_congr (hs : s.WellFormed) {x y x' y' : Int}
    (hx : x % s.width = x' % s.width) (hy : y % s.height = y' % s.height) (rows : List UInt8) :
    s.drawn x y rows = s.drawn x' y' rows := by
  have hcolumn : ∀ c : Nat, (x + c).fmod s.width = (x' + c).fmod s.width := fun c => by
    rw [Int.fmod_eq_emod_of_nonneg _ hs.width_pos.le, Int.fmod_eq_emod_of_nonneg _ hs.width_pos.le]
    exact Int.ModEq.add_right (c : Int) hx
  have hrow : ∀ r : Nat, (y + r).fmod s.height = (y' + r).fmod s.height := fun r => by
    rw [Int.fmod_eq_emod_of_nonneg _ hs.height_pos.le,
      Int.fmod_eq_emod_of_nonneg _ hs.height_pos.le]
    exact Int.ModEq.add_right (r : Int) hy
  clear hs hx hy
  unfold Screen.drawn
  generalize false = collided
  induction spriteBits rows generalizing collided s with
  | nil => rfl
  | cons bit bits ih =>
    have hbit : drawBit x y (collided, s) bit = drawBit x' y' (collided, s) bit := by
      unfold drawBit
      rw [flip_congr (hcolumn bit.1) (hrow bit.2), cellAt_congr (hcolumn bit.1) (hrow bit.2)]
    rw [List.foldl_cons, List.foldl_cons, hbit]
    exact ih (s := s.flip (x' + bit.1) (y' + bit.2)) hcolumn hrow _

/-! ### The law of parities -/

/-- **Draws invert a cell if an odd number of set bits falls on it.** So their order does not
matter, a draw that is made twice restores the screen, and positions that wrap around to the same
place draw the same. -/
theorem WellFormed.drawSprites_parity (hs : s.WellFormed) (draws : List Draw) :
    (∃ t, drawSprites draws s = .ok () t ∧ t.WellFormed ∧ t.width = s.width ∧ t.height = s.height ∧
      (∀ a b, (0 ≤ a ∧ a < s.width) → (0 ≤ b ∧ b < s.height) →
        t.cells.byteAt (b * s.width + a) =
          if Odd (Draw.coverageAll draws s.width s.height a b) then
            s.cells.byteAt (b * s.width + a) ^^^ 0xFF
          else s.cells.byteAt (b * s.width + a)) ∧
      ∀ draws', draws'.Perm draws →
        ∃ t', drawSprites draws' s = .ok () t' ∧ t'.cells = t.cells) ∧
    (∀ d, ∃ t, drawSprites [d, d] s = .ok () t ∧ t.cells = s.cells) ∧
    ∀ (x y x' y' : Int) (rows : List UInt8), x % s.width = x' % s.width →
      y % s.height = y' % s.height → drawSprite x y rows s = drawSprite x' y' rows s := by
  refine ⟨⟨_, drawSprites_eq hs draws, hs.drawnAll draws, width_drawnAll draws s,
    height_drawnAll draws s, ?_, ?_⟩, ?_, ?_⟩
  · intro a b ha hb
    have hcell := hs.cellAt_drawnAll_eq_ite draws ha hb
    rwa [cellAt_of_mem (by simpa using ha) (by simpa using hb), cellAt_of_mem ha hb,
      width_drawnAll] at hcell
  · intro draws' hperm
    refine ⟨_, drawSprites_eq hs draws', hs.cells_drawnAll_congr fun a b => ?_⟩
    rw [Draw.coverageAll, (hperm.map _).sum_eq]
    rfl
  · intro d
    have hcells : (s.drawnAll [d, d]).cells = (s.drawnAll []).cells := by
      refine hs.cells_drawnAll_congr fun a b => ?_
      have htwice : Draw.coverageAll [d, d] s.width s.height a b =
          d.coverage s.width s.height a b + d.coverage s.width s.height a b := by
        simp [Draw.coverageAll]
      have hnone : Draw.coverageAll [] s.width s.height a b = 0 := rfl
      rw [htwice, hnone, ← Nat.not_even_iff_odd, ← Nat.not_even_iff_odd]
      simp
    exact ⟨_, drawSprites_eq hs [d, d], hcells⟩
  · intro x y x' y' rows hx hy
    rw [drawSprite_eq hs, drawSprite_eq hs, hs.drawn_congr hx hy]

/-- A blank screen of four by two pixels. -/
def tiny : Screen := ⟨4, 2, .blank (4 * 2), (Display.headless none).withResolution 4 2⟩

/-- A sprite that is larger than the screen on both axes, drawn across its left edge. -/
def oversized : Draw := ⟨-1, 5, [0xFF, 0x80, 0xC0]⟩

/-- The first row of the sprite cancels itself out, and the others leave three pixels lit. -/
theorem drawSprites_parity_of_oversized :
    ∃ t, drawSprites [oversized] tiny = .ok () t ∧ t.cells.byteAt (1 * 4 + 0) = 0xFF ∧
      t.cells.byteAt (1 * 4 + 1) = 0x00 ∧ t.cells.byteAt (1 * 4 + 3) = 0xFF ∧
      t.cells.byteAt (0 * 4 + 3) = 0xFF := by
  have hs : tiny.WellFormed := .blank (by decide) (by decide) _
  obtain ⟨⟨t, ht, -, -, -, hcells, -⟩, -⟩ := hs.drawSprites_parity [oversized]
  have hblank : ∀ k : Int, tiny.cells.byteAt k = 0 := by
    intro k
    simp only [tiny, Memory.byteAt, Memory.cells_blank, Array.getD_eq_getD_getElem?,
      Array.getElem?_replicate]
    split_ifs <;> rfl
  have hpixel : ∀ a b, (0 ≤ a ∧ a < tiny.width) → (0 ≤ b ∧ b < tiny.height) →
      t.cells.byteAt (b * tiny.width + a) =
        if Odd (Draw.coverageAll [oversized] tiny.width tiny.height a b) then 0xFF else 0x00 := by
    intro a b ha hb
    rw [hcells a b ha hb, hblank]
    rfl
  exact ⟨t, ht, (hpixel 0 1 (by decide) (by decide)).trans (if_pos (by decide)),
    (hpixel 1 1 (by decide) (by decide)).trans (if_neg (by decide)),
    (hpixel 3 1 (by decide) (by decide)).trans (if_pos (by decide)),
    (hpixel 3 0 (by decide) (by decide)).trans (if_pos (by decide))⟩

end Screen

end Chip8
