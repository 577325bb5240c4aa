import Chip8.Proofs.Screen.Collision
import Chip8.Proofs.Screen.Draws
import Chip8.Proofs.Screen.Views

/-!
# What a sprite turns off

Drawing a sprite flips one pixel for each of its set bits, and some of these flips turn a pixel off.

* `Screen.setBits` is the number of set bits of a sprite, and `drawBits` draws its bits in any order;
* `Screen.Flips` is a run of flips, with what each of them finds, and `Account` is what such a run
  does: `Flips.account` says that each flip turns a pixel on or off, and tells the display;
* `Flips.found_eq` says that a run over different pixels finds what was there at first, so that
  `WellFormed.countP_lit_eq` counts pixels of the screen;
* `WellFormed.drawSprite_account` puts this together.
-/

namespace Chip8.Screen

variable {s t : Screen} {x y : Int} {bits : List (Nat × Nat)} {rows : List UInt8}
  {path : List (Int × Int)} {found : List Bool}

/-! ### The set bits of a sprite -/

/-- How many bits are set in some rows. -/
def setBits (rows : List UInt8) : Nat :=
  (rows.map fun row => (List.range 8).countP fun i => row.toNat.testBit i).sum

/-- It does not matter from which side the bits of a row are counted. -/
theorem countP_testBit_reverse (n : Nat) :
    ((List.range 8).countP fun c => n.testBit (7 - c)) =
      (List.range 8).countP fun i => n.testBit i := by
  have hreverse : (List.range 8).map (7 - ·) = (List.range 8).reverse := by decide
  rw [← List.countP_reverse (l := List.range 8), ← hreverse, List.countP_map]
  rfl

theorem length_spriteBits (rows : List UInt8) : (spriteBits rows).length = setBits rows := by
  have hrow : ∀ (row : UInt8) (r : Nat), ((List.range 8).filterMap fun c =>
      if row.toNat.testBit (7 - c) then some (c, r) else none).length =
        (List.range 8).countP fun i => row.toNat.testBit i := by
    intro row r
    rw [List.length_filterMap_eq_countP, ← countP_testBit_reverse]
    refine List.countP_congr fun c _ => ?_
    split_ifs with hbit <;> simp [hbit]
  unfold spriteBits setBits
  generalize 0 = first
  induction rows generalizing first with
  | nil => rfl
  | cons row rows ih =>
    rw [List.zipIdx_cons, List.map_cons, List.flatten_cons, List.length_append, hrow, List.map_cons,
      List.sum_cons, ih]

/-- The pixels under some bits of a sprite at `(x, y)`, before they are wrapped around. -/
def pixelsUnder (x y : Int) (bits : List (Nat × Nat)) : List (Int × Int) :=
  bits.map fun bit => (x + bit.1, y + bit.2)

/-- Flips the pixels under some bits of a sprite at `(x, y)` in the order given, and tells whether
one of them was lit when its turn came. -/
def drawBits (x y : Int) (bits : List (Nat × Nat)) : Action Screen Bool :=
  bits.foldlM (fun collided (c, r) => do
    let lit ← xorPixel (x + c) (y + r)
    return collided || lit) false

/-! ### Runs of flips -/

/-- The pixels of `path` are flipped one after the other, which leads from `s` to `t`; `found` tells
for each of them whether it was lit when its turn came. -/
inductive Flips : Screen → List (Int × Int) → List Bool → Screen → Prop
  | nil (s : Screen) : Flips s [] [] s
  | cons {s s' t : Screen} {x y : Int} {lit : Bool} {path : List (Int × Int)} {found : List Bool}
      (first : xorPixel x y s = .ok lit s') (rest : Flips s' path found t) :
      Flips s ((x, y) :: path) (lit :: found) t

/-- A flip of a well-formed screen ends in the flipped screen, and tells the pixel's cell. -/
theorem WellFormed.of_xorPixel (hs : s.WellFormed) {lit : Bool} (h : xorPixel x y s = .ok lit t) :
    (s.cellAt x y != 0) = lit ∧ s.flip x y = t := by
  rw [xorPixel_eq hs] at h
  cases h
  exact ⟨rfl, rfl⟩

/-- Any pixels can be flipped. -/
theorem WellFormed.exists_flips (hs : s.WellFormed) (path : List (Int × Int)) :
    ∃ found t, Flips s path found t := by
  induction path generalizing s with
  | nil => exact ⟨[], s, .nil s⟩
  | cons p path ih =>
    obtain ⟨found, t, hrest⟩ := ih (hs.flip p.1 p.2)
    exact ⟨_, t, .cons (xorPixel_eq hs p.1 p.2) hrest⟩

/-- Drawing reports whether a flip found a lit pixel. -/
theorem Flips.drawBits_eq (h : Flips s (pixelsUnder x y bits) found t) :
    drawBits x y bits s = .ok (decide (0 < found.count true)) t := by
  suffices hfold : ∀ collided, (bits.foldlM (fun collided (c, r) => do
      let lit ← xorPixel (x + c) (y + r)
      return collided || lit) collided : Action Screen Bool) s =
        .ok (collided || decide (0 < found.count true)) t from hfold false
  induction bits generalizing s found with
  | nil =>
    cases h
    intro collided
    rw [List.count_nil, decide_eq_false (Nat.lt_irrefl 0), Bool.or_false]
    rfl
  | cons bit bits ih =>
    cases h with
    | @cons _ s' _ _ _ lit _ found first rest =>
      intro collided
      simp only [List.foldlM_cons, Action.bind_apply, first, Action.pure_apply, ih rest]
      cases lit <;> simp

/-! ### What a run of flips does -/

/-- A flip turns a lit pixel off and another one on. -/
theorem WellFormed.litCount_flip (hs : s.WellFormed) (x y : Int) :
    (s.flip x y).litCount + 2 * (s.cellAt x y != 0).toNat = s.litCount + 1 := by
  have hlt : s.place x y < s.cells.cells.size := by
    have := (hs.place_bounds x y).2
    have := hs.size_cells
    omega
  have hcell : s.cells.cells[s.place x y] = s.cellAt x y := by simp [cellAt, hlt]
  have hset : (s.flip x y).litCount =
      (s.cells.cells.set (s.place x y) (s.cellAt x y ^^^ 0xFF) hlt).countP (· != 0) := by
    rw [litCount, ← show s.cells.cells.setIfInBounds _ _ = _ from dif_pos hlt]
    rfl
  rw [hset, Array.countP_set, hcell]
  rcases hs.cellAt_cases x y with h | h
  · rw [h]
    rfl
  · have hpos : 0 < s.cells.cells.countP (· != 0) :=
      Array.countP_pos_iff.2 ⟨_, Array.getElem_mem hlt, by rw [hcell, h]; rfl⟩
    rw [h]
    show s.cells.cells.countP (· != 0) - 1 + 0 + 2 * 1 = s.cells.cells.countP (· != 0) + 1
    omega

/-- What flipping the pixels of `path` does, if it leads from `s` to `t` and finds `found`. -/
structure Account (s : Screen) (path : List (Int × Int)) (found : List Bool) (t : Screen) :
    Prop where
  wellFormed : t.WellFormed
  width : t.width = s.width
  height : t.height = s.height
  length : found.length = path.length
  pixelUpdates : t.display.pixelUpdates = s.display.pixelUpdates + path.length
  litCount : t.litCount + 2 * found.count true = s.litCount + path.length
  cellAt : ∀ a b, t.cellAt a b =
    (· ^^^ 0xFF)^[hitCount path s.width s.height (a.fmod s.width) (b.fmod s.height)] (s.cellAt a b)

theorem Account.nil (hs : s.WellFormed) : Account s [] [] s :=
  ⟨hs, rfl, rfl, rfl, rfl, rfl, fun _ _ => rfl⟩

/-- The account of one more flip at the start. -/
theorem Account.cons (hs : s.WellFormed) (h : Account (s.flip x y) path found t) :
    Account s ((x, y) :: path) ((s.cellAt x y != 0) :: found) t where
  wellFormed := h.wellFormed
  width := h.width
  height := h.height
  length := congrArg (· + 1) h.length
  pixelUpdates := by
    have hflip : (s.flip x y).display.pixelUpdates = s.display.pixelUpdates + 1 := rfl
    rw [h.pixelUpdates, hflip, List.length_cons]
    omega
  litCount := by
    have hflip := hs.litCount_flip x y
    have hrest := h.litCount
    rw [List.length_cons, List.count_cons]
    cases hlit : s.cellAt x y != 0 <;>
      simp only [hlit, Bool.toNat_false, Bool.toNat_true] at hflip <;> simp <;> omega
  cellAt a b := by
    rw [h.cellAt, hs.cellAt_flip, width_flip, height_flip, hitCount, hitCount, List.countP_cons]
    by_cases hhit : x.fmod s.width = a.fmod s.width ∧ y.fmod s.height = b.fmod s.height
    · rw [if_pos hhit, if_pos (decide_eq_true hhit), Function.iterate_succ_apply]
    · rw [if_neg hhit, if_neg (by simpa using hhit), Nat.add_zero]

/-- **A run of flips adds up**, by induction on the run. -/
theorem Flips.account (h : Flips s path found t) (hs : s.WellFormed) : Account s path found t := by
  induction h with
  | nil => exact .nil hs
  | cons first _ ih =>
    obtain ⟨rfl, rfl⟩ := hs.of_xorPixel first
    exact (ih (hs.flip _ _)).cons hs

/-- Runs over the same pixels lead to the same cells and find as many lit pixels, whatever their
order. -/
theorem Flips.perm (hs : s.WellFormed) (h : Flips s path found t) {path' : List (Int × Int)}
    {found' : List Bool} {t' : Screen} (h' : Flips s path' found' t') (hperm : path'.Perm path) :
    t'.cells = t.cells ∧ found'.count true = found.count true := by
  have hrun := h.account hs
  have hrun' := h'.account hs
  have hcells : t'.cells = t.cells :=
    hrun.wellFormed.cells_ext hrun'.wellFormed (hrun'.width.trans hrun.width.symm)
      (hrun'.height.trans hrun.height.symm) fun a b _ _ => by
        rw [hrun'.cellAt, hrun.cellAt, hitCount, hperm.countP_eq, hitCount]
  refine ⟨hcells, ?_⟩
  have hlit : t'.litCount = t.litCount := by rw [litCount, hcells, litCount]
  have hbefore := hrun.litCount
  have hafter := hrun'.litCount
  rw [hperm.length_eq] at hafter
  omega

/-! ### Bits that fall on different pixels -/

/-- The pixel of the screen that a pixel beside it is wrapped around to. -/
def wrap (s : Screen) (p : Int × Int) : Int × Int := (p.1.fmod s.width, p.2.fmod s.height)

@[simp] theorem wrap_flip (x y : Int) (s : Screen) : (s.flip x y).wrap = s.wrap := rfl

theorem cellAt_wrap (s : Screen) (p : Int × Int) :
    s.cellAt (s.wrap p).1 (s.wrap p).2 = s.cellAt p.1 p.2 :=
  cellAt_congr (Int.fmod_fmod ..) (Int.fmod_fmod ..)

/-- The pixels under the bits of a sprite are different, if the screen is as large as the sprite. -/
theorem nodup_wrap_pixelsUnder (hw : 8 ≤ s.width) (hh : (rows.length : Int) ≤ s.height) (x y : Int) :
    ((pixelsUnder x y (spriteBits rows)).map s.wrap).Nodup := by
  rw [pixelsUnder, List.map_map]
  refine List.pairwise_map.2 ((pairwise_not_meet hw hh x y).imp fun hmeet hsame => ?_)
  exact hmeet (Prod.mk.inj hsame)

theorem mem_wrap_pixelsUnder {p : Int × Int} :
    p ∈ (pixelsUnder x y (spriteBits rows)).map s.wrap ↔
      ∃ c r : Nat, spriteBit rows c r = true ∧ s.wrap (x + c, y + r) = p := by
  simp only [pixelsUnder, List.map_map, List.mem_map, Prod.exists, mem_spriteBits,
    Function.comp_apply]

/-- A run over different pixels finds each of them as it was at first. -/
theorem Flips.found_eq (h : Flips s path found t) (hs : s.WellFormed)
    (hdistinct : (path.map s.wrap).Nodup) : found = path.map fun p => s.cellAt p.1 p.2 != 0 := by
  induction h with
  | nil => rfl
  | @cons s _ t x y lit path found first rest ih =>
    obtain ⟨rfl, rfl⟩ := hs.of_xorPixel first
    obtain ⟨hfirst, hrest⟩ := List.nodup_cons.1 hdistinct
    rw [ih (hs.flip x y) hrest, List.map_cons]
    refine congrArg _ (List.map_congr_left fun q hq => ?_)
    -- The first flip changes the cell of no other pixel.
    have hother : ¬ (x.fmod s.width = q.1.fmod s.width ∧ y.fmod s.height = q.2.fmod s.height) :=
      fun hsame => hfirst (List.mem_map.2 ⟨q, hq, Prod.ext hsame.1.symm hsame.2.symm⟩)
    rw [hs.cellAt_flip, if_neg hother]

/-- Of different pixels, as many are lit as can be read as lit. -/
theorem WellFormed.countP_lit_eq (hs : s.WellFormed) (hdistinct : (path.map s.wrap).Nodup) :
    (path.countP fun p => s.cellAt p.1 p.2 != 0) =
      {p : Int × Int | getPixel p.1 p.2 s = .ok true s ∧ p ∈ path.map s.wrap}.ncard := by
  have hset : {p : Int × Int | getPixel p.1 p.2 s = .ok true s ∧ p ∈ path.map s.wrap} =
      ((path.map s.wrap).filter fun p => s.cellAt p.1 p.2 != 0).toFinset := by
    ext p
    simp only [Set.mem_ofPred_eq, Finset.mem_coe, List.mem_toFinset, List.mem_filter, bne_iff_ne]
    rw [hs.getPixel_eq_true_iff, and_comm]
    refine and_congr_right fun hp => ?_
    obtain ⟨q, -, rfl⟩ := List.mem_map.1 hp
    simp only [wrap, hs.wrapped_x, hs.wrapped_y, and_self, true_and]
  rw [hset, Set.ncard_coe_finset, List.toFinset_card_of_nodup (hdistinct.filter _),
    ← List.countP_eq_length_filter, List.countP_map]
  exact List.countP_congr fun p _ => by rw [Function.comp_apply, cellAt_wrap]

/-- A run over different pixels finds as many lit ones as could be read as lit before. -/
theorem Flips.count_found (h : Flips s path found t) (hs : s.WellFormed)
    (hdistinct : (path.map s.wrap).Nodup) :
    found.count true =
      {p : Int × Int | getPixel p.1 p.2 s = .ok true s ∧ p ∈ path.map s.wrap}.ncard := by
  rw [h.found_eq hs hdistinct, ← hs.countP_lit_eq hdistinct, List.count, List.countP_map]
  exact List.countP_congr fun p _ => by rw [Function.comp_apply, beq_true]

/-! ### The account of a sprite -/

/-- **Drawing reports a collision just if it turns a pixel off.** A sprite flips the pixels under its
set bits, one by one and all of them, and tells the display as often. If `found` says which of these
were lit when their turn came, then each of the lit ones takes one pixel from the number of lit
pixels and each other one adds one; the report says whether there was a lit one. The bits may be
drawn in any order, with the same report and the same pixels in the end. If the screen is as large as
the sprite, the lit ones are just the pixels under set bits that were lit before. -/
theorem WellFormed.drawSprite_account (hs : s.WellFormed) (x y : Int) (rows : List UInt8) :
    ∃ found t, Flips s (pixelsUnder x y (spriteBits rows)) found t ∧
      found.length = setBits rows ∧ found.count true ≤ setBits rows ∧
      drawSprite x y rows s = .ok (decide (0 < found.count true)) t ∧
      t.display.pixelUpdates = s.display.pixelUpdates + setBits rows ∧
      (t.litCount : Int) = s.litCount + setBits rows - 2 * found.count true ∧
      (0 < found.count true ↔ t.litCount < s.litCount + setBits rows) ∧
      (∀ order : List (Nat × Nat), order.Perm (spriteBits rows) →
        ∃ found' t', Flips s (pixelsUnder x y order) found' t' ∧
          found'.count true = found.count true ∧
          drawBits x y order s = .ok (decide (0 < found.count true)) t' ∧ t'.cells = t.cells) ∧
      (8 ≤ s.width → (rows.length : Int) ≤ s.height →
        found.count true =
          {p : Int × Int | getPixel p.1 p.2 s = .ok true s ∧
            ∃ c r : Nat, spriteBit rows c r = true ∧ s.wrap (x + c, y + r) = p}.ncard) := by
  obtain ⟨found, t, hflips⟩ := hs.exists_flips (pixelsUnder x y (spriteBits rows))
  have hrun := hflips.account hs
  have hpath : (pixelsUnder x y (spriteBits rows)).length = setBits rows := by
    rw [pixelsUnder, List.length_map, length_spriteBits]
  have hlength : found.length = setBits rows := hrun.length.trans hpath
  have hle : found.count true ≤ setBits rows := hlength ▸ List.count_le_length
  have hlit := hrun.litCount
  rw [hpath] at hlit
  refine ⟨found, t, hflips, hlength, hle, hflips.drawBits_eq, hpath ▸ hrun.pixelUpdates, by omega,
    by omega, ?_, ?_⟩
  · intro order horder
    obtain ⟨found', t', hflips'⟩ := hs.exists_flips (pixelsUnder x y order)
    obtain ⟨hcells, hcount⟩ := hflips.perm hs hflips' (horder.map _)
    exact ⟨found', t', hflips', hcount, hcount ▸ hflips'.drawBits_eq, hcells⟩
  · intro hw hh
    simp only [← mem_wrap_pixelsUnder]
    exact hflips.count_found hs (nodup_wrap_pixelsUnder hw hh x y)

/-- A screen of eight pixels, of which the leftmost is lit. -/
def strip : Screen :=
  (⟨8, 1, .blank (8 * 1), (Display.headless none).withResolution 8 1⟩ : Screen).flip 0 0

/-- On a screen of four columns, a row of eight bits turns off the four pixels that it has lit
itself. Two bits across the right edge of the strip turn off the one pixel that was lit there. -/
theorem drawSprite_account_of_edges :
    (∃ found t, Flips tiny (pixelsUnder 0 0 (spriteBits [0xFF])) found t ∧
      found.length = 8 ∧ found.count true = 4 ∧
      drawSprite 0 0 [0xFF] tiny = .ok true t ∧ t.litCount = 0) ∧
    ∃ found t, Flips strip (pixelsUnder 7 5 (spriteBits [0xC0])) found t ∧
      found.length = 2 ∧ found.count true = 1 ∧
      drawSprite 7 5 [0xC0] strip = .ok true t ∧ strip.litCount = 1 ∧ t.litCount = 1 ∧
      {p : Int × Int | getPixel p.1 p.2 strip = .ok true strip ∧
        ∃ c r : Nat, spriteBit [0xC0] c r = true ∧ strip.wrap (7 + c, 5 + r) = p}.ncard = 1 := by
  have htiny : tiny.WellFormed := .blank (by decide) (by decide) _
  have hstrip : strip.WellFormed :=
    .flip (.blank (by decide : (0 : Int) < 8) (by decide : (0 : Int) < 1) _) 0 0
  constructor
  · obtain ⟨found, t, hflips, hlength, -, hdraw, -, hlit, -⟩ := htiny.drawSprite_account 0 0 [0xFF]
    have hbits : setBits [0xFF] = 8 := by decide
    have hdrawn : (tiny.drawn 0 0 [0xFF]).2.litCount = 0 := by decide
    have hbefore : tiny.litCount = 0 := by decide
    obtain ⟨-, rfl⟩ := EStateM.Result.ok.inj (hdraw.symm.trans (drawSprite_eq htiny 0 0 [0xFF]))
    have hcount : found.count true = 4 := by omega
    rw [hcount] at hdraw
    exact ⟨found, _, hflips, hlength.trans hbits, hcount, hdraw, hdrawn⟩
  · obtain ⟨found, t, hflips, hlength, -, hdraw, -, hlit, -, -, hpixels⟩ :=
      hstrip.drawSprite_account 7 5 [0xC0]
    have hbits : setBits [0xC0] = 2 := by decide
    have hdrawn : (strip.drawn 7 5 [0xC0]).2.litCount = 1 := by decide
    have hbefore : strip.litCount = 1 := by decide
    obtain ⟨-, rfl⟩ := EStateM.Result.ok.inj (hdraw.symm.trans (drawSprite_eq hstrip 7 5 [0xC0]))
    have hcount : found.count true = 1 := by omega
    rw [hcount] at hdraw
    exact ⟨found, _, hflips, hlength.trans hbits, hcount, hdraw, hbefore, hdrawn,
      (hpixels (by decide) (by decide)).symm.trans hcount⟩

end Chip8.Screen
