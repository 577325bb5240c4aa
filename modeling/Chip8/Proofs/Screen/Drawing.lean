import Chip8.Proofs.Memory.Block
import Chip8.Screen
import Mathlib.Tactic.Linarith

/-!
# Drawing on a screen

On a screen whose cells, size and display agree, drawing and blanking cannot fail.

* `Screen.WellFormed` says that the parts of a screen agree;
* `Screen.flip`, `Screen.drawn` and `Screen.blanked` are the screens that flipping a pixel, drawing
  a sprite and blanking leave behind, as functions;
* `xorPixel_eq`, `drawSprite_eq` and `clear_eq` say that the operations end in these screens, and
  `WellFormed.flip`, `WellFormed.drawn` and `WellFormed.blanked` that these are well formed again.
-/

namespace Chip8

theorem rowMajor_bounds {x y w h : Int} (hx : 0 ≤ x ∧ x < w) (hy : 0 ≤ y ∧ y < h) :
    0 ≤ y * w + x ∧ y * w + x < w * h := by
  have h0 : 0 ≤ y * w := Int.mul_nonneg hy.1 (by omega)
  have h1 : (y + 1) * w ≤ h * w := Int.mul_le_mul_of_nonneg_right (by omega) (by omega)
  constructor <;> nlinarith

theorem exists_rowMajor {w h k : Int} (hw : 0 < w) (hk : 0 ≤ k ∧ k < w * h) :
    ∃ x y, (0 ≤ x ∧ x < w) ∧ (0 ≤ y ∧ y < h) ∧ y * w + x = k := by
  refine ⟨k % w, k / w, ⟨Int.emod_nonneg _ hw.ne', Int.emod_lt_of_pos _ hw⟩,
    ⟨Int.ediv_nonneg hk.1 hw.le, Int.ediv_lt_of_lt_mul hw ?_⟩, Int.ediv_mul_add_emod _ _⟩
  rw [Int.mul_comm]
  exact hk.2

theorem Window.size_unlit (width height : Int) :
    (Window.unlit width height).size = pixelSize * (width * height).toNat := by
  simp [Window.unlit, Colour.bytes, pixelSize, Nat.mul_comm]

namespace Display

/-- The display after the pixel at `(x, y)` is set. -/
def withPixel (x y : Int) (lit : Bool) (d : Display) : Display :=
  { d with
    pixelUpdates := d.pixelUpdates + 1
    window := d.window.map fun w =>
      { w with
        rgb := Memory.overwrite w.rgb ((y * d.width + x) * Window.pixelSize).toNat
          (Colour.ofLit lit).bytes
        dirty := true } }

@[simp] theorem width_withPixel (x y : Int) (lit : Bool) (d : Display) :
    (d.withPixel x y lit).width = d.width := rfl

@[simp] theorem height_withPixel (x y : Int) (lit : Bool) (d : Display) :
    (d.withPixel x y lit).height = d.height := rfl

@[simp] theorem bytesPerPixel_withPixel (x y : Int) (lit : Bool) (d : Display) :
    (d.withPixel x y lit).bytesPerPixel = d.bytesPerPixel := by
  simp [bytesPerPixel, withPixel]

/-- A window, if there is one, has the bytes of a pixel for each place of the resolution. -/
def Covered (d : Display) : Prop :=
  ∀ w, d.window = some w → (w.rgb.size : Int) = Window.pixelSize * (d.width * d.height)

theorem Covered.withPixel {d : Display} (hd : d.Covered) (x y : Int) (lit : Bool) :
    (d.withPixel x y lit).Covered := by
  intro w hw
  obtain ⟨v, hv, rfl⟩ := Option.map_eq_some_iff.1 hw
  rw [Memory.size_overwrite]
  exact hd v hv

/-- The bytes of a pixel begin where they should, if they are all there. -/
theorem slot?_eq {size : Nat} {first : Int} (h0 : 0 ≤ first)
    (h : first + Window.pixelSize ≤ size) : Window.slot? size first = some first.toNat := by
  have hstart := bound_of_mem (n := size) (i := first) ⟨h0, by omega⟩
  have hstop := bound_of_mem (n := size) (i := first + Window.pixelSize) ⟨by omega, h⟩
  unfold Window.slot?
  rw [if_pos (by omega)]
  exact congrArg some (by omega)

theorem setPixel_eq {d : Display} (hd : d.Covered) {x y : Int} (hx : 0 ≤ x ∧ x < d.width)
    (hy : 0 ≤ y ∧ y < d.height) (lit : Bool) :
    setPixel x y lit d = .ok () (d.withPixel x y lit) := by
  obtain ⟨scale, width, height, updates, refreshes, title, window⟩ := d
  cases window with
  | none => rfl
  | some w =>
    have hsize : (w.rgb.size : Int) = 3 * (width * height) := hd w rfl
    have hbounds := rowMajor_bounds hx hy
    dsimp only at hbounds
    have hslot : Window.slot? w.rgb.size ((y * width + x) * Window.pixelSize) =
        some ((y * width + x) * Window.pixelSize).toNat := by
      show Window.slot? w.rgb.size ((y * width + x) * 3) = some ((y * width + x) * 3).toNat
      exact slot?_eq (by omega) (by show (y * width + x) * 3 + 3 ≤ (w.rgb.size : Int); omega)
    simp only [setPixel, hslot]
    rfl

end Display

namespace Screen

theorem onCells_apply {α : Type} (a : Action Memory α) (s : Screen) :
    onCells a s = match a s.cells with
      | .ok r cells => .ok r { s with cells }
      | .error e cells => .error e { s with cells } := by
  cases h : a s.cells <;> simp [onCells, Action.on, h]

theorem onDisplay_apply {α : Type} (a : Action Display α) (s : Screen) :
    onDisplay a s = match a s.display with
      | .ok r display => .ok r { s with display }
      | .error e display => .error e { s with display } := by
  cases h : a s.display <;> simp [onDisplay, Action.on, h]

/-- The parts of a screen agree: there is a cell for each pixel, writable and all lit or all
unlit, and the display has the screen's size. -/
structure WellFormed (s : Screen) : Prop where
  width_pos : 0 < s.width
  height_pos : 0 < s.height
  size : s.cells.size = s.width * s.height
  size_cells : (s.cells.cells.size : Int) = s.width * s.height
  protectedTop : s.cells.protectedTop = -1
  cell : ∀ c ∈ s.cells.cells, c = 0x00 ∨ c = 0xFF
  width_display : s.display.width = s.width
  height_display : s.display.height = s.height
  covered : s.display.Covered

/-- The number of the cell that a pixel has after wrapping around. -/
def place (s : Screen) (x y : Int) : Nat :=
  (y.fmod s.height * s.width + x.fmod s.width).toNat

/-- The cell of a pixel. -/
def cellAt (s : Screen) (x y : Int) : UInt8 := s.cells.cells.getD (s.place x y) 0

/-- The screen with one pixel flipped. -/
def flip (x y : Int) (s : Screen) : Screen :=
  { s with
    cells := { s.cells with
      cells := s.cells.cells.setIfInBounds (s.place x y) (s.cellAt x y ^^^ 0xFF) }
    display := s.display.withPixel (x.fmod s.width) (y.fmod s.height)
      (s.cellAt x y ^^^ 0xFF != 0) }

@[simp] theorem width_flip (x y : Int) (s : Screen) : (s.flip x y).width = s.width := rfl

@[simp] theorem height_flip (x y : Int) (s : Screen) : (s.flip x y).height = s.height := rfl

namespace WellFormed

variable {s : Screen} (hs : s.WellFormed) (x y : Int)
include hs

theorem wrapped_x : 0 ≤ x.fmod s.width ∧ x.fmod s.width < s.width :=
  ⟨Int.fmod_nonneg_of_pos x hs.width_pos, Int.fmod_lt_of_pos x hs.width_pos⟩

theorem wrapped_y : 0 ≤ y.fmod s.height ∧ y.fmod s.height < s.height :=
  ⟨Int.fmod_nonneg_of_pos y hs.height_pos, Int.fmod_lt_of_pos y hs.height_pos⟩

theorem place_bounds :
    (s.place x y : Int) = y.fmod s.height * s.width + x.fmod s.width ∧
      (s.place x y : Int) < s.width * s.height := by
  obtain ⟨h0, h1⟩ := rowMajor_bounds (hs.wrapped_x x) (hs.wrapped_y y)
  unfold place
  omega

theorem cellAt_cases : s.cellAt x y = 0x00 ∨ s.cellAt x y = 0xFF := by
  have hlt : s.place x y < s.cells.cells.size := by
    have := (hs.place_bounds x y).2
    have := hs.size_cells
    omega
  unfold cellAt
  rw [Array.getD_eq_getD_getElem?, Array.getElem?_eq_getElem hlt]
  exact hs.cell _ (Array.getElem_mem hlt)

theorem flip : (s.flip x y).WellFormed where
  width_pos := hs.width_pos
  height_pos := hs.height_pos
  size := hs.size
  size_cells := by
    show ((s.cells.cells.setIfInBounds _ _).size : Int) = _
    rw [Array.size_setIfInBounds]
    exact hs.size_cells
  protectedTop := hs.protectedTop
  cell := by
    intro c hc
    rcases Array.mem_or_eq_of_mem_setIfInBounds hc with hc | rfl
    · exact hs.cell c hc
    · rcases hs.cellAt_cases x y with h | h <;> rw [h] <;> decide
  width_display := hs.width_display
  height_display := hs.height_display
  covered := hs.covered.withPixel _ _ _

end WellFormed

/-- A screen is well formed once it is given a size with pixels. -/
theorem WellFormed.blank {width height : Int} (hw : 0 < width) (hh : 0 < height)
    (d : Display) :
    WellFormed ⟨width, height, .blank (width * height), d.withResolution width height⟩ := by
  have hpos : 0 < width * height := Int.mul_pos hw hh
  refine ⟨hw, hh, rfl, ?_, rfl, fun c hc => .inl (Array.eq_of_mem_replicate hc), rfl, rfl, ?_⟩
  · show ((Array.replicate (width * height).toNat 0 : Array UInt8).size : Int) = width * height
    rw [Array.size_replicate]
    omega
  · intro w hwindow
    obtain ⟨v, -, rfl⟩ := Option.map_eq_some_iff.1 hwindow
    show ((Window.unlit width height).size : Int) = Window.pixelSize * (width * height)
    rw [Window.size_unlit]
    push_cast
    rw [Int.toNat_of_nonneg hpos.le]

theorem WellFormed.reportPerformance {s : Screen} (hs : s.WellFormed) (fps ops : Int) :
    (s.reportPerformance fps ops).WellFormed :=
  { hs with }

/-! ### Reading pixels -/

theorem cellAt_of_blank {s : Screen} {size : Int} (h : s.cells = .blank size) (x y : Int) :
    s.cellAt x y = 0 := by
  rw [cellAt, h]
  exact Memory.byteAt_blank size (s.place x y)

/-- A pixel of the screen, where nothing wraps around, has the cell at its row and column. -/
theorem cellAt_of_mem {s : Screen} {a b : Int} (ha : 0 ≤ a ∧ a < s.width) (hb : 0 ≤ b ∧ b < s.height) :
    s.cellAt a b = s.cells.byteAt (b * s.width + a) := by
  unfold cellAt place Memory.byteAt
  rw [Int.fmod_eq_of_lt ha.1 ha.2, Int.fmod_eq_of_lt hb.1 hb.2]

/-- A pixel is read from its cell. A place beside the screen is not wrapped around, but refused. -/
theorem getPixel_eq {s : Screen} (hs : s.WellFormed) (x y : Int) :
    getPixel x y s =
      if 0 ≤ x ∧ x < s.width ∧ 0 ≤ y ∧ y < s.height then .ok (s.cellAt x y != 0) s
      else .error (.fault (.ofCause (.offScreen x y s.width s.height))) s := by
  simp only [getPixel, Action.bind_apply, Action.get_apply]
  split_ifs with hxy
  · have hx : 0 ≤ x ∧ x < s.width := ⟨hxy.1, hxy.2.1⟩
    obtain ⟨h0, h1⟩ := rowMajor_bounds hx hxy.2.2
    have hrange : s.cells.InRange (y * s.width + x) 1 := by
      unfold Memory.InRange Memory.top
      rw [hs.size]
      omega
    rw [cellAt_of_mem hx hxy.2.2]
    simp [onCells_apply, Memory.read, Memory.checkRange_apply, hrange, Memory.byteAt]
  · rfl

/-! ### Flipping pixels -/

theorem xorPixel_eq {s : Screen} (hs : s.WellFormed) (x y : Int) :
    xorPixel x y s = .ok (s.cellAt x y != 0) (s.flip x y) := by
  obtain ⟨hplace, hlt⟩ := hs.place_bounds x y
  have hx := hs.wrapped_x x
  have hy := hs.wrapped_y y
  have hw := hs.width_pos
  have hh := hs.height_pos
  have hrange : s.cells.InRange (s.place x y) 1 := by
    unfold Memory.InRange Memory.top
    rw [hs.size]
    omega
  have hbyte : (0 : Int) ≤ ((s.cellAt x y ^^^ 0xFF).toNat : Int) ∧
      ((s.cellAt x y ^^^ 0xFF).toNat : Int) < 256 := by
    have := (s.cellAt x y ^^^ 0xFF).toNat_lt
    omega
  have hread : Memory.read (s.place x y) s.cells = .ok (s.cellAt x y) s.cells := by
    simp [Memory.read, Memory.checkRange_apply, hrange, cellAt]
  have hwrite : Memory.write (s.place x y) (s.cellAt x y ^^^ 0xFF).toNat s.cells =
      .ok () (s.flip x y).cells := by
    simp only [Memory.write, Action.bind_apply, Memory.checkWritable_apply, if_pos hrange]
    rw [if_pos (by rw [hs.protectedTop]; omega), if_pos hbyte]
    simp [flip]
  have hpixel : Display.setPixel (x.fmod s.width) (y.fmod s.height)
      (s.cellAt x y ^^^ 0xFF != 0) s.display = .ok () (s.flip x y).display :=
    Display.setPixel_eq hs.covered (hs.width_display ▸ hx) (hs.height_display ▸ hy) _
  rw [hplace] at hread hwrite
  simp only [xorPixel, Action.bind_apply, Action.get_apply]
  rw [if_neg (by omega)]
  simp only [Action.pure_apply, Action.bind_apply, onCells_apply, onDisplay_apply, hread, hwrite, hpixel]
  rfl

/-- One bit of a sprite at `(x, y)`: whether a lit pixel has been met, and the screen. -/
def drawBit (x y : Int) (p : Bool × Screen) (bit : Nat × Nat) : Bool × Screen :=
  (p.1 || p.2.cellAt (x + bit.1) (y + bit.2) != 0, p.2.flip (x + bit.1) (y + bit.2))

/-- A sprite drawn at `(x, y)`: whether a lit pixel was met, and the screen. -/
def drawn (x y : Int) (rows : List UInt8) (s : Screen) : Bool × Screen :=
  (spriteBits rows).foldl (drawBit x y) (false, s)

/-- What every flip keeps holds after a sprite is drawn. -/
theorem drawn_induction {P : Screen → Prop} (hflip : ∀ s x y, P s → P (s.flip x y)) {s : Screen}
    (hs : P s) (x y : Int) (rows : List UInt8) : P (s.drawn x y rows).2 := by
  unfold drawn
  generalize false = collided
  induction spriteBits rows generalizing collided s with
  | nil => exact hs
  | cons bit bits ih => exact ih (hflip s (x + bit.1) (y + bit.2) hs) _

theorem WellFormed.drawn {s : Screen} (hs : s.WellFormed) (x y : Int) (rows : List UInt8) :
    (s.drawn x y rows).2.WellFormed :=
  drawn_induction (fun _ x y h => h.flip x y) hs x y rows

@[simp] theorem width_drawn (x y : Int) (rows : List UInt8) (s : Screen) :
    (s.drawn x y rows).2.width = s.width :=
  drawn_induction (P := fun t => t.width = s.width) (fun _ _ _ h => h) rfl x y rows

@[simp] theorem height_drawn (x y : Int) (rows : List UInt8) (s : Screen) :
    (s.drawn x y rows).2.height = s.height :=
  drawn_induction (P := fun t => t.height = s.height) (fun _ _ _ h => h) rfl x y rows

@[simp] theorem bytesPerPixel_drawn (x y : Int) (rows : List UInt8) (s : Screen) :
    (s.drawn x y rows).2.display.bytesPerPixel = s.display.bytesPerPixel :=
  drawn_induction (P := fun t => t.display.bytesPerPixel = s.display.bytesPerPixel)
    (fun _ _ _ h => (Display.bytesPerPixel_withPixel ..).trans h) rfl x y rows

theorem drawSprite_eq {s : Screen} (hs : s.WellFormed) (x y : Int) (rows : List UInt8) :
    drawSprite x y rows s = .ok (s.drawn x y rows).1 (s.drawn x y rows).2 := by
  unfold drawSprite Screen.drawn
  generalize false = collided
  induction spriteBits rows generalizing collided s with
  | nil => rfl
  | cons bit bits ih =>
    obtain ⟨c, r⟩ := bit
    simp only [List.foldlM_cons, Action.bind_apply, xorPixel_eq hs, Action.pure_apply]
    exact ih (hs.flip (x + c) (y + r)) _

/-! ### Blanking -/

/-- The display after all pixels of a blank screen are passed on to it. -/
def passBlank (pixels : List (Nat × Nat)) (d : Display) : Display :=
  pixels.foldl (fun d (x, y) => d.withPixel x y false) d

/-- The screen with all pixels unlit. -/
def blanked (s : Screen) : Screen :=
  { s with
    cells := .blank (s.width * s.height)
    display := passBlank (coordinates s.width s.height) s.display }

@[simp] theorem width_blanked (s : Screen) : s.blanked.width = s.width := rfl

@[simp] theorem height_blanked (s : Screen) : s.blanked.height = s.height := rfl

theorem mem_coordinates {width height : Int} {x y : Nat} :
    (x, y) ∈ coordinates width height ↔ (x : Int) < width ∧ (y : Int) < height := by
  simp only [coordinates, List.mem_flatMap, List.mem_map, List.mem_range, Prod.mk.injEq]
  constructor
  · rintro ⟨v, hv, u, hu, rfl, rfl⟩
    omega
  · rintro ⟨hx, hy⟩
    exact ⟨y, by omega, x, by omega, rfl, rfl⟩

theorem passBlank_spec {d : Display} (hd : d.Covered) (pixels : List (Nat × Nat)) :
    (passBlank pixels d).Covered ∧ (passBlank pixels d).width = d.width ∧
      (passBlank pixels d).height = d.height := by
  unfold passBlank
  induction pixels generalizing d with
  | nil => exact ⟨hd, rfl, rfl⟩
  | cons p pixels ih => exact ih (hd.withPixel p.1 p.2 false)

@[simp] theorem bytesPerPixel_passBlank (pixels : List (Nat × Nat)) (d : Display) :
    (passBlank pixels d).bytesPerPixel = d.bytesPerPixel := by
  unfold passBlank
  induction pixels generalizing d with
  | nil => rfl
  | cons p pixels ih => rw [List.foldl_cons, ih, Display.bytesPerPixel_withPixel]

theorem forM_setPixel_eq {s : Screen} (hs : s.display.Covered) (pixels : List (Nat × Nat))
    (hp : ∀ p ∈ pixels, (p.1 : Int) < s.display.width ∧ (p.2 : Int) < s.display.height) :
    (pixels.forM fun (x, y) => onDisplay (Display.setPixel x y false)) s =
      .ok ⟨⟩ { s with display := passBlank pixels s.display } := by
  induction pixels generalizing s with
  | nil => rfl
  | cons p pixels ih =>
    obtain ⟨x, y⟩ := p
    obtain ⟨hx, hy⟩ := hp (x, y) (List.mem_cons_self ..)
    simp only [List.forM, Action.bind_apply, onDisplay_apply,
      Display.setPixel_eq hs ⟨Int.natCast_nonneg x, hx⟩ ⟨Int.natCast_nonneg y, hy⟩]
    exact ih (s := { s with display := s.display.withPixel x y false }) (hs.withPixel x y false)
      fun q hq => hp q (List.mem_cons_of_mem _ hq)

theorem clear_eq {s : Screen} (hs : s.WellFormed) : clear s = .ok () s.blanked := by
  have hcells : Memory.clear s.cells = .ok () (.blank (s.width * s.height)) := by
    rw [Memory.clear_eq s.cells (hs.size_cells.trans hs.size.symm), hs.size, hs.protectedTop]
    rfl
  simp only [clear, Action.bind_apply, onCells_apply, hcells, Action.get_apply]
  rw [forM_setPixel_eq (s := { s with cells := .blank (s.width * s.height) }) hs.covered]
  · rfl
  · rintro ⟨x, y⟩ hxy
    rw [hs.width_display, hs.height_display]
    exact mem_coordinates.1 hxy

theorem WellFormed.blanked {s : Screen} (hs : s.WellFormed) : s.blanked.WellFormed where
  width_pos := hs.width_pos
  height_pos := hs.height_pos
  size := rfl
  size_cells := by
    have := hs.size_cells
    show ((Array.replicate (s.width * s.height).toNat 0 : Array UInt8).size : Int) = _
    rw [Array.size_replicate]
    show _ = s.width * s.height
    omega
  protectedTop := rfl
  cell := fun c hc => .inl (Array.eq_of_mem_replicate hc)
  width_display := (passBlank_spec hs.covered _).2.1.trans hs.width_display
  height_display := (passBlank_spec hs.covered _).2.2.trans hs.height_display
  covered := (passBlank_spec hs.covered _).1

end Screen

end Chip8
