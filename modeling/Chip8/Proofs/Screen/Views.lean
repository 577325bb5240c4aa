import Chip8.Proofs.Screen.Mirror
import Chip8.Proofs.Screen.Parity
import Mathlib.Algebra.Ring.Parity
import Mathlib.Data.Nat.Count
import Mathlib.Data.Set.Card

/-!
# All views of the screen

A screen is read pixel by pixel, as colours, or as the number of its lit pixels. All of these tell
the same, and what they tell is how often each pixel was flipped.

* `Change.flips` are the pixels that an operation flips, and `Change.flipsSince` collects them since
  the screen was last blanked;
* `Screen.Painted` says that a screen shows some flips; `Painted.change` that each operation keeps
  this;
* `rgba_pixel` and `litCount_eq` find the pixels in the colours and in the number of lit pixels;
* `create_views_agree` puts this together for a screen that was created.
-/

namespace Chip8.Screen

variable {capacity : Nat} {s : Screen}

/-! ### Flips -/

/-- The pixels that an operation flips, one by one, before they are wrapped around. -/
def Change.flips : Change → List (Int × Int)
  | .xorPixel x y => [(x, y)]
  | .drawSprite x y rows => (spriteBits rows).map fun bit => (x + bit.1, y + bit.2)
  | .clear | .resize .. | .refresh => []

/-- The flips since the screen was last blanked, if there were `flips` before the operation. -/
def Change.flipsSince (flips : List (Int × Int)) : Change → List (Int × Int)
  | .clear | .resize .. => []
  | change => flips ++ change.flips

/-- How many flips fall on the pixel `(a, b)` of a screen of this size. -/
def hitCount (flips : List (Int × Int)) (width height a b : Int) : Nat :=
  flips.countP fun p => p.1.fmod width = a ∧ p.2.fmod height = b

theorem hitCount_concat (flips : List (Int × Int)) (p : Int × Int) (width height a b : Int) :
    hitCount (flips ++ [p]) width height a b =
      hitCount flips width height a b +
        if p.1.fmod width = a ∧ p.2.fmod height = b then 1 else 0 := by
  simp [hitCount, List.countP_append, List.countP_singleton]

/-- A screen that was blank shows some flips: a pixel is lit if an odd number of them fall on it. -/
structure Painted (s : Screen) (flips : List (Int × Int)) : Prop extends WellFormed s where
  shows : ∀ a b, s.cellAt a b =
    if Odd (hitCount flips s.width s.height (a.fmod s.width) (b.fmod s.height)) then 0xFF else 0x00

variable {flips : List (Int × Int)}

theorem Painted.of_blank (hs : s.WellFormed) (h : s.cells = .blank (s.width * s.height)) :
    s.Painted [] := by
  refine { hs with shows := fun a b => ?_ }
  have hcell : s.cellAt a b = 0x00 := cellAt_of_blank h a b
  have hnone : hitCount [] s.width s.height (a.fmod s.width) (b.fmod s.height) = 0 := rfl
  rw [hcell, hnone, if_neg Nat.not_odd_zero]

theorem Painted.flip (hs : s.Painted flips) (x y : Int) :
    (s.flip x y).Painted (flips ++ [(x, y)]) := by
  refine { hs.toWellFormed.flip x y with shows := fun a b => ?_ }
  rw [hs.cellAt_flip, hs.shows, width_flip, height_flip, hitCount_concat]
  by_cases h : x.fmod s.width = a.fmod s.width ∧ y.fmod s.height = b.fmod s.height
  · simp only [if_pos h, Nat.odd_add_one]
    split_ifs <;> rfl
  · simp only [if_neg h, Nat.add_zero]

theorem Painted.drawn (hs : s.Painted flips) (x y : Int) (rows : List UInt8) :
    (s.drawn x y rows).2.Painted (flips ++ (spriteBits rows).map fun bit => (x + bit.1, y + bit.2)) := by
  unfold Screen.drawn
  generalize false = collided
  induction spriteBits rows generalizing collided s flips with
  | nil => simpa using hs
  | cons bit bits ih =>
    rw [List.map_cons, List.append_cons]
    exact ih (hs.flip (x + bit.1) (y + bit.2)) _

theorem Painted.blanked (hs : s.WellFormed) : s.blanked.Painted [] := .of_blank hs.blanked rfl

theorem Painted.reportPerformance (hs : s.Painted flips) (fps ops : Int) :
    (s.reportPerformance fps ops).Painted flips :=
  { hs.toWellFormed.reportPerformance fps ops with shows := hs.shows }

/-! ### Refreshes -/

/-- A refresh changes nothing but the display, and keeps its size. -/
theorem WellFormed.refresh (hs : s.WellFormed) :
    ∃ d, refresh s = .ok () { s with display := d } ∧ WellFormed { s with display := d } := by
  have hw := hs.width_pos
  have hh := hs.height_pos
  have hwd := hs.width_display
  have hhd := hs.height_display
  unfold Screen.refresh
  rw [onDisplay_apply, Display.refresh]
  cases hwindow : s.display.window with
  | none => exact ⟨_, rfl, { hs with covered := by rw [← hwindow]; exact hs.covered }⟩
  | some w =>
    by_cases hdirty : w.dirty = true
    · simp only [hdirty, true_and]
      rw [if_pos (by omega), if_neg (by omega)]
      refine ⟨_, rfl, { hs with covered := fun v hv => ?_ }⟩
      obtain rfl := Option.some.inj hv
      exact hs.covered w hwindow
    · simp only [hdirty]
      exact ⟨_, rfl, { hs with covered := by rw [← hwindow]; exact hs.covered }⟩

theorem bytesPerPixel_of_refresh {t : Screen} (h : refresh s = .ok () t) :
    t.display.bytesPerPixel = s.display.bytesPerPixel := by
  rw [refresh, onDisplay_apply, Display.refresh] at h
  cases hwindow : s.display.window with
  | none =>
    simp only [hwindow] at h
    cases h
    simp [Display.bytesPerPixel, hwindow]
  | some w =>
    simp only [hwindow] at h
    by_cases hstale : w.dirty = true ∧ s.display.width ≠ 0
    · rw [if_pos hstale] at h
      split_ifs at h
      cases h
      simp [Display.bytesPerPixel, hwindow]
    · rw [if_neg hstale] at h
      cases h
      simp [Display.bytesPerPixel, hwindow]

/-! ### Any number of operations -/

/-- An operation changes the flips that are shown and perhaps the size, but not what a pixel takes,
or it is refused for want of room. -/
theorem Painted.change (hs : s.Painted flips) {change : Change} (hchange : change.Allowed) :
    (∃ t, change.action capacity s = .ok () t ∧ t.Painted (change.flipsSince flips) ∧
        (t.width, t.height) = change.size (s.width, s.height) ∧
        t.display.bytesPerPixel = s.display.bytesPerPixel) ∨
      change.Oversized capacity s.display.bytesPerPixel ∧
        ∃ e t, change.action capacity s = .error e t := by
  cases change with
  | xorPixel x y =>
    refine .inl ⟨_, ?_, hs.flip x y, rfl, Display.bytesPerPixel_withPixel ..⟩
    simp only [Change.action, Action.bind_apply, xorPixel_eq hs.toWellFormed, Action.pure_apply]
  | drawSprite x y rows =>
    refine .inl ⟨_, ?_, hs.drawn x y rows, by rw [width_drawn, height_drawn, Change.size],
      bytesPerPixel_drawn ..⟩
    simp only [Change.action, Action.bind_apply, drawSprite_eq hs.toWellFormed, Action.pure_apply]
  | clear =>
    exact .inl ⟨_, clear_eq hs.toWellFormed, .blanked hs.toWellFormed, rfl,
      bytesPerPixel_passBlank ..⟩
  | resize width height =>
    obtain ⟨hw, hh⟩ := hchange
    by_cases hfits : Fits capacity s.display.bytesPerPixel (width * height)
    · have hblank : WellFormed ⟨width, height, .blank (width * height),
          s.display.withResolution width height⟩ := .blank (by omega) (by omega) _
      exact .inl ⟨_, resize_of_fits hfits, .of_blank hblank rfl, rfl,
        Display.bytesPerPixel_withResolution ..⟩
    · exact .inr ⟨hfits, resize_of_not_fits hfits⟩
  | refresh =>
    obtain ⟨d, hrefresh, ht⟩ := hs.toWellFormed.refresh
    refine .inl ⟨_, hrefresh, ?_, rfl, bytesPerPixel_of_refresh hrefresh⟩
    show Painted _ (flips ++ [])
    rw [List.append_nil]
    exact { ht with shows := hs.shows }

/-- Any number of operations change the flips that are shown, up to one that is refused. -/
theorem Painted.changes (hs : s.Painted []) {changes : List Change}
    (hchanges : ∀ change ∈ changes, change.Allowed) :
    (∃ t, Change.all capacity changes s = .ok () t ∧
        t.Painted (changes.foldl Change.flipsSince []) ∧
        (t.width, t.height) = changes.foldl Change.size (s.width, s.height) ∧
        t.display.bytesPerPixel = s.display.bytesPerPixel) ∨
      (∃ change ∈ changes, change.Oversized capacity s.display.bytesPerPixel) ∧
        ∃ e t, Change.all capacity changes s = .error e t := by
  refine Change.all_induction (s := s) (P := fun done t =>
    t.Painted (done.foldl Change.flipsSince []) ∧
      (t.width, t.height) = done.foldl Change.size (s.width, s.height) ∧
      t.display.bytesPerPixel = s.display.bytesPerPixel)
    (fun done t change ht hchange => ?_) ⟨hs, rfl, rfl⟩ hchanges
  rw [List.foldl_append, List.foldl_append, ← ht.2.1, ← ht.2.2]
  exact ht.1.change hchange

/-! ### Colours -/

theorem WellFormed.length_rgba (hs : s.WellFormed) :
    (s.rgba.length : Int) = 4 * (s.width * s.height) := by
  have hlength : s.rgba.length = s.cells.cells.size * 4 := by simp [rgba]
  rw [hlength, ← hs.size_cells, Nat.cast_mul, mul_comm]
  rfl

/-- The four bytes that belong to a pixel. -/
theorem WellFormed.rgba_pixel (hs : s.WellFormed) {x y : Int} (hx : 0 ≤ x ∧ x < s.width)
    (hy : 0 ≤ y ∧ y < s.height) :
    (s.rgba.drop (4 * (y * s.width + x).toNat)).take 4 =
      List.replicate 4 (if s.cellAt x y = 0 then 0x00 else 0xFF) := by
  obtain ⟨h0, h1⟩ := rowMajor_bounds hx hy
  have hcells := hs.size_cells
  have hk : (y * s.width + x).toNat < s.cells.cells.size := by omega
  have hcell : s.cellAt x y = s.cells.cells[(y * s.width + x).toNat] := by
    rw [cellAt_of_mem hx hy]
    simp [Memory.byteAt, hk]
  rw [hcell]
  exact take_drop_flatMap (fun _ => List.length_replicate) (l := s.cells.cells.toList) hk

/-! ### The number of lit pixels -/

/-- What holds of a list's elements holds of as many of its places. -/
theorem countP_eq_card_places {α : Type} (p : α → Bool) (l : List α) (d : α) :
    l.countP p = ((Finset.range l.length).filter fun k => p (l.getD k d) = true).card := by
  have hl : l = (List.range l.length).map fun k => l.getD k d :=
    List.ext_getElem (by simp) fun k hk _ => by simp [hk]
  have hcount : l.countP p = Nat.count (fun k => p (l.getD k d) = true) l.length := by
    conv_lhs => rw [hl, List.countP_map]
    exact List.countP_congr fun k _ => by simp
  rw [hcount, Nat.count_eq_card_filter_range]

/-- A pixel can be read and is lit exactly if it is on the screen and its cell is lit. -/
theorem WellFormed.getPixel_eq_true_iff (hs : s.WellFormed) {x y : Int} :
    getPixel x y s = .ok true s ↔
      (0 ≤ x ∧ x < s.width) ∧ (0 ≤ y ∧ y < s.height) ∧ s.cellAt x y ≠ 0 := by
  rw [getPixel_eq hs]
  split_ifs with hxy
  · simp [hxy]
  · refine iff_of_false nofun fun h => hxy ⟨h.1.1, h.1.2, h.2.1⟩

/-- **There are as many lit cells as lit pixels.** -/
theorem WellFormed.litCount_eq (hs : s.WellFormed) :
    s.litCount = {p : Int × Int | getPixel p.1 p.2 s = .ok true s}.ncard := by
  -- Each lit pixel has its own place, and each place with a lit cell has its pixel.
  have hinjective : Set.InjOn (fun p : Int × Int => s.place p.1 p.2)
      {p | getPixel p.1 p.2 s = .ok true s} := by
    rintro ⟨x, y⟩ hp ⟨a, b⟩ hq h
    obtain ⟨hx, hy, -⟩ := hs.getPixel_eq_true_iff.1 hp
    obtain ⟨ha, hb, -⟩ := hs.getPixel_eq_true_iff.1 hq
    have hsame := hs.place_eq_iff.1 h
    simp only [Int.fmod_eq_of_lt hx.1 hx.2, Int.fmod_eq_of_lt hy.1 hy.2,
      Int.fmod_eq_of_lt ha.1 ha.2, Int.fmod_eq_of_lt hb.1 hb.2] at hsame
    exact Prod.ext hsame.1 hsame.2
  have himage : (fun p : Int × Int => s.place p.1 p.2) '' {p | getPixel p.1 p.2 s = .ok true s} =
      ((Finset.range s.cells.cells.toList.length).filter fun k =>
        (s.cells.cells.toList.getD k 0 != 0) = true : Finset Nat) := by
    have hcells := hs.size_cells
    ext k
    simp only [Set.mem_image, Set.mem_ofPred_eq, Finset.coe_filter, Finset.mem_range,
      Array.length_toList, bne_iff_ne]
    constructor
    · rintro ⟨⟨x, y⟩, hp, rfl⟩
      obtain ⟨-, -, hlit⟩ := hs.getPixel_eq_true_iff.1 hp
      have hlt := (hs.place_bounds x y).2
      exact ⟨by show s.place x y < _; omega, by simpa [cellAt] using hlit⟩
    · rintro ⟨hk, hlit⟩
      obtain ⟨x, y, hx, hy, hxy⟩ := exists_rowMajor hs.width_pos
        (show 0 ≤ (k : Int) ∧ (k : Int) < s.width * s.height by omega)
      have hplace : s.place x y = k := by
        rw [place, Int.fmod_eq_of_lt hx.1 hx.2, Int.fmod_eq_of_lt hy.1 hy.2, hxy, Int.toNat_natCast]
      refine ⟨(x, y), hs.getPixel_eq_true_iff.2 ⟨hx, hy, ?_⟩, hplace⟩
      rw [cellAt, hplace]
      simpa using hlit
  rw [← hinjective.ncard_image, himage, Set.ncard_coe_finset, litCount, ← Array.countP_toList]
  exact countP_eq_card_places (· != 0) s.cells.cells.toList 0

/-! ### All views together -/

theorem Painted.created {d : Display} {width height : Int} (hw : 1 ≤ width) (hh : 1 ≤ height)
    (h : create capacity d width height = .ok s) :
    s.Painted [] ∧ (s.width, s.height) = (width, height) ∧
      s.display.bytesPerPixel = d.bytesPerPixel := by
  rw [create_of_fits (fits_of_create h)] at h
  obtain rfl := Except.ok.inj h
  have hblank : WellFormed ⟨width, height, .blank (width * height),
      d.withResolution width height⟩ := .blank (by omega) (by omega) d
  exact ⟨(Painted.of_blank hblank rfl).reportPerformance 0 0, rfl,
    Display.bytesPerPixel_withResolution ..⟩

/-- A pixel is lit if an odd number of flips fall on it, and pixels beside the screen are refused. -/
theorem Painted.getPixel_eq (hs : s.Painted flips) (x y : Int) :
    getPixel x y s =
      if 0 ≤ x ∧ x < s.width ∧ 0 ≤ y ∧ y < s.height then
        .ok (decide (Odd (hitCount flips s.width s.height x y))) s
      else .error (.fault (.ofCause (.offScreen x y s.width s.height))) s := by
  rw [Screen.getPixel_eq hs.toWellFormed]
  split_ifs with hxy
  · obtain ⟨hx0, hx1, hy0, hy1⟩ := hxy
    rw [hs.shows, Int.fmod_eq_of_lt hx0 hx1, Int.fmod_eq_of_lt hy0 hy1]
    split_ifs with hodd <;> simp [hodd]
  · rfl

/-- **All views of the screen agree.** A screen is created on any display, and any operations change
it, within any capacity. One of them may ask for a size for which there is no room, and fails then.
Otherwise each cell is unlit or lit; a pixel can be read just if it is on the screen of the latest
size, and is lit if an odd number of flips since the last blanking wrap around to it; its four bytes
among the colours are set just if it is lit; as many pixels are lit as are counted; and the display
has the size of the screen. -/
theorem create_views_agree (capacity : Nat) {d : Display} {width height : Int} (hw : 1 ≤ width)
    (hh : 1 ≤ height) (hcreate : create capacity d width height = .ok s) {changes : List Change}
    (hchanges : ∀ change ∈ changes, change.Allowed) :
    (∃ t, Change.all capacity changes s = .ok () t ∧
      (t.width, t.height) = changes.foldl Change.size (width, height) ∧
      (∀ c ∈ t.cells.cells, c = 0x00 ∨ c = 0xFF) ∧
      (∀ x y, getPixel x y t =
        if 0 ≤ x ∧ x < t.width ∧ 0 ≤ y ∧ y < t.height then
          .ok (decide (Odd (hitCount (changes.foldl Change.flipsSince []) t.width t.height x y))) t
        else .error (.fault (.ofCause (.offScreen x y t.width t.height))) t) ∧
      (t.rgba.length : Int) = 4 * (t.width * t.height) ∧
      (∀ x y, (0 ≤ x ∧ x < t.width) → (0 ≤ y ∧ y < t.height) →
        ∃ lit, getPixel x y t = .ok lit t ∧
          (t.rgba.drop (4 * (y * t.width + x).toNat)).take 4 =
            List.replicate 4 (if lit then 0xFF else 0x00)) ∧
      t.litCount = {p : Int × Int | getPixel p.1 p.2 t = .ok true t}.ncard ∧
      t.display.width = t.width ∧ t.display.height = t.height) ∨
    (∃ change ∈ changes, change.Oversized capacity d.bytesPerPixel) ∧
      ∃ e t, Change.all capacity changes s = .error e t := by
  obtain ⟨hs, hsize, hbytes⟩ := Painted.created hw hh hcreate
  rw [← hbytes, ← hsize]
  rcases hs.changes hchanges with ⟨t, hok, ht, hlatest, -⟩ | hrefused
  · have hwf := ht.toWellFormed
    refine .inl ⟨t, hok, hlatest, hwf.cell, ht.getPixel_eq, hwf.length_rgba, fun x y hx hy => ?_,
      hwf.litCount_eq, hwf.width_display, hwf.height_display⟩
    refine ⟨t.cellAt x y != 0, ?_, ?_⟩
    · rw [Screen.getPixel_eq hwf, if_pos ⟨hx.1, hx.2, hy⟩]
    · rw [hwf.rgba_pixel hx hy]
      by_cases hcell : t.cellAt x y = 0 <;> simp [hcell]
  · exact .inr hrefused

/-- A pixel is flipped, the screen gets another size, a sprite is drawn over its right edge, and a
pixel of the sprite is flipped back from beyond the left edge. -/
def crossing : List Change :=
  [.xorPixel 0 0, .resize 3 2, .drawSprite 2 1 [0xC0], .xorPixel (-1) 1]

/-- What is left is the bit of the sprite that wrapped around. -/
theorem create_views_agree_of_crossing :
    ∃ s t, create 8 (.headless none) 4 2 = .ok s ∧ Change.all 8 crossing s = .ok () t ∧
      t.width = 3 ∧ t.height = 2 ∧ getPixel 0 1 t = .ok true t ∧ getPixel 2 1 t = .ok false t ∧
      getPixel 0 0 t = .ok false t ∧
      getPixel 3 1 t = .error (.fault (.ofCause (.offScreen 3 1 3 2))) t ∧ t.rgba.length = 24 := by
  obtain ⟨s, hs⟩ : ∃ s, create 8 (.headless none) 4 2 = .ok s := ⟨_, create_of_fits (by decide)⟩
  have hallowed : ∀ change ∈ crossing, change.Allowed := by decide
  rcases create_views_agree 8 (by decide) (by decide) hs hallowed with
    ⟨t, hall, hsize, -, hpixel, hlength, -⟩ | ⟨hlarge, -⟩
  · obtain ⟨hwidth, hheight⟩ : t.width = 3 ∧ t.height = 2 := Prod.mk.inj hsize
    rw [hwidth, hheight] at hpixel hlength
    exact ⟨s, t, hs, hall, hwidth, hheight, hpixel 0 1, hpixel 2 1, hpixel 0 0, hpixel 3 1,
      by omega⟩
  · have hroom : Fits 8 (Display.headless none).bytesPerPixel 6 := by decide
    simp [crossing, Change.Oversized, hroom] at hlarge

end Chip8.Screen
