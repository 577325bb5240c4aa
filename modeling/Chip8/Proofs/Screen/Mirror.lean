import Chip8.Proofs.Screen.Drawing

/-!
# The window and the screen

A windowed display keeps a picture of its own. It is in step with the cells of the screen, and the
window shows it unless it is known to be out of date.

* `Window.Shows` says that the bytes of a window are those of some pixels, `Shows.set` that writing
  the bytes of one pixel changes this pixel, and `Shows.pixel` finds the bytes of a pixel;
* `Screen.Change` are the operations that change a screen or its window, and `Change.action` what
  they do;
* `Screen.InStep` says that the window agrees with the screen; `InStep.change` that an operation
  keeps this or is refused for want of room, and `InStep.changes` that any number of them do;
* `window_in_step` says what this means for the window of a screen that was created.
-/

namespace Chip8

/-- The block of a concatenation that comes from one element, if all blocks have the same length. -/
theorem take_drop_flatMap {α β : Type} {f : α → List β} {n : Nat} (hf : ∀ a, (f a).length = n)
    {l : List α} {k : Nat} (hk : k < l.length) :
    ((l.flatMap f).drop (n * k)).take n = f l[k] := by
  induction l generalizing k with
  | nil => simp at hk
  | cons a l ih =>
    rw [List.flatMap_cons]
    cases k with
    | zero => exact List.take_left' (hf a)
    | succ k =>
      rw [Nat.mul_succ, Nat.add_comm, ← List.drop_drop, List.drop_left' (hf a)]
      exact ih (Nat.lt_of_succ_lt_succ hk)

/-- A place in a concatenation of blocks, if all blocks have the same length. -/
theorem getElem?_flatMap {α β : Type} {f : α → List β} {n : Nat} (hn : 0 < n)
    (hf : ∀ a, (f a).length = n) (l : List α) (k : Nat) :
    (l.flatMap f)[k]? = l[k / n]?.bind fun a => (f a)[k % n]? := by
  induction l generalizing k with
  | nil => simp
  | cons a l ih =>
    rw [List.flatMap_cons, List.getElem?_append, hf a]
    by_cases hk : k < n
    · rw [if_pos hk, Nat.div_eq_of_lt hk, Nat.mod_eq_of_lt hk, List.getElem?_cons_zero,
        Option.bind_some]
    · obtain ⟨j, rfl⟩ : ∃ j, k = j + n := ⟨k - n, by omega⟩
      rw [if_neg hk, Nat.add_sub_cancel, ih, Nat.add_div_right j hn, List.getElem?_cons_succ,
        Nat.add_mod_right]

namespace Window

variable {w : Window} {lit : List Bool}

/-- The bytes of a window are those of these pixels. -/
def Shows (w : Window) (lit : List Bool) : Prop :=
  w.rgb.toList = lit.flatMap fun b => (Colour.ofLit b).bytes

theorem length_bytes (b : Bool) : (Colour.ofLit b).bytes.length = 3 := rfl

theorem Shows.size (hw : w.Shows lit) : w.rgb.size = 3 * lit.length := by
  rw [← Array.length_toList, hw]
  simp [List.length_flatMap, length_bytes, List.map_const', Nat.mul_comm]

/-- The bytes of one pixel. -/
theorem Shows.pixel (hw : w.Shows lit) {p : Nat} (hp : p < lit.length) :
    (w.rgb.toList.drop (3 * p)).take 3 = (Colour.ofLit lit[p]).bytes := by
  rw [hw]
  exact take_drop_flatMap length_bytes hp

/-- Where the bytes of one pixel are written, this pixel is changed. -/
theorem Shows.set (hw : w.Shows lit) (p : Nat) (b : Bool) :
    Shows { w with rgb := Memory.overwrite w.rgb (3 * p) (Colour.ofLit b).bytes, dirty := true }
      (lit.set p b) := by
  have hsize := hw.size
  refine List.ext_getElem? fun k => ?_
  rw [Array.getElem?_toList, Memory.getElem?_overwrite, length_bytes,
    getElem?_flatMap (by decide) length_bytes, List.getElem?_set]
  by_cases hp : p = k / 3
  · rw [if_pos hp]
    by_cases hk : p < lit.length
    · rw [if_pos (by omega), if_pos hk, Option.bind_some, show k - 3 * p = k % 3 by omega]
    · rw [if_neg (by omega), if_neg hk, Array.getElem?_eq_none (by omega), Option.bind_none]
  · rw [if_neg hp, if_neg (by omega), ← Array.getElem?_toList, hw,
      getElem?_flatMap (by decide) length_bytes]

theorem shows_unlit (width height : Int) (w : Window) :
    Shows { w with rgb := unlit width height, dirty := true }
      (List.replicate (width * height).toNat false) := by
  show (List.replicate (width * height).toNat Colour.off.bytes).flatten = _
  rw [List.flatMap_def, List.map_replicate]
  rfl

end Window

namespace Screen

variable {s : Screen} {w : Window}

/-! ### Operations on a screen -/

/-- What changes a screen, or what is seen of it. -/
inductive Change
  | xorPixel (x y : Int)
  | drawSprite (x y : Int) (rows : List UInt8)
  | clear
  | resize (width height : Int)
  | refresh
  deriving DecidableEq

namespace Change

/-- What a change does where the stores of a screen have this capacity. -/
def action (capacity : Nat) : Change → Action Screen Unit
  | .xorPixel x y => do
    let _ ← Screen.xorPixel x y
  | .drawSprite x y rows => do
    let _ ← Screen.drawSprite x y rows
  | .clear => Screen.clear
  | .resize width height => Screen.resize capacity width height
  | .refresh => Screen.refresh

/-- A screen is only ever given a size with pixels. -/
def Allowed : Change → Prop
  | .resize width height => 1 ≤ width ∧ 1 ≤ height
  | .xorPixel .. | .drawSprite .. | .clear | .refresh => True

instance : DecidablePred Allowed := fun change => by
  cases change <;> unfold Allowed <;> infer_instance

/-- There is no room for the pixels that are asked for, of so many bytes each. -/
def Oversized (capacity unit : Nat) : Change → Prop
  | .resize width height => ¬ Fits capacity unit (width * height)
  | .xorPixel .. | .drawSprite .. | .clear | .refresh => False

/-- The size of a screen after a change to one of this size. -/
def size (old : Int × Int) : Change → Int × Int
  | .resize width height => (width, height)
  | .xorPixel .. | .drawSprite .. | .clear | .refresh => old

/-- Makes changes one after the other, until one is refused. -/
def all (capacity : Nat) (changes : List Change) : Action Screen Unit :=
  changes.forM (action capacity)

end Change

variable {capacity : Nat} {width height : Int}

/-- A size is refused for want of room if there is none for the cells or none for the window. -/
theorem resize_of_not_fits (h : ¬ Fits capacity s.display.bytesPerPixel (width * height)) :
    ∃ e t, resize capacity width height s = .error e t := by
  by_cases hcells : Fits capacity 1 (width * height)
  · have hwindow : s.display.window.isSome = true := by
      by_contra hnone
      exact h (by simpa [Display.bytesPerPixel, hnone] using hcells)
    have hbytes : ¬ Fits capacity Window.pixelSize (width * height) := by
      simpa [Display.bytesPerPixel, hwindow] using h
    obtain ⟨e, he⟩ := checkSize_of_not_fits hbytes s.display
    simp [resize, onCells_apply, onDisplay_apply, Memory.resize_of_fits _ hcells,
      Display.setResolution, hwindow, he]
  · obtain ⟨e, he⟩ := checkSize_of_not_fits hcells s.cells
    simp [resize, onCells_apply, Memory.resize, he]

theorem fits_of_create {d : Display} (h : create capacity d width height = .ok s) :
    Fits capacity d.bytesPerPixel (width * height) := by
  by_contra hfits
  obtain ⟨e, t, hresize⟩ := resize_of_not_fits (s := ⟨0, 0, .blank 0, d⟩) hfits
  simp [create, hresize] at h

/-! ### Windows that agree with a screen -/

/-- The window of a screen's display has the bytes of a pixel for each cell, lit if the cell is, and
shows them at their size unless it is out of date. -/
structure Mirrored (s : Screen) (w : Window) : Prop where
  window : s.display.window = some w
  pixels : w.Shows (s.cells.cells.toList.map (· != 0))
  shown : w.dirty = false → w.shown = some ⟨w.rgb, s.display.width, s.display.height⟩

/-- A screen with pixels has a window that agrees with it. -/
def InStep (s : Screen) : Prop := s.WellFormed ∧ ∃ w, s.Mirrored w

/-- The bytes of pixel number `k` begin at three times its number. -/
theorem toNat_mul_pixelSize (k : Int) : (k * Window.pixelSize).toNat = 3 * k.toNat := by
  show (k * 3).toNat = 3 * k.toNat
  omega

theorem Mirrored.flip (hw : s.Mirrored w) (hs : s.WellFormed) (x y : Int) :
    ∃ w', (s.flip x y).Mirrored w' := by
  let colour := Colour.ofLit (s.cellAt x y ^^^ 0xFF != 0)
  have hplace : (y.fmod s.height * s.display.width + x.fmod s.width).toNat = s.place x y := by
    rw [hs.width_display]
    rfl
  refine ⟨{ w with
    rgb := Memory.overwrite w.rgb (3 * s.place x y) colour.bytes
    dirty := true }, ?_, ?_, nofun⟩
  · show s.display.window.map _ = _
    rw [hw.window, Option.map_some, toNat_mul_pixelSize, hplace]
  · show Window.Shows _ ((s.cells.cells.setIfInBounds _ _).toList.map _)
    rw [Array.toList_setIfInBounds, List.map_set]
    exact hw.pixels.set _ _

theorem InStep.flip (hs : s.InStep) (x y : Int) : (s.flip x y).InStep := by
  obtain ⟨hs, w, hw⟩ := hs
  exact ⟨hs.flip x y, hw.flip hs x y⟩

theorem InStep.drawn (hs : s.InStep) (x y : Int) (rows : List UInt8) :
    (s.drawn x y rows).2.InStep :=
  drawn_induction (fun _ x y h => h.flip x y) hs x y rows

/-! ### Blanking, pixel by pixel -/

/-- A pixel of the window that is still lit after some pixels were blanked was lit before, and is
none of them. The window is out of date then. -/
theorem passBlank_window {d : Display} {w : Window} {lit : List Bool} (hw : d.window = some w)
    (hlit : w.Shows lit) (pixels : List (Nat × Nat)) :
    ∃ w' lit', (passBlank pixels d).window = some w' ∧ w'.Shows lit' ∧
      lit'.length = lit.length ∧ (w.dirty = true ∨ pixels ≠ [] → w'.dirty = true) ∧
      ∀ k, lit'.getD k false = true → lit.getD k false = true ∧
        ∀ p ∈ pixels, ((p.2 : Int) * d.width + p.1).toNat ≠ k := by
  unfold passBlank
  induction pixels generalizing d w lit with
  | nil => exact ⟨w, lit, hw, hlit, rfl, by simp, fun k hk => ⟨hk, by simp⟩⟩
  | cons p pixels ih =>
    have hset : (d.withPixel p.1 p.2 false).window = some { w with
        rgb := Memory.overwrite w.rgb (3 * ((p.2 : Int) * d.width + p.1).toNat)
          (Colour.ofLit false).bytes
        dirty := true } := by
      simp only [Display.withPixel, hw, Option.map_some, toNat_mul_pixelSize]
    obtain ⟨w', lit', hw', hlit', hlength, hdirty, hstill⟩ := ih hset (hlit.set _ false)
    refine ⟨w', lit', hw', hlit', by simpa using hlength, fun _ => hdirty (.inl rfl),
      fun k hk => ?_⟩
    obtain ⟨hbefore, hpixels⟩ := hstill k hk
    rw [List.getD_eq_getElem?_getD, List.getElem?_set] at hbefore
    have hne : ((p.2 : Int) * d.width + p.1).toNat ≠ k := by
      rintro rfl
      rw [if_pos rfl] at hbefore
      split_ifs at hbefore <;> simp at hbefore
    rw [if_neg hne, ← List.getD_eq_getElem?_getD] at hbefore
    exact ⟨hbefore, List.forall_mem_cons.2 ⟨hne, hpixels⟩⟩

theorem exists_coordinates (hs : s.WellFormed) {k : Nat} (hk : (k : Int) < s.width * s.height) :
    ∃ p ∈ coordinates s.width s.height, ((p.2 : Int) * s.width + p.1).toNat = k := by
  obtain ⟨x, y, hx, hy, hk'⟩ := exists_rowMajor hs.width_pos ⟨Int.natCast_nonneg k, hk⟩
  lift x to Nat using hx.1
  lift y to Nat using hy.1
  refine ⟨(x, y), mem_coordinates.2 ⟨hx.2, hy.2⟩, ?_⟩
  rw [hk', Int.toNat_natCast]

theorem InStep.blanked (hs : s.InStep) : s.blanked.InStep := by
  obtain ⟨hs, w, hw⟩ := hs
  obtain ⟨w', lit, hw', hlit, hlength, hdirty, hstill⟩ :=
    passBlank_window hw.window hw.pixels (coordinates s.width s.height)
  have hcount : (lit.length : Int) = s.width * s.height := by
    rw [hlength, List.length_map, Array.length_toList, hs.size_cells]
  have hunlit : lit = List.replicate (s.width * s.height).toNat false := by
    refine List.eq_replicate_iff.2 ⟨by omega, fun b hb => ?_⟩
    obtain ⟨k, hk, rfl⟩ := List.getElem_of_mem hb
    obtain ⟨p, hp, hk'⟩ := exists_coordinates hs (k := k) (by omega)
    by_contra hne
    have hlit' := hstill k (by simpa [hk] using hne)
    exact hlit'.2 p hp (by rw [hs.width_display]; exact hk')
  have hpixels : coordinates s.width s.height ≠ [] := by
    have hpos := Int.mul_pos hs.width_pos hs.height_pos
    obtain ⟨p, hp, -⟩ := exists_coordinates hs (k := 0) (by simpa using hpos)
    exact List.ne_nil_of_mem hp
  refine ⟨hs.blanked, w', hw', ?_, ?_⟩
  · have hcells : s.blanked.cells.cells.toList.map (· != 0) = lit := by
      rw [hunlit]
      show (Array.replicate (s.width * s.height).toNat (0 : UInt8)).toList.map _ = _
      simp
    rw [hcells]
    exact hlit
  · rw [hdirty (.inr hpixels)]
    nofun

/-! ### New sizes -/

theorem InStep.resized {d : Display} (hd : d.window.isSome) (hw : 1 ≤ width) (hh : 1 ≤ height) :
    InStep ⟨width, height, .blank (width * height), d.withResolution width height⟩ := by
  obtain ⟨w, hwindow⟩ := Option.isSome_iff_exists.1 hd
  refine ⟨.blank (by omega) (by omega) d,
    { w with rgb := Window.unlit width height, dirty := true }, ?_, ?_, nofun⟩
  · show d.window.map _ = _
    rw [hwindow, Option.map_some]
  · have hcells : (Memory.blank (width * height)).cells.toList.map (· != 0) =
        List.replicate (width * height).toNat false := by
      simp
    rw [hcells]
    exact Window.shows_unlit width height w

theorem InStep.isSome_window (hs : s.InStep) : s.display.window.isSome := by
  obtain ⟨-, w, hw⟩ := hs
  rw [hw.window]
  rfl

theorem InStep.reportPerformance (hs : s.InStep) (fps ops : Int) :
    (s.reportPerformance fps ops).InStep := by
  obtain ⟨hs, w, hw⟩ := hs
  exact ⟨hs.reportPerformance fps ops, w, hw.window, hw.pixels, hw.shown⟩

theorem InStep.created {d : Display} (hd : d.window.isSome) (hw : 1 ≤ width) (hh : 1 ≤ height)
    (hcreate : create capacity d width height = .ok s) :
    s.InStep ∧ (s.width, s.height) = (width, height) := by
  rw [create_of_fits (fits_of_create hcreate)] at hcreate
  obtain rfl := Except.ok.inj hcreate
  exact ⟨(InStep.resized hd hw hh).reportPerformance 0 0, rfl⟩

/-! ### Refreshes -/

/-- A refresh leaves the cells alone, and the window shows its bytes afterwards. -/
theorem InStep.refresh (hs : s.InStep) (hw : s.display.window = some w) :
    ∃ t v, Screen.refresh s = .ok () t ∧ t.InStep ∧ t.cells = s.cells ∧ t.width = s.width ∧
      t.height = s.height ∧ t.display.window = some v ∧
      v.shown = some ⟨w.rgb, s.width, s.height⟩ := by
  obtain ⟨hs, u, hu⟩ := hs
  obtain rfl : u = w := Option.some.inj (hu.window.symm.trans hw)
  have hw0 := hs.width_pos
  have hh0 := hs.height_pos
  have hwd := hs.width_display
  have hhd := hs.height_display
  by_cases hdirty : u.dirty = true
  · -- The window is brought up to date.
    let v : Window := ⟨u.rgb, false, some ⟨u.rgb, s.display.width, s.display.height⟩⟩
    let d : Display := { s.display with refreshes := s.display.refreshes + 1, window := some v }
    have hrefresh : Screen.refresh s = .ok () { s with display := d } := by
      simp only [Screen.refresh, onDisplay_apply, Display.refresh, hw]
      rw [if_pos ⟨hdirty, by omega⟩, if_neg (by omega)]
    refine ⟨_, v, hrefresh, ⟨{ hs with covered := ?_ }, v, rfl, hu.pixels, fun _ => rfl⟩, rfl, rfl,
      rfl, rfl, ?_⟩
    · intro v' hv'
      obtain rfl := Option.some.inj hv'
      exact hs.covered u hw
    · show some _ = _
      rw [hwd, hhd]
  · -- There is nothing to do: the window shows its bytes already.
    have hrefresh : Screen.refresh s =
        .ok () { s with display := { s.display with refreshes := s.display.refreshes + 1 } } := by
      simp only [Screen.refresh, onDisplay_apply, Display.refresh, hw]
      rw [if_neg (by simp [hdirty])]
    refine ⟨_, u, hrefresh, ⟨{ hs with }, u, hw, hu.pixels, hu.shown⟩, rfl, rfl, rfl, hw, ?_⟩
    rw [hu.shown (by simpa using hdirty), hwd, hhd]

/-! ### Any number of operations -/

/-- An operation keeps the window in step, or it is refused for want of room. -/
theorem InStep.change (hs : s.InStep) {change : Change} (hchange : change.Allowed) :
    (∃ t, change.action capacity s = .ok () t ∧ t.InStep ∧
        (t.width, t.height) = change.size (s.width, s.height)) ∨
      change.Oversized capacity Window.pixelSize ∧
        ∃ e t, change.action capacity s = .error e t := by
  cases change with
  | xorPixel x y =>
    refine .inl ⟨_, ?_, hs.flip x y, rfl⟩
    simp only [Change.action, Action.bind_apply, xorPixel_eq hs.1, Action.pure_apply]
  | drawSprite x y rows =>
    refine .inl ⟨_, ?_, hs.drawn x y rows, by rw [width_drawn, height_drawn, Change.size]⟩
    simp only [Change.action, Action.bind_apply, drawSprite_eq hs.1, Action.pure_apply]
  | clear => exact .inl ⟨_, clear_eq hs.1, hs.blanked, rfl⟩
  | resize width height =>
    have hunit : s.display.bytesPerPixel = Window.pixelSize := if_pos hs.isSome_window
    by_cases hfits : Fits capacity Window.pixelSize (width * height)
    · exact .inl ⟨_, resize_of_fits (hunit ▸ hfits), .resized hs.isSome_window hchange.1 hchange.2,
        rfl⟩
    · exact .inr ⟨hfits, resize_of_not_fits (hunit ▸ hfits)⟩
  | refresh =>
    obtain ⟨w, hw⟩ := Option.isSome_iff_exists.1 hs.isSome_window
    obtain ⟨t, -, hrefresh, ht, -, hwidth, hheight, -⟩ := hs.refresh hw
    exact .inl ⟨t, hrefresh, ht, by rw [hwidth, hheight, Change.size]⟩

/-- What each operation keeps that is not refused for want of room, any number of them keep, up to
one that is refused. It may depend on the operations so far. -/
theorem Change.all_induction {unit : Nat} {P : List Change → Screen → Prop}
    (step : ∀ done s (change : Change), P done s → change.Allowed →
      (∃ t, change.action capacity s = .ok () t ∧ P (done ++ [change]) t) ∨
        change.Oversized capacity unit ∧ ∃ e t, change.action capacity s = .error e t)
    (hs : P [] s) {changes : List Change} (hchanges : ∀ change ∈ changes, change.Allowed) :
    (∃ t, Change.all capacity changes s = .ok () t ∧ P changes t) ∨
      (∃ change ∈ changes, change.Oversized capacity unit) ∧
        ∃ e t, Change.all capacity changes s = .error e t := by
  suffices h : ∀ done, P done s →
      (∃ t, Change.all capacity changes s = .ok () t ∧ P (done ++ changes) t) ∨
        (∃ change ∈ changes, change.Oversized capacity unit) ∧
          ∃ e t, Change.all capacity changes s = .error e t from
    h [] hs
  clear hs
  intro done hs
  unfold Change.all
  induction changes generalizing done s with
  | nil => exact .inl ⟨s, rfl, (List.append_nil done).symm ▸ hs⟩
  | cons change changes ih =>
    obtain ⟨hchange, hchanges⟩ := List.forall_mem_cons.1 hchanges
    simp only [List.forM, Action.bind_apply]
    rcases step done s change hs hchange with ⟨t, hok, ht⟩ | ⟨hlarge, e, t, herror⟩
    · rw [hok]
      rcases ih hchanges (done ++ [change]) ht with h | ⟨⟨c, hc, hlarge⟩, hend⟩
      · rw [List.append_assoc] at h
        exact .inl h
      · exact .inr ⟨⟨c, List.mem_cons_of_mem _ hc, hlarge⟩, hend⟩
    · rw [herror]
      exact .inr ⟨⟨change, List.mem_cons_self, hlarge⟩, e, t, rfl⟩

/-- Any number of operations keep the window in step, up to one that is refused. -/
theorem InStep.changes (hs : s.InStep) {changes : List Change}
    (hchanges : ∀ change ∈ changes, change.Allowed) :
    (∃ t, Change.all capacity changes s = .ok () t ∧ t.InStep ∧
        (t.width, t.height) = changes.foldl Change.size (s.width, s.height)) ∨
      (∃ change ∈ changes, change.Oversized capacity Window.pixelSize) ∧
        ∃ e t, Change.all capacity changes s = .error e t := by
  refine Change.all_induction (s := s) (P := fun done t =>
    t.InStep ∧ (t.width, t.height) = done.foldl Change.size (s.width, s.height))
    (fun done t change ht hchange => ?_) ⟨hs, rfl⟩ hchanges
  rw [List.foldl_append, ← ht.2]
  exact ht.1.change hchange

/-- The bytes of the window are those of the cells, one after the other. -/
theorem Mirrored.toList_rgb (hw : s.Mirrored w) :
    w.rgb.toList = s.cells.cells.toList.flatMap fun cell =>
      if cell = 0 then [0x22, 0x22, 0x22] else [0xDD, 0xDD, 0xDD] := by
  rw [hw.pixels, List.flatMap_map]
  congr 1
  funext cell
  by_cases hcell : cell = 0 <;> simp [hcell, Colour.ofLit, Colour.bytes, Colour.on, Colour.off]

/-- A pixel of the screen and the three bytes of the window that belong to it. -/
theorem InStep.pixel (hs : s.InStep) (hw : s.display.window = some w) {x y : Int}
    (hx : 0 ≤ x ∧ x < s.width) (hy : 0 ≤ y ∧ y < s.height) :
    ∃ lit, getPixel x y s = .ok lit s ∧
      (w.rgb.toList.drop (3 * (y * s.width + x).toNat)).take 3 =
        if lit then [0xDD, 0xDD, 0xDD] else [0x22, 0x22, 0x22] := by
  obtain ⟨hs, v, hv⟩ := hs
  obtain rfl : v = w := Option.some.inj (hv.window.symm.trans hw)
  obtain ⟨h0, h1⟩ := rowMajor_bounds hx hy
  have hcells := hs.size_cells
  have hk : (y * s.width + x).toNat < s.cells.cells.size := by omega
  have hcell : s.cellAt x y = s.cells.cells[(y * s.width + x).toNat] := by
    rw [cellAt_of_mem hx hy]
    simp [Memory.byteAt, hk]
  refine ⟨s.cellAt x y != 0, ?_, ?_⟩
  · rw [getPixel_eq hs, if_pos ⟨hx.1, hx.2, hy⟩]
  · rw [hv.pixels.pixel (by simpa using hk), hcell]
    simp only [List.getElem_map, Array.getElem_toList]
    split_ifs with hlit <;> simp [Colour.ofLit, Colour.bytes, Colour.on, Colour.off, hlit]

/-- **The window mirrors the screen and never shows an old picture for a new one.** A screen is
created on a display with a window, and any operations change it, within any capacity. One of them
may ask for a size for which there is no room, and fails then. Otherwise the window has three bytes
for each pixel of the latest size, in the colour of the pixel; the picture that it shows is up to
date unless it is known not to be; and a refresh brings it up to date. -/
theorem window_in_step (capacity : Nat) {d : Display} (hd : d.window.isSome) {width height : Int}
    (hw : 1 ≤ width) (hh : 1 ≤ height) (hcreate : create capacity d width height = .ok s)
    {changes : List Change} (hchanges : ∀ change ∈ changes, change.Allowed) :
    (∃ t v, Change.all capacity changes s = .ok () t ∧ t.display.window = some v ∧
      (t.width, t.height) = changes.foldl Change.size (width, height) ∧
      (v.rgb.size : Int) = 3 * (t.width * t.height) ∧
      (∀ x y, (0 ≤ x ∧ x < t.width) → (0 ≤ y ∧ y < t.height) →
        ∃ lit, getPixel x y t = .ok lit t ∧
          (v.rgb.toList.drop (3 * (y * t.width + x).toNat)).take 3 =
            if lit then [0xDD, 0xDD, 0xDD] else [0x22, 0x22, 0x22]) ∧
      (v.dirty = false → v.shown = some ⟨v.rgb, t.width, t.height⟩) ∧
      ∃ t' v', refresh t = .ok () t' ∧ t'.cells = t.cells ∧ t'.width = t.width ∧
        t'.height = t.height ∧ t'.display.window = some v' ∧
        v'.shown = some ⟨v.rgb, t.width, t.height⟩ ∧
        v.rgb.toList = t.cells.cells.toList.flatMap fun cell =>
          if cell = 0 then [0x22, 0x22, 0x22] else [0xDD, 0xDD, 0xDD]) ∨
    (∃ change ∈ changes, change.Oversized capacity Window.pixelSize) ∧
      ∃ e t, Change.all capacity changes s = .error e t := by
  obtain ⟨hs, hsize⟩ := InStep.created hd hw hh hcreate
  rcases hs.changes hchanges with ⟨t, hall, ht, hlatest⟩ | hrefused
  · obtain ⟨htw, v, hv⟩ := id ht
    obtain ⟨t', v', hrefresh, -, hcells, hwidth, hheight, hv', hshown⟩ := ht.refresh hv.window
    refine .inl ⟨t, v, hall, hv.window, hsize ▸ hlatest, ?_, fun x y => ht.pixel hv.window, ?_,
      t', v', hrefresh, hcells, hwidth, hheight, hv', hshown, hv.toList_rgb⟩
    · have hbytes := htw.covered v hv.window
      rwa [htw.width_display, htw.height_display] at hbytes
    · rw [← htw.width_display, ← htw.height_display]
      exact hv.shown
  · exact .inr hrefused

/-- A sprite is drawn, the screen gets a smaller size, a pixel beyond its left edge is flipped, and
the window is refreshed. -/
def shrinking : List Change :=
  [.drawSprite 0 0 [0xF0], .resize 3 1, .xorPixel (-1) 0, .refresh]

/-- The picture in a new window has three pixels then, and the last of them has the colour of the
pixel at the right edge. -/
theorem window_in_step_of_shrinking :
    ∃ d s t v, Display.windowed none = .ok d ∧ create 24 d 4 2 = .ok s ∧
      Change.all 24 shrinking s = .ok () t ∧ t.display.window = some v ∧ t.width = 3 ∧
      t.height = 1 ∧ v.rgb.size = 9 ∧ ∃ lit, getPixel 2 0 t = .ok lit t ∧
        (v.rgb.toList.drop 6).take 3 = if lit then [0xDD, 0xDD, 0xDD] else [0x22, 0x22, 0x22] := by
  let d : Display := ⟨640, 0, 0, 0, 0, "", some ⟨#[], true, none⟩⟩
  have hd : Display.windowed none = .ok d := by rfl
  obtain ⟨s, hs⟩ : ∃ s, create 24 d 4 2 = .ok s := ⟨_, create_of_fits (by decide)⟩
  have hallowed : ∀ change ∈ shrinking, change.Allowed := by decide
  rcases window_in_step 24 (d := d) rfl (by decide) (by decide) hs hallowed with
    ⟨t, v, hall, hv, hsize, hlength, hpixel, -, -⟩ | ⟨hlarge, -⟩
  · obtain ⟨hwidth, hheight⟩ : t.width = 3 ∧ t.height = 1 := Prod.mk.inj hsize
    rw [hwidth, hheight] at hlength hpixel
    exact ⟨d, s, t, v, hd, hs, hall, hv, hwidth, hheight, by omega,
      hpixel 2 0 (by decide) (by decide)⟩
  · have hroom : Fits 24 Window.pixelSize 3 := by decide
    simp [shrinking, Change.Oversized, hroom] at hlarge

end Screen

end Chip8
