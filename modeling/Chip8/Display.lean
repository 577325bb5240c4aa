import Chip8.Memory

/-!
# Displays

What a screen draws on. Every display keeps its resolution, its title, and how many pixels and
refreshes it was sent. A headless display does no more than that; a windowed one also keeps the
bytes of the picture to show, and shows it when it is refreshed and something has changed.

* `Display.headless`, `Display.windowed` set a display up; a window may be refused;
* `Display.setResolution`, `Display.setPixel`, `Display.refresh`, `Display.setTitle` are what a
  screen asks of it, `Display.withResolution` and `Display.withTitle` what it then looks like;
* `Display.windowColour` is the colour that a point of the window shows.
-/

namespace Chip8

/-- A colour in the window. -/
structure Colour where
  red : UInt8
  green : UInt8
  blue : UInt8
  deriving DecidableEq, Inhabited

namespace Colour

def black : Colour := ⟨0, 0, 0⟩

/-- The colour of an unlit pixel. -/
def off : Colour := ⟨0x22, 0x22, 0x22⟩

/-- The colour of a lit pixel. -/
def on : Colour := ⟨0xDD, 0xDD, 0xDD⟩

def ofLit (lit : Bool) : Colour := if lit then on else off

/-- The red, green and blue bytes, in this order. -/
def bytes (c : Colour) : List UInt8 := [c.red, c.green, c.blue]

end Colour

/-- A picture, three bytes a pixel and row by row. -/
structure Picture where
  rgb : Array UInt8
  width : Int
  height : Int
  deriving DecidableEq

/-- The colour of pixel number `p`. -/
def Picture.colour (picture : Picture) (p : Nat) : Colour :=
  ⟨picture.rgb.getD (3 * p) 0, picture.rgb.getD (3 * p + 1) 0, picture.rgb.getD (3 * p + 2) 0⟩

/-- The pixels to show in a window, three bytes each and row by row, whether they have changed since
the window last showed them, and the picture that it shows. -/
structure Window where
  rgb : Array UInt8
  dirty : Bool
  shown : Option Picture
  deriving DecidableEq

/-- The longest side of a window. -/
def Window.maxSide : Int := 16384

/-- The size of a window for which none is asked. -/
def Window.desktop : Int × Int := (1024, 768)

/-- How many bytes a pixel takes. -/
def Window.pixelSize : Nat := 3

/-- The bytes of a resolution's pixels while none is lit. -/
def Window.unlit (width height : Int) : Array UInt8 :=
  (List.replicate (width * height).toNat Colour.off.bytes).flatten.toArray

/-- Where the bytes of a pixel begin among `size` bytes, if they are to run from `first` on.
Negative numbers count from the end. There must be just as many bytes as a pixel takes. -/
def Window.slot? (size : Nat) (first : Int) : Option Nat :=
  let start := bound size first
  if bound size (first + pixelSize) - start = pixelSize then some start else none

/-- What a screen draws on; `window` is missing when it is headless. -/
structure Display where
  scale : Int
  width : Int
  height : Int
  pixelUpdates : Nat
  refreshes : Nat
  title : String
  window : Option Window
  deriving DecidableEq, Inhabited

namespace Display

/-- A display that shows nothing. -/
def headless (scale : Option Int) : Display := ⟨scale.getD 1, 0, 0, 0, 0, "", none⟩

/-- The window's width and height as they are asked for: its height is half its width. -/
def windowSize (d : Display) : Int × Int := (d.scale, d.scale / 2)

/-- The size of the window that is opened for a size that is asked for. A window system counts in
thirty-two bits, and what is beyond them wraps around. -/
def openedSize (size : Int × Int) : Except WindowError (Int × Int) :=
  let width := size.1.bmod 0x100000000
  let height := size.2.bmod 0x100000000
  if ¬ (IsIndex size.1 ∧ IsIndex size.2) then .error .uncountable
  else if width < 0 ∨ height < 0 then .error .negative
  else if Window.maxSide < width ∨ Window.maxSide < height then .error .tooLarge
  else if width = 0 ∧ height = 0 then .ok Window.desktop
  else .ok (max width 1, max height 1)

/-- A display in a window of the given width, with no pixels yet. -/
def windowed (scale : Option Int) : Except Error Display := do
  let d : Display := ⟨scale.getD 640, 0, 0, 0, 0, "", some ⟨#[], true, none⟩⟩
  let _ ← (openedSize d.windowSize).mapError Error.window
  return d

/-- The display with another resolution; all pixels are unlit then. -/
def withResolution (width height : Int) (d : Display) : Display :=
  { d with
    width, height
    window := d.window.map fun w => { w with rgb := Window.unlit width height, dirty := true } }

/-- Changes the resolution, if there is room for the bytes of so many pixels in a window. -/
def setResolution (capacity : Nat) (width height : Int) : Action Display Unit := do
  if (← get).window.isSome then checkSize capacity Window.pixelSize (width * height)
  modify (withResolution width height)

/-- The display with another title. -/
def withTitle (title : String) (d : Display) : Display := { d with title }

/-- Changes the title, if a window can show it. -/
def setTitle (title : String) : Action Display Unit := do
  if (← get).window.isSome ∧ '\x00' ∈ title.toList then throw .nullInTitle
  modify (withTitle title)

/-- Shows the pixel at `(x, y)` as lit or unlit from the next refresh on. -/
def setPixel (x y : Int) (lit : Bool) : Action Display Unit := fun d =>
  match d with
  | ⟨scale, width, height, updates, refreshes, title, none⟩ =>
    .ok () ⟨scale, width, height, updates + 1, refreshes, title, none⟩
  | ⟨scale, width, height, updates, refreshes, title, some w⟩ =>
    match Window.slot? w.rgb.size ((y * width + x) * Window.pixelSize) with
    | none => .error (.noPixel x y) ⟨scale, width, height, updates, refreshes, title, some w⟩
    | some slot =>
      .ok () ⟨scale, width, height, updates + 1, refreshes, title,
        some { w with rgb := Memory.overwrite w.rgb slot (Colour.ofLit lit).bytes, dirty := true }⟩

/-- Brings the window up to date, if there is one whose pixels have changed. -/
def refresh : Action Display Unit := fun d =>
  match d.window with
  | none => .ok () { d with refreshes := d.refreshes + 1 }
  | some w =>
    if w.dirty ∧ d.width ≠ 0 then
      if d.width < 1 ∨ d.height < 1 then .error (.emptyPicture d.width d.height) d
      else
        .ok () { d with
          refreshes := d.refreshes + 1
          window := some { w with dirty := false, shown := some ⟨w.rgb, d.width, d.height⟩ } }
    else .ok () { d with refreshes := d.refreshes + 1 }

/-- The colour that a picture, stretched over the size asked for, has at `(x, y)`: each pixel fills
a rectangle. Outside the picture the window is black. -/
def stretchedColour (d : Display) (p : Picture) (x y : Int) : Colour :=
  let (width, height) := d.windowSize
  if x < width ∧ y < height then
    p.colour (y * p.height / height * p.width + x * p.width / width).toNat
  else .black

/-- The colour at the point `(x, y)` of the window, which is black before the first picture. -/
def windowColour (x y : Int) : Action Display Colour := do
  let d ← get
  match openedSize d.windowSize with
  | .error e => throw (.window e)
  | .ok (width, height) =>
    if 0 ≤ x ∧ x < width ∧ 0 ≤ y ∧ y < height then
      return (d.window.bind Window.shown).elim .black fun p => d.stretchedColour p x y
    else throw (.noPoint x y)

variable (width height : Int) (d : Display)

@[simp] theorem width_withResolution : (d.withResolution width height).width = width := rfl

@[simp] theorem height_withResolution : (d.withResolution width height).height = height := rfl

/-- How many bytes a screen needs for each pixel, for its own cell or for the window. -/
def bytesPerPixel : Nat := if d.window.isSome then Window.pixelSize else 1

theorem one_le_bytesPerPixel : 1 ≤ d.bytesPerPixel := by
  unfold bytesPerPixel
  split <;> decide

theorem bytesPerPixel_le_pixelSize : d.bytesPerPixel ≤ Window.pixelSize := by
  unfold bytesPerPixel
  split <;> decide

@[simp] theorem bytesPerPixel_withResolution :
    (d.withResolution width height).bytesPerPixel = d.bytesPerPixel := by
  simp [bytesPerPixel, withResolution]

variable {d width height}

theorem setResolution_of_fits {capacity : Nat}
    (h : Fits capacity d.bytesPerPixel (width * height)) :
    setResolution capacity width height d = .ok () (d.withResolution width height) := by
  unfold bytesPerPixel at h
  by_cases hwindow : d.window.isSome
  · rw [if_pos hwindow] at h
    simp [setResolution, hwindow, checkSize_of_fits h]
  · simp [setResolution, hwindow]

end Display

end Chip8
