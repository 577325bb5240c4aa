import Chip8.Display
import Chip8.Memory

/-!
# The screen

The emulated screen holds each pixel as one byte of a memory bank, `0x00` for unlit and `0xFF` for
lit, and passes every change on to its display. Programs draw only by flipping pixels; coordinates
wrap around at the edges.

* `Screen.xorPixel` flips one pixel and tells whether it was lit;
* `Screen.drawSprite` flips the pixels under the set bits of a sprite;
* `Screen.clear`, `Screen.resize`, `Screen.getPixel`, `Screen.rgba`, `Screen.litCount`.

A size is taken over before it is known whether there can be so many pixels: when a resize fails,
the screen has its new size already, and its old cells unless the window alone is refused.
-/

namespace Chip8

/-- The text in a window's title bar. -/
def performanceTitle (fps ops : Int) : String :=
  appName ++ " - " ++ toString fps ++ " FPS, " ++ toString ops ++ " OPS"

/-- The emulated screen and the display it is drawn on. -/
structure Screen where
  width : Int
  height : Int
  cells : Memory
  display : Display
  deriving DecidableEq, Inhabited

namespace Screen

/-- Runs an operation on the screen's cells. -/
@[inline] def onCells {α : Type} : Action Memory α → Action Screen α :=
  Action.on Screen.cells fun s cells => { s with cells }

/-- Runs an operation on the screen's display. -/
@[inline] def onDisplay {α : Type} : Action Display α → Action Screen α :=
  Action.on Screen.display fun s display => { s with display }

/-- Blanks the screen and gives it another size, which the display's resolution follows. -/
def resize (capacity : Nat) (width height : Int) : Action Screen Unit := do
  modify fun s => { s with width, height }
  onCells (Memory.resize capacity (width * height))
  onDisplay (Display.setResolution capacity width height)

/-- Shows the performance figures in the display's title. -/
def reportPerformance (fps ops : Int) (s : Screen) : Screen :=
  { s with display := s.display.withTitle (performanceTitle fps ops) }

/-- A blank screen of the given size on a display. -/
def create (capacity : Nat) (display : Display) (width height : Int) : Except Error Screen :=
  match resize capacity width height ⟨0, 0, .blank 0, display⟩ with
  | .ok _ s => .ok (s.reportPerformance 0 0)
  | .error e _ => .error e

/-- Flips the pixel at `(x, y)`, wrapped around at the edges. The result tells whether the pixel
was lit before. -/
def xorPixel (x y : Int) : Action Screen Bool := do
  let s ← get
  if s.width = 0 ∨ s.height = 0 then throw .emptySide
  let x := x.fmod s.width
  let y := y.fmod s.height
  let location := y * s.width + x
  let pixel ← onCells (Memory.read location)
  onCells (Memory.write location (pixel ^^^ 0xFF).toNat)
  onDisplay (Display.setPixel x y (pixel ^^^ 0xFF != 0))
  return pixel != 0

/-- The places of the set bits of a sprite, as column and row, row by row from the left. The
highest bit of a row is the leftmost. -/
def spriteBits (rows : List UInt8) : List (Nat × Nat) :=
  (rows.zipIdx.map fun (row, r) =>
    (List.range 8).filterMap fun c => if row.toNat.testBit (7 - c) then some (c, r) else none).flatten

/-- Flips the pixels under the set bits of a sprite at `(x, y)`, and tells whether one of them was
lit when its turn came. -/
def drawSprite (x y : Int) (rows : List UInt8) : Action Screen Bool :=
  (spriteBits rows).foldlM (fun collided (c, r) => do
    let lit ← xorPixel (x + c) (y + r)
    return collided || lit) false

/-- The coordinates of the pixels of a screen, row by row. -/
def coordinates (width height : Int) : List (Nat × Nat) :=
  (List.range height.toNat).flatMap fun y => (List.range width.toNat).map fun x => (x, y)

/-- Blanks the screen, and tells the display so pixel by pixel. -/
def clear : Action Screen Unit := do
  onCells Memory.clear
  let s ← get
  (coordinates s.width s.height).forM fun (x, y) => onDisplay (Display.setPixel x y false)

/-- Whether the pixel at `(x, y)` is lit; the coordinates are not wrapped. -/
def getPixel (x y : Int) : Action Screen Bool := do
  let s ← get
  if 0 ≤ x ∧ x < s.width ∧ 0 ≤ y ∧ y < s.height then
    return (← onCells (Memory.read (y * s.width + x))) != 0
  else Action.fault (.offScreen x y s.width s.height)

/-- Four bytes for each pixel, row by row: all `0xFF` if it is lit, all zero if not. -/
def rgba (s : Screen) : List UInt8 :=
  s.cells.cells.toList.flatMap fun cell => List.replicate 4 (if cell = 0 then 0 else 0xFF)

/-- How many pixels are lit. -/
def litCount (s : Screen) : Nat := s.cells.cells.countP (· != 0)

/-- Brings the display up to date. -/
def refresh : Action Screen Unit := onDisplay Display.refresh

variable {capacity : Nat} {width height : Int}

theorem resize_of_fits {s : Screen} (h : Fits capacity s.display.bytesPerPixel (width * height)) :
    resize capacity width height s =
      .ok () ⟨width, height, .blank (width * height), s.display.withResolution width height⟩ := by
  have hcells := h.of_unit_le s.display.one_le_bytesPerPixel
  simp [resize, onCells, onDisplay, Action.on, Memory.resize_of_fits _ hcells,
    Display.setResolution_of_fits h]

theorem create_of_fits {display : Display}
    (h : Fits capacity display.bytesPerPixel (width * height)) :
    create capacity display width height =
      .ok (reportPerformance 0 0
        ⟨width, height, .blank (width * height), display.withResolution width height⟩) := by
  rw [create, resize_of_fits (s := ⟨0, 0, .blank 0, display⟩) h]

end Screen

end Chip8
