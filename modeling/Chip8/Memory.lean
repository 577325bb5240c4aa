import Chip8.Capacity

/-!
# Memory

A bank of bytes whose every access is checked. A block outside the bank is refused rather than
wrapped, and the bottom of the bank can be protected against writes.

* `Memory.readBlock`, `Memory.writeBlock` and their one-byte cases `read` and `write`;
* `Memory.loadImage` places a program, with checks of its own;
* `Memory.zeroBlock`, `Memory.clear`, `Memory.resize`, `Memory.protect`.

Addresses and sizes are integers, because the checks themselves are on integers: a negative address
is refused, and a bank of negative size has no bytes. The equations at the end give the operations
on blocks as their conditions, their results and the errors otherwise.
-/

namespace Chip8

/-- A bank of bytes. Everything up to `protectedTop` is protected; `-1` protects nothing. -/
structure Memory where
  cells : Array UInt8
  size : Int
  protectedTop : Int
  deriving DecidableEq, Inhabited

namespace Memory

/-- A bank of the given size, all zero and unprotected. -/
def blank (size : Int) : Memory := ⟨Array.replicate size.toNat 0, size, -1⟩

/-- The highest address. -/
def top (m : Memory) : Int := m.size - 1

/-- `block` written into `cells` from `location` on; what lies beyond the end is dropped. -/
def overwrite (cells : Array UInt8) (location : Nat) : List UInt8 → Array UInt8
  | [] => cells
  | b :: block => overwrite (cells.setIfInBounds location b) (location + 1) block

/-- The cells from `first` up to `last`, without `last`. A negative `last` counts from the end, and
nothing lies between ends in the wrong order. -/
def slice (cells : Array UInt8) (first last : Int) : List UInt8 :=
  let last := if last < 0 then last + cells.size else last
  (cells.extract first.toNat last.toNat).toList

/-- A block of `size` bytes from `location` on does not leave the bank. -/
def InRange (m : Memory) (location size : Int) : Prop :=
  0 ≤ location ∧ location + size - 1 ≤ m.top

instance (m : Memory) (location size : Int) : Decidable (m.InRange location size) :=
  inferInstanceAs (Decidable (_ ∧ _))

/-- A block may be written: it is in range and does not begin in the protected part. -/
def Writable (m : Memory) (location size : Int) : Prop :=
  m.InRange location size ∧ m.protectedTop < location

instance (m : Memory) (location size : Int) : Decidable (m.Writable location size) :=
  inferInstanceAs (Decidable (_ ∧ _))

/-- Replaces the bank by a blank one, if there can be one of this size. -/
def resize (capacity : Nat) (size : Int) : Action Memory Unit := do
  checkSize capacity 1 size
  set (blank size)

/-- Protects the first `size` bytes against writes. -/
def protect (size : Int) : Action Memory Unit :=
  modify fun m => { m with protectedTop := size - 1 }

/-- Refuses a block that is not in range. -/
def checkRange (location size : Int) : Action Memory Unit := do
  unless (← get).InRange location size do
    Action.fault (.outOfRange location (location + size - 1))

/-- Refuses a block that is not in range or begins in the protected part. -/
def checkWritable (location size : Int) : Action Memory Unit := do
  checkRange location size
  if location ≤ (← get).protectedTop then Action.fault (.readOnly location)

/-- The `size` bytes from `location` on. -/
def readBlock (location size : Int) : Action Memory (List UInt8) := do
  checkRange location size
  return slice (← get).cells location (location + size)

/-- The byte at `location`. -/
def read (location : Int) : Action Memory UInt8 := do
  checkRange location 1
  return (← get).cells.getD location.toNat 0

/-- Writes `block` from `location` on. -/
def writeBlock (location : Int) (block : List UInt8) : Action Memory Unit := do
  checkWritable location block.length
  modify fun m => { m with cells := overwrite m.cells location.toNat block }

/-- Writes one byte, given as an integer, to `location`. -/
def write (location value : Int) : Action Memory Unit := do
  checkWritable location 1
  if 0 ≤ value ∧ value < 256 then
    modify fun m =>
      { m with cells := m.cells.setIfInBounds location.toNat (UInt8.ofNat value.toNat) }
  else
    throw (.notAByte value)

/-- Places a program in memory from `location` on. -/
def loadImage (location : Int) (image : List UInt8) : Action Memory Unit := do
  let m ← get
  if location < 0 ∨ m.top < location then throw (.load (.outside location))
  if location ≤ m.protectedTop then throw (.load (.reserved location))
  if m.size < location + image.length then
    throw (.load (.tooLarge image.length (m.size - location) location))
  modify fun m => { m with cells := overwrite m.cells location.toNat image }

/-- Sets the `size` bytes from `location` on to zero, protected ones too. -/
def zeroBlock (location size : Int) : Action Memory Unit := do
  checkRange location size
  modify fun m =>
    { m with cells := overwrite m.cells location.toNat (List.replicate size.toNat 0) }

/-- Sets all bytes to zero. -/
def clear : Action Memory Unit := do zeroBlock 0 (← get).size

/-! ### What each operation does -/

variable (m : Memory) (location size : Int)

@[simp] theorem cells_blank : (blank size).cells = Array.replicate size.toNat 0 := rfl

@[simp] theorem size_blank : (blank size).size = size := rfl

@[simp] theorem protectedTop_blank : (blank size).protectedTop = -1 := rfl

@[simp] theorem size_overwrite (cells : Array UInt8) (location : Nat) (block : List UInt8) :
    (overwrite cells location block).size = cells.size := by
  induction block generalizing cells location with
  | nil => rfl
  | cons b block ih => rw [overwrite, ih, Array.size_setIfInBounds]

theorem resize_of_fits {capacity : Nat} {size : Int} (h : Fits capacity 1 size) :
    resize capacity size m = .ok () (blank size) := by
  simp [resize, checkSize_of_fits h]

theorem checkRange_apply :
    checkRange location size m =
      if m.InRange location size then .ok () m
      else .error (.fault (.ofCause (.outOfRange location (location + size - 1)))) m := by
  by_cases h : m.InRange location size <;> simp [checkRange, h]

theorem checkWritable_apply :
    checkWritable location size m =
      if m.InRange location size then
        if m.protectedTop < location then .ok () m
        else .error (.fault (.ofCause (.readOnly location))) m
      else .error (.fault (.ofCause (.outOfRange location (location + size - 1)))) m := by
  by_cases h : m.InRange location size <;> by_cases h' : m.protectedTop < location <;>
    simp [checkWritable, checkRange_apply, h, h', Int.not_le.mpr, Int.not_lt.mp]

theorem readBlock_apply :
    readBlock location size m =
      if m.InRange location size then .ok (slice m.cells location (location + size)) m
      else .error (.fault (.ofCause (.outOfRange location (location + size - 1)))) m := by
  by_cases h : m.InRange location size <;> simp [readBlock, checkRange_apply, h]

theorem writeBlock_apply (block : List UInt8) :
    writeBlock location block m =
      if m.InRange location block.length then
        if m.protectedTop < location then
          .ok () { m with cells := overwrite m.cells location.toNat block }
        else .error (.fault (.ofCause (.readOnly location))) m
      else
        .error (.fault (.ofCause (.outOfRange location (location + block.length - 1)))) m := by
  by_cases h : m.InRange location block.length <;> by_cases h' : m.protectedTop < location <;>
    simp [writeBlock, checkWritable_apply, h, h']

theorem zeroBlock_apply :
    zeroBlock location size m =
      if m.InRange location size then
        .ok () { m with
          cells := overwrite m.cells location.toNat (List.replicate size.toNat 0) }
      else .error (.fault (.ofCause (.outOfRange location (location + size - 1)))) m := by
  by_cases h : m.InRange location size <;> simp [zeroBlock, checkRange_apply, h]

end Memory

end Chip8
