import Chip8.Memory
import Mathlib.Tactic.SplitIfs

/-!
# Blocks of memory

What reading and writing a block means for the single bytes of a bank.

* `Memory.byteAt`, `Memory.bytes` are the contents of a bank by address, `Memory.written` is a bank
  after a block is written to it;
* `Memory.bytes_written` says that a block that is written is read back, `Memory.written_bytes` that
  writing back what was read changes nothing;
* `Memory.readRefusal?`, `Memory.writeRefusal?`, `Memory.loadRefusal?` tell why an access is refused,
  if it is;
* `readBlock_eq`, `writeBlock_eq`, `loadImage_eq` put the operations on blocks in these terms.
-/

namespace Chip8.Memory

variable (m : Memory) (location : Int)

/-- The byte at an address, zero where the bank has none. -/
def byteAt (address : Int) : UInt8 := m.cells.getD address.toNat 0

/-- The `n` bytes from `location` on. -/
def bytes (n : Nat) : List UInt8 := (List.range n).map fun j : Nat => m.byteAt (location + j)

/-- The bank with `block` in it from `location` on. -/
def written (block : List UInt8) : Memory :=
  { m with cells := overwrite m.cells location.toNat block }

/-- Why `size` bytes from `location` on cannot be read, if they cannot. -/
def readRefusal? (size : Int) : Option Cause :=
  if m.InRange location size then none else some (.outOfRange location (location + size - 1))

/-- Why `size` bytes cannot be written from `location` on, if they cannot. -/
def writeRefusal? (size : Int) : Option Cause :=
  if m.InRange location size then
    if m.protectedTop < location then none else some (.readOnly location)
  else some (.outOfRange location (location + size - 1))

/-- Why an image of `size` bytes cannot be loaded from `location` on, if it cannot. -/
def loadRefusal? (size : Nat) : Option LoadError :=
  if location < 0 ∨ m.top < location then some (.outside location)
  else if location ≤ m.protectedTop then some (.reserved location)
  else if m.size < location + size then some (.tooLarge size (m.size - location) location)
  else none

@[simp] theorem length_bytes (n : Nat) : (m.bytes location n).length = n := by simp [bytes]

@[simp] theorem size_written (block : List UInt8) : (m.written location block).size = m.size := rfl

@[simp] theorem protectedTop_written (block : List UInt8) :
    (m.written location block).protectedTop = m.protectedTop := rfl

@[simp] theorem size_cells_written (block : List UInt8) :
    (m.written location block).cells.size = m.cells.size :=
  size_overwrite m.cells location.toNat block

theorem byteAt_blank (size address : Int) : (blank size).byteAt address = 0 := by
  unfold byteAt
  rw [cells_blank, Array.getD_eq_getD_getElem?, Array.getElem?_replicate]
  split_ifs <;> rfl

/-! ### Cells of a block -/

theorem getElem?_overwrite (cells : Array UInt8) (first : Nat) (block : List UInt8) (k : Nat) :
    (overwrite cells first block)[k]? =
      if first ≤ k ∧ k < first + block.length ∧ k < cells.size then block[k - first]?
      else cells[k]? := by
  induction block generalizing cells first with
  | nil =>
    rw [if_neg (by simp only [List.length_nil]; omega)]
    rfl
  | cons b block ih =>
    rw [overwrite, ih, Array.size_setIfInBounds, Array.getElem?_setIfInBounds, List.length_cons]
    by_cases hk : first = k
    · subst hk
      rw [if_neg (by omega)]
      by_cases hsize : first < cells.size
      · rw [if_pos rfl, if_pos hsize, if_pos (by omega), Nat.sub_self, List.getElem?_cons_zero]
      · rw [if_pos rfl, if_neg hsize, if_neg (by omega), Array.getElem?_eq_none (by omega)]
    · rw [if_neg hk]
      by_cases hin : first + 1 ≤ k ∧ k < first + 1 + block.length ∧ k < cells.size
      · rw [if_pos hin, if_pos (by omega), show k - first = k - (first + 1) + 1 by omega,
          List.getElem?_cons_succ]
      · rw [if_neg hin, if_neg (by omega)]

/-- Writing a block leaves all cells outside of it alone. -/
theorem getElem?_cells_written {block : List UInt8} {k : Nat} (h0 : 0 ≤ location)
    (h : ¬ (location ≤ k ∧ (k : Int) < location + block.length)) :
    (m.written location block).cells[k]? = m.cells[k]? := by
  unfold written
  rw [getElem?_overwrite, if_neg (by omega)]

/-- Writing a block puts its bytes into its cells. -/
theorem getElem?_cells_written_of_mem {block : List UInt8} {k : Nat}
    (h : location.toNat ≤ k ∧ k < location.toNat + block.length) (hsize : k < m.cells.size) :
    (m.written location block).cells[k]? = block[k - location.toNat]? := by
  unfold written
  rw [getElem?_overwrite, if_pos ⟨h.1, h.2, hsize⟩]

/-- After a block is written, the bank has its bytes, as far as there are cells for them. -/
theorem byteAt_written {block : List UInt8} {j : Nat} (h0 : 0 ≤ location) (hj : j < block.length)
    (hsize : location + j < m.cells.size) :
    (m.written location block).byteAt (location + j) = block[j] := by
  have hplace : (location + j).toNat = location.toNat + j := by omega
  unfold byteAt
  rw [Array.getD_eq_getD_getElem?, hplace,
    getElem?_cells_written_of_mem m location (by omega) (by omega), Nat.add_sub_cancel_left,
    List.getElem?_eq_getElem hj]
  rfl

/-- Away from a block that is written, the bank has the bytes that it had. -/
theorem byteAt_written_of_not_mem {block : List UInt8} {address : Int} (h0 : 0 ≤ location)
    (ha : 0 ≤ address) (h : ¬ (location ≤ address ∧ address < location + block.length)) :
    (m.written location block).byteAt address = m.byteAt address := by
  unfold byteAt
  rw [Array.getD_eq_getD_getElem?, Array.getD_eq_getD_getElem?,
    getElem?_cells_written m location h0 (by omega)]

/-- A block that is written is read back. -/
theorem bytes_written {block : List UInt8} (h0 : 0 ≤ location)
    (hsize : location + block.length ≤ m.cells.size) :
    (m.written location block).bytes location block.length = block := by
  refine List.ext_getElem (length_bytes ..) fun j hj hj' => ?_
  simp only [bytes, List.getElem_map, List.getElem_range]
  exact byteAt_written m location h0 hj' (by omega)

/-- Writing a block back where it was read changes nothing. -/
theorem written_bytes {n : Nat} (h0 : 0 ≤ location) (hsize : location + n ≤ m.cells.size) :
    m.written location (m.bytes location n) = m := by
  have hcells : (m.written location (m.bytes location n)).cells = m.cells := by
    refine Array.ext_getElem? fun k => ?_
    by_cases hk : location.toNat ≤ k ∧ k < location.toNat + n
    · have hplace : (location + (k - location.toNat : Nat)).toNat = k := by omega
      have hlt : k < m.cells.size := by omega
      rw [getElem?_cells_written_of_mem m location (by rwa [length_bytes]) hlt, bytes,
        List.getElem?_map, List.getElem?_range (by omega), Option.map_some, byteAt, hplace,
        Array.getD_eq_getD_getElem?, Array.getElem?_eq_getElem hlt]
      rfl
    · exact getElem?_cells_written m location h0 (by rw [length_bytes]; omega)
  calc m.written location (m.bytes location n)
      = { m with cells := (m.written location (m.bytes location n)).cells } := rfl
    _ = m := by rw [hcells]

theorem slice_eq {n : Nat} (hm : (m.cells.size : Int) = m.size) (h : m.InRange location n) :
    slice m.cells location (location + n) = m.bytes location n := by
  obtain ⟨h0, h1⟩ := h
  unfold top at h1
  unfold slice bytes byteAt
  rw [if_neg (by omega)]
  apply List.ext_getElem
  · simp only [Array.length_toList, Array.size_extract, List.length_map, List.length_range]
    omega
  · intro j hj hj'
    simp only [Array.length_toList, Array.size_extract] at hj
    simp only [Array.getElem_toList, Array.getElem_extract, List.getElem_map, List.getElem_range]
    rw [Array.getD_eq_getD_getElem?, show (location + j).toNat = location.toNat + j by omega,
      Array.getElem?_eq_getElem (by omega)]
    rfl

/-! ### Operations on blocks -/

theorem readRefusal?_eq_none_iff {m : Memory} {location size : Int} :
    m.readRefusal? location size = none ↔ m.InRange location size := by
  simp [readRefusal?]

theorem writeRefusal?_eq_none_iff {m : Memory} {location size : Int} :
    m.writeRefusal? location size = none ↔ m.Writable location size := by
  unfold writeRefusal? Writable
  split_ifs <;> simp_all

theorem kind_of_readRefusal? {m : Memory} {location size : Int} {c : Cause}
    (h : m.readRefusal? location size = some c) : c.kind = .addressOutOfRange := by
  unfold readRefusal? at h
  split_ifs at h
  cases h
  rfl

theorem kind_of_writeRefusal? {m : Memory} {location size : Int} {c : Cause}
    (h : m.writeRefusal? location size = some c) : c.kind = .addressOutOfRange := by
  unfold writeRefusal? at h
  split_ifs at h <;> cases h <;> rfl

theorem readBlock_eq (hm : (m.cells.size : Int) = m.size) (n : Nat) :
    readBlock location n m = match m.readRefusal? location n with
      | none => .ok (m.bytes location n) m
      | some c => .error (.fault (.ofCause c)) m := by
  rw [readBlock_apply]
  unfold readRefusal?
  split_ifs with h
  · rw [slice_eq m location hm h]
  · rfl

theorem writeBlock_eq (block : List UInt8) :
    writeBlock location block m = match m.writeRefusal? location block.length with
      | none => .ok () (m.written location block)
      | some c => .error (.fault (.ofCause c)) m := by
  rw [writeBlock_apply]
  unfold writeRefusal?
  split_ifs <;> rfl

theorem loadImage_eq (image : List UInt8) :
    loadImage location image m = match m.loadRefusal? location image.length with
      | none => .ok () (m.written location image)
      | some e => .error (.load e) m := by
  simp only [loadImage, Action.bind_apply, Action.get_apply]
  unfold loadRefusal?
  split_ifs <;> rfl

theorem loadRefusal?_eq_none_iff {m : Memory} {location : Int} {size : Nat} :
    m.loadRefusal? location size = none ↔
      (0 ≤ location ∧ location ≤ m.top) ∧ m.protectedTop < location ∧
        location + size ≤ m.size := by
  unfold loadRefusal?
  split_ifs <;> simp <;> omega

/-- A bank that is cleared holds what a new one of its size holds. -/
theorem clear_eq (hm : (m.cells.size : Int) = m.size) :
    clear m = .ok () { blank m.size with protectedTop := m.protectedTop } := by
  have hrange : m.InRange 0 m.size := by
    unfold InRange top
    omega
  have hcells : overwrite m.cells 0 (List.replicate m.size.toNat 0) =
      Array.replicate m.size.toNat 0 := by
    apply Array.ext_getElem?
    intro k
    rw [getElem?_overwrite, List.length_replicate, Array.getElem?_replicate]
    by_cases hk : k < m.size.toNat
    · rw [if_pos (by omega), if_pos hk, List.getElem?_replicate, if_pos (by omega)]
    · rw [if_neg (by omega), if_neg hk, Array.getElem?_eq_none (by omega)]
  simp [clear, zeroBlock_apply, hrange, hcells, blank]

end Chip8.Memory
