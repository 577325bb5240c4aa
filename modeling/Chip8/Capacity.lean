import Chip8.Action
import Chip8.Index

/-!
# Capacity

How large a store may be. Sizes are integers, and a store of negative size is allowed: it has no
places. A size that is not even an index is refused, and so is one for which there is no room. How
much room there is depends on the host, so whatever makes a store is told its capacity in bytes.
-/

namespace Chip8

/-- A store of `count` items of `unit` bytes can be made within the capacity. -/
def Fits (capacity unit : Nat) (count : Int) : Prop := IsIndex count ∧ unit * count ≤ capacity

instance (capacity unit : Nat) (count : Int) : Decidable (Fits capacity unit count) :=
  inferInstanceAs (Decidable (_ ∧ _))

/-- Refuses a number of items for which no store can be made. -/
def checkSize {σ : Type} (capacity unit : Nat) (count : Int) : Action σ Unit :=
  if Fits capacity unit count then pure ()
  else if IsIndex count then throw (.noRoom count)
  else throw (.notAnIndex count)

variable {capacity unit : Nat} {count : Int}

theorem checkSize_of_fits {σ : Type} (h : Fits capacity unit count) (s : σ) :
    checkSize capacity unit count s = .ok () s := by
  simp [checkSize, h]

theorem checkSize_of_not_fits {σ : Type} (h : ¬ Fits capacity unit count) (s : σ) :
    ∃ e, checkSize capacity unit count s = .error e s := by
  by_cases hindex : IsIndex count <;> simp [checkSize, h, hindex]

/-- Where there is room for some items, there is room for as many smaller ones. -/
theorem Fits.of_unit_le {smaller : Nat} (h : Fits capacity unit count) (hle : smaller ≤ unit) :
    Fits capacity smaller count := by
  refine ⟨h.1, ?_⟩
  by_cases hcount : 0 ≤ count
  · exact Int.le_trans (Int.mul_le_mul_of_nonneg_right (Int.ofNat_le.2 hle) hcount) h.2
  · have hneg : (smaller : Int) * count ≤ 0 :=
      Int.mul_nonpos_of_nonneg_of_nonpos (Int.natCast_nonneg smaller) (by omega)
    omega

/-- A larger capacity has room for all that a smaller one has. -/
theorem Fits.of_capacity_le {larger : Nat} (h : Fits capacity unit count)
    (hle : capacity ≤ larger) : Fits larger unit count :=
  ⟨h.1, Int.le_trans h.2 (Int.ofNat_le.2 hle)⟩

end Chip8
