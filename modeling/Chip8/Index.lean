/-!
# Indices that count from either end

A place among `n` is named by its index from the front, or by a negative index from the back, where
`-1` is the last one. Only the integers of sixty-four bits are indices. The ends of a run of places
are named in the same way, by any integers: `bound` moves them to where there are places.
-/

namespace Chip8

/-- The integers that can be an index or a number of places. -/
def IsIndex (n : Int) : Prop := -0x8000000000000000 ≤ n ∧ n < 0x8000000000000000

instance (n : Int) : Decidable (IsIndex n) := inferInstanceAs (Decidable (_ ∧ _))

/-- The place among `n` that an index names, if there is one. -/
def place? (n : Nat) (index : Int) : Option (Fin n) :=
  if h : 0 ≤ index ∧ index < n then some ⟨index.toNat, by omega⟩
  else if h : -n ≤ index ∧ index < 0 then some ⟨(index + n).toNat, by omega⟩
  else none

/-- Where a run of places among `n` begins or ends, if an end is named by `i`. What lies beyond the
first or the last place is moved there. -/
def bound (n : Nat) (i : Int) : Nat := min (if i < 0 then i + n else i).toNat n

theorem bound_of_mem {n : Nat} {i : Int} (h : 0 ≤ i ∧ i ≤ n) : (bound n i : Int) = i := by
  unfold bound
  rw [if_neg (by omega)]
  omega

end Chip8
