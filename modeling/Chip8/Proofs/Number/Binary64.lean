import Mathlib.Data.Rat.Floor
import Mathlib.Tactic.FieldSimp
import Mathlib.Tactic.NormNum
import Chip8.Number.Binary64

/-!
# Integers as doubles

* `binary64_of_lastPlace` says that a number with no more than the places of a double is one;
* `binary64_natCast` says that the whole numbers up to `2 ^ 53` are doubles. The next one is not.
-/

namespace Chip8.Number

theorem roundHalfEven_intCast (z : Int) : roundHalfEven (z : Rat) = z := by
  unfold roundHalfEven
  simp

theorem powerOfTwo_natCast (k : Nat) : powerOfTwo k = 2 ^ k := by
  rw [powerOfTwo, if_pos (Int.natCast_nonneg k), Int.toNat_natCast]
  exact Nat.cast_pow 2 k

theorem powerOfTwo_neg_natCast (k : Nat) : powerOfTwo (-k) * 2 ^ k = 1 := by
  obtain rfl | hk := Nat.eq_zero_or_pos k
  · rw [Nat.cast_zero, neg_zero, ← Nat.cast_zero, powerOfTwo_natCast, pow_zero, mul_one]
  · rw [powerOfTwo, if_neg (by omega), neg_neg, Int.toNat_natCast]
    have hpower : (Nat.pow 2 k : Rat) = 2 ^ k := Nat.cast_pow 2 k
    rw [hpower]
    field_simp

/-- A number is a double if it is a whole number of its own last places. -/
theorem binary64_of_lastPlace {q : Rat} {z : Int} (h : q = z * lastPlace q)
    (hplace : lastPlace q ≠ 0) : binary64 q = q := by
  have hquotient : q / lastPlace q = z := by
    rw [div_eq_iff hplace]
    exact h
  unfold binary64
  split_ifs with hzero
  · exact hzero.symm
  · rw [hquotient, roundHalfEven_intCast]
    exact h.symm

theorem exponent_natCast {n : Nat} (hn : n ≠ 0) : exponent (n : Rat) = n.log2 := by
  have hguess : (((n : Rat).num.natAbs.log2 : Int) - ((n : Rat).den.log2 : Int)) = n.log2 := by
    have hone : Nat.log2 1 = 0 := by decide
    rw [Rat.num_natCast, Rat.den_natCast, Int.natAbs_natCast, hone, Nat.cast_zero, sub_zero]
  have hpower : powerOfTwo (n.log2 : Int) * ((n : Rat).den : Rat) ≤ ((n : Rat).num.natAbs : Rat) := by
    rw [powerOfTwo_natCast, Rat.den_natCast, Rat.num_natCast, Int.natAbs_natCast, Nat.cast_one,
      mul_one]
    exact_mod_cast Nat.log2_self_le hn
  unfold exponent
  dsimp only
  rw [hguess, if_pos hpower]

/-- The whole numbers up to `2 ^ 53` are doubles. -/
theorem binary64_natCast {n : Nat} (h : n ≤ 2 ^ 53) : binary64 (n : Rat) = n := by
  obtain rfl | hn := eq_or_ne n 0
  · decide +kernel
  obtain rfl | hlt := h.eq_or_lt
  · decide +kernel
  · have hlog : n.log2 < 53 := (Nat.log2_lt hn).2 hlt
    obtain ⟨k, hk⟩ : ∃ k : Nat, (n.log2 : Int) - 52 = -k := ⟨52 - n.log2, by omega⟩
    have hplace : lastPlace (n : Rat) = powerOfTwo (-k) := by
      rw [lastPlace, exponent_natCast hn, hk, max_eq_left (by omega)]
    have hunit := powerOfTwo_neg_natCast k
    refine binary64_of_lastPlace (z := n * 2 ^ k) ?_ ?_
    · rw [hplace]
      push_cast
      rw [mul_assoc, mul_comm (2 ^ k : Rat), hunit, mul_one]
    · rw [hplace]
      exact left_ne_zero_of_mul_eq_one hunit

end Chip8.Number
