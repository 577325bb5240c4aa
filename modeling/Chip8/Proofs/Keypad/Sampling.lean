import Mathlib.Data.Finset.Max
import Mathlib.Order.Fin.Basic
import Chip8.Keypad

/-!
# Sampling the keypad

* `Keypad.sample_eq_some_iff` says that the key found is the lowest of those held, and
  `Keypad.sample_eq_none_iff` that none is found if none is held;
* `Keypad.isPressed_refresh_iff` says which key counts as pressed after a sampling, and
  `Keypad.refresh_refresh` that the latch changes only if the held keys do;
* `Keypad.holding` is the keypad with a given set of keys held, on which `Keypad.sample_holding`
  finds the least one of the set.
-/

namespace Chip8.Keypad

variable {pad : Keypad} {key : Key}

theorem sample_eq_none_iff : pad.sample = none ↔ ∀ key : Key, pad.held.get key = false := by
  unfold sample
  rw [List.find?_eq_none]
  exact ⟨fun h key => Bool.eq_false_iff.2 (h key (List.mem_finRange key)),
    fun h key _ => Bool.eq_false_iff.1 (h key)⟩

/-- The key found is held, and no lower one is. -/
theorem sample_eq_some_iff :
    pad.sample = some key ↔ pad.held.get key = true ∧ ∀ j < key, pad.held.get j = false := by
  unfold sample
  rw [List.find?_eq_some_iff_getElem]
  constructor
  · rintro ⟨hkey, i, hi, rfl, hbelow⟩
    refine ⟨hkey, fun j hj => ?_⟩
    rw [List.getElem_finRange] at hj
    have hfree := hbelow j hj
    rw [List.getElem_finRange, Bool.not_eq_true'] at hfree
    exact hfree
  · rintro ⟨hkey, hbelow⟩
    refine ⟨hkey, key, by simp, by simp, fun j hj => ?_⟩
    have hfree := hbelow ⟨j, by omega⟩ hj
    rw [List.getElem_finRange, Bool.not_eq_true']
    exact hfree

theorem sample_released (keymap : Keymap) : (released keymap).sample = none :=
  sample_eq_none_iff.2 fun key => Vector.getElem_replicate key.isLt

/-! ### The latch -/

theorem refresh_of_none (h : pad.sample = none) :
    pad.refresh = { pad with latch := ⟨pad.latch.key, false⟩ } := by
  simp [refresh, h]

theorem refresh_of_some (h : pad.sample = some key) :
    pad.refresh = { pad with latch := ⟨key, true⟩ } := by
  simp [refresh, h]

/-- After a sampling, the latch holds just the key that was found. -/
theorem isPressed_refresh (pad : Keypad) (key : Int) :
    pad.refresh.isPressed key = pad.sample.any fun found => (found.val : Int) == key := by
  cases h : pad.sample with
  | none =>
    rw [refresh_of_none h]
    rfl
  | some found =>
    rw [refresh_of_some h]
    rfl

/-- A key counts as pressed if it is the lowest of those held. -/
theorem isPressed_refresh_iff {code : Int} :
    pad.refresh.isPressed code = true ↔
      ∃ key : Key, pad.held.get key = true ∧ (∀ j < key, pad.held.get j = false) ∧
        (key : Int) = code := by
  rw [isPressed_refresh, Option.any_eq_true]
  constructor
  · rintro ⟨key, hkey, hcode⟩
    obtain ⟨hheld, hbelow⟩ := sample_eq_some_iff.1 hkey
    exact ⟨key, hheld, hbelow, beq_iff_eq.1 hcode⟩
  · rintro ⟨key, hheld, hbelow, hcode⟩
    exact ⟨key, sample_eq_some_iff.2 ⟨hheld, hbelow⟩, beq_iff_eq.2 hcode⟩

theorem isSome_sample_iff : pad.sample.isSome = true ↔ ∃ key : Key, pad.held.get key = true := by
  rw [← Bool.not_eq_false, Option.isSome_eq_false_iff, Option.isNone_iff_eq_none,
    sample_eq_none_iff]
  simp only [not_forall, Bool.not_eq_false]

@[simp] theorem sample_refresh (pad : Keypad) : pad.refresh.sample = pad.sample := by
  cases h : pad.sample with
  | none =>
    rw [refresh_of_none h]
    exact h
  | some key =>
    rw [refresh_of_some h]
    exact h

@[simp] theorem refresh_refresh (pad : Keypad) : pad.refresh.refresh = pad.refresh := by
  cases h : pad.sample with
  | none =>
    rw [refresh_of_none ((sample_refresh pad).trans h), refresh_of_none h]
  | some key =>
    rw [refresh_of_some ((sample_refresh pad).trans h), refresh_of_some h]

/-! ### Sets of keys -/

-- As with the registers, the places of this vector are never to be computed.
/-- The keypad with the keys of a set held, and no other. -/
@[irreducible] def holding (pad : Keypad) (keys : Finset Key) : Keypad :=
  { pad with held := Vector.ofFn fun key => decide (key ∈ keys) }

theorem held_holding (pad : Keypad) (keys : Finset Key) (key : Key) :
    (pad.holding keys).held.get key = decide (key ∈ keys) := by
  unfold holding
  exact Vector.getElem_ofFn key.isLt

theorem sample_holding (pad : Keypad) {keys : Finset Key} (h : keys.Nonempty) :
    (pad.holding keys).sample = some (keys.min' h) := by
  rw [sample_eq_some_iff]
  refine ⟨?_, fun j hj => ?_⟩
  · rw [held_holding, decide_eq_true_iff]
    exact keys.min'_mem h
  · rw [held_holding, decide_eq_false_iff_not]
    exact fun hmem => absurd (keys.min'_le j hmem) (not_le.2 hj)

/-- Once keys of a set are found, nothing is left of a sampling before. -/
theorem refresh_holding_refresh (pad : Keypad) {keys : Finset Key} (h : keys.Nonempty) :
    (pad.refresh.holding keys).refresh = (pad.holding keys).refresh := by
  have hkeymap : pad.refresh.keymap = pad.keymap := by
    unfold refresh
    cases pad.sample <;> rfl
  rw [refresh_of_some (pad.refresh.sample_holding h), refresh_of_some (pad.sample_holding h)]
  unfold holding
  rw [hkeymap]

end Chip8.Keypad
