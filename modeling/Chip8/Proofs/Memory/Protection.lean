import Chip8.Proofs.Memory.Access

/-!
# Protected bytes

What becomes of the bytes at the bottom of a bank once they are protected.

* `Access.Zeroes` says which bytes an access sets to zero, whether or not they are protected;
* `Access.byteAt_after` says what one access does to a protected byte;
* `protected_bytes_kept` says that after any number of accesses a protected byte is what it was, or
  zero if one of them has set it to zero.
-/

namespace Chip8.Memory

variable {m : Memory} {location address n : Int}

/-- In a bank of `size` bytes, the byte at `address` is in a block that the access sets to zero.
The block has to be in range, but it may be protected. -/
def Access.Zeroes (size address : Int) (a : Access) : Prop :=
  match a.cleared? size with
  | none => False
  | some (location, n) =>
    (0 ≤ location ∧ location + n ≤ size) ∧ location ≤ address ∧ address < location + n

instance (size address : Int) : DecidablePred (Access.Zeroes size address) := fun a => by
  unfold Access.Zeroes
  cases a.cleared? size <;> infer_instance

theorem byteAt_written_zeros (m : Memory) (h0 : 0 ≤ location) (ha : 0 ≤ address) (n : Nat) :
    (m.written location (List.replicate n 0)).byteAt address =
      if location ≤ address ∧ address < location + n then 0 else m.byteAt address := by
  by_cases h : location ≤ address ∧ address < location + n
  · rw [if_pos h]
    by_cases hsize : address < m.cells.size
    · obtain ⟨j, rfl⟩ : ∃ j : Nat, address = location + j :=
        ⟨(address - location).toNat, by omega⟩
      have hj : j < (List.replicate n (0 : UInt8)).length := by
        rw [List.length_replicate]
        omega
      rw [byteAt_written m location h0 hj hsize, List.getElem_replicate]
    · -- There is no cell to be set, and a byte without one counts as zero.
      rw [byteAt, Array.getD_eq_getD_getElem?,
        Array.getElem?_eq_none (by rw [size_cells_written]; omega)]
      rfl
  · rw [if_neg h]
    exact byteAt_written_of_not_mem m location h0 ha (by rwa [List.length_replicate])

/-- **An access leaves a protected byte as it is, or sets it to zero.** -/
theorem Access.byteAt_after (a : Access) (h0 : 0 ≤ address) (h : address ≤ m.protectedTop) :
    (a.after m).byteAt address = if a.Zeroes m.size address then 0 else m.byteAt address := by
  unfold after
  cases hcleared : a.cleared? m.size with
  | none =>
    have hzeroes : ¬ a.Zeroes m.size address := by
      unfold Zeroes
      rw [hcleared]
      exact id
    rw [if_neg hzeroes]
    obtain ⟨e, ha⟩ | ha | ⟨location, block, hfree, hlocation, ha⟩ := action_cases hcleared
    · rw [ha]
      rfl
    · rw [ha]
      rfl
    · rw [ha]
      exact byteAt_written_of_not_mem m location hlocation h0 (by omega)
  | some block =>
    obtain ⟨location, n⟩ := block
    have hzeroes : a.Zeroes m.size address ↔
        m.InRange location n ∧ location ≤ address ∧ address < location + n := by
      unfold Zeroes
      rw [hcleared, inRange_iff]
    have ha := action_of_cleared hcleared
    cases hrefusal : m.readRefusal? location n with
    | some c =>
      rw [hrefusal] at ha
      rw [ha, if_neg]
      · rfl
      · intro hzero
        rw [readRefusal?_eq_none_iff.2 (hzeroes.1 hzero).1] at hrefusal
        cases hrefusal
    | none =>
      rw [hrefusal] at ha
      have hrange := readRefusal?_eq_none_iff.1 hrefusal
      have hplace : location ≤ address ∧ address < location + (n.toNat : Int) ↔
          a.Zeroes m.size address := by
        rw [hzeroes, and_iff_right hrange]
        omega
      rw [ha]
      refine (byteAt_written_zeros m hrange.1 h0 n.toNat).trans ?_
      simp only [hplace]

/-- What becomes of a protected byte under any number of accesses. -/
theorem byteAt_afterAll (accesses : List Access) (h0 : 0 ≤ address)
    (h : address ≤ m.protectedTop) :
    (Access.afterAll accesses m).byteAt address =
      if ∃ a ∈ accesses, a.Zeroes m.size address then 0 else m.byteAt address := by
  induction accesses generalizing m with
  | nil => simp [Access.afterAll]
  | cons a accesses ih =>
    obtain ⟨hsize, htop, -⟩ := a.size_after m
    show (Access.afterAll accesses (a.after m)).byteAt address = _
    rw [ih (htop ▸ h), hsize, a.byteAt_after h0 h]
    have hcons : (∃ b ∈ a :: accesses, b.Zeroes m.size address) ↔
        a.Zeroes m.size address ∨ ∃ b ∈ accesses, b.Zeroes m.size address := by simp
    by_cases hrest : ∃ b ∈ accesses, b.Zeroes m.size address
    · rw [if_pos hrest, if_pos (hcons.2 (.inr hrest))]
    · rw [if_neg hrest]
      simp only [hcons, hrest, or_false]

/-- **A protected byte is what it was, or zero.** Of the bytes that a bank has protected, any number
of accesses afterwards leaves each one as it was, if none of them sets a block to zero that holds
it. If one does, the byte is zero: protection keeps blocks from being written there, but not from
being cleared. -/
theorem protected_bytes_kept (m : Memory) (n : Int) (accesses : List Access) (h0 : 0 ≤ address)
    (h : address < n) :
    let m' := Action.state (protect n m)
    (Access.afterAll accesses m').byteAt address =
      if ∃ a ∈ accesses, a.Zeroes m'.size address then 0 else m'.byteAt address := by
  have htop : address ≤ (Action.state (protect n m)).protectedTop := by
    show address ≤ n - 1
    omega
  exact byteAt_afterAll accesses h0 htop

/-- A bank of five bytes, of which the first two are protected. -/
def lockedPair : Memory := ⟨#[1, 2, 3, 4, 5], 5, 1⟩

theorem protected_bytes_kept_of_second :
    (0 : Int) ≤ 0 ∧ (0 : Int) < 2 ∧
      (Access.afterAll [.write 0 9, .writeBlock 1 [7, 7], .zeroBlock 1 3, .loadImage 0 [8]]
        (Action.state (protect 2 lockedPair))).byteAt 0 = 1 ∧
      (Access.afterAll [.write 0 9, .writeBlock 1 [7, 7], .zeroBlock 1 3, .loadImage 0 [8]]
        (Action.state (protect 2 lockedPair))).byteAt 1 = 0 := by
  have hfirst := @protected_bytes_kept 0 lockedPair 2
    [.write 0 9, .writeBlock 1 [7, 7], .zeroBlock 1 3, .loadImage 0 [8]] (by decide) (by decide)
  have hsecond := @protected_bytes_kept 1 lockedPair 2
    [.write 0 9, .writeBlock 1 [7, 7], .zeroBlock 1 3, .loadImage 0 [8]] (by decide) (by decide)
  exact ⟨by decide, by decide, hfirst.trans (by decide), hsecond.trans (by decide)⟩

/-- Clearing a bank clears its protected bytes too. -/
theorem clear_ne_protected :
    ((0 : Int) ≤ 2 ∧ 2 ≤ lockedPair.size) ∧
      (Action.state (protect 2 lockedPair)).bytes 0 2 = [1, 2] ∧
      (Access.afterAll [.clear] (Action.state (protect 2 lockedPair))).bytes 0 2 = [0, 0] := by
  decide +kernel

end Chip8.Memory
