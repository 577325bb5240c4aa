import Chip8.Text.Hex
import Mathlib.Tactic.IntervalCases

/-!
# Reading hexadecimal text

What the digits that are written for a number tell of it.

* `hexValue` is the number that digits spell, and `hexValue_hex` says that a number is read back
  from its text;
* `length_hex` says how long the text of a number is that has no more digits than are asked for;
* `mem_hex` says which characters there are in the text;
* `hex_injective` and `hexBytes_injective` say that numbers and runs of bytes are told apart by their
  texts.
-/

namespace Chip8.Text

/-- The number that a hexadecimal digit stands for. -/
def digitValue (c : Char) : Nat := if c.isDigit then c.toNat - 48 else c.toNat - 87

/-- The number that hexadecimal digits spell, the highest first. -/
def hexValue (digits : List Char) : Nat := digits.foldl (fun n c => 16 * n + digitValue c) 0

/-- The digits that numbers are written with. -/
def hexDigits : List Char := "0123456789abcdef".toList

theorem digitValue_digitChar {d : Nat} (h : d < 16) : digitValue d.digitChar = d := by
  interval_cases d <;> rfl

theorem digitChar_mem_hexDigits {d : Nat} (h : d < 16) : d.digitChar ∈ hexDigits := by
  interval_cases d <;> decide

theorem hexValue_concat (digits : List Char) (c : Char) :
    hexValue (digits ++ [c]) = 16 * hexValue digits + digitValue c := by
  simp [hexValue]

/-- A number is read back from its digits. -/
theorem hexValue_toDigits (n : Nat) : hexValue (Nat.toDigits 16 n) = n := by
  induction n using Nat.strongRecOn with
  | ind n ih =>
    by_cases h : n < 16
    · rw [Nat.toDigits_of_lt_base h]
      show 16 * 0 + digitValue n.digitChar = n
      rw [digitValue_digitChar h, Nat.zero_add]
    · rw [Nat.toDigits_of_base_le (by decide) (by omega), hexValue_concat, ih (n / 16) (by omega),
        digitValue_digitChar (by omega)]
      omega

/-- Zeros in front do not count. -/
theorem hexValue_leftpad (width : Nat) (digits : List Char) :
    hexValue (digits.leftpad width '0') = hexValue digits := by
  unfold List.leftpad
  induction width - digits.length with
  | zero => rfl
  | succ k ih =>
    rw [List.replicate_succ, List.cons_append]
    exact ih

theorem toList_hex (width n : Nat) :
    (hex width n).toList = List.leftpad width '0' (Nat.toDigits 16 n) := by
  rw [hex_natCast, String.toList_ofList]

@[simp] theorem hexValue_hex (width n : Nat) : hexValue (hex width n).toList = n := by
  rw [toList_hex, hexValue_leftpad, hexValue_toDigits]

/-- A number that fits is written in just the digits asked for. -/
theorem length_hex {width n : Nat} (hw : 0 < width) (h : n < 16 ^ width) :
    (hex width n).toList.length = width := by
  rw [toList_hex, List.length_leftpad]
  exact Nat.max_eq_left ((Nat.length_toDigits_le_iff (by decide) hw).2 h)

theorem mem_toDigits {n : Nat} {c : Char} (h : c ∈ Nat.toDigits 16 n) : c ∈ hexDigits := by
  induction n using Nat.strongRecOn with
  | ind n ih =>
    by_cases hn : n < 16
    · rw [Nat.toDigits_of_lt_base hn, List.mem_singleton] at h
      exact h ▸ digitChar_mem_hexDigits hn
    · rw [Nat.toDigits_of_base_le (by decide) (by omega), List.mem_append,
        List.mem_singleton] at h
      rcases h with h | rfl
      · exact ih (n / 16) (by omega) h
      · exact digitChar_mem_hexDigits (by omega)

theorem mem_leftpad {width : Nat} {digits : List Char} {c : Char}
    (h : c ∈ digits.leftpad width '0') : c = '0' ∨ c ∈ digits := by
  rcases List.mem_append.1 h with h | h
  · exact .inl (List.eq_of_mem_replicate h)
  · exact .inr h

/-- A number is written with digits, and perhaps a minus sign. -/
theorem mem_hex {width : Nat} {n : Int} {c : Char} (h : c ∈ (hex width n).toList) :
    c = '-' ∨ c ∈ hexDigits := by
  have hdigits : ∀ {w k}, c ∈ (Nat.toDigits 16 k).leftpad w '0' → c ∈ hexDigits := by
    intro w k hc
    rcases mem_leftpad hc with rfl | hc
    · decide
    · exact mem_toDigits hc
  unfold hex at h
  split_ifs at h
  · rw [String.toList_ofList] at h
    rcases List.mem_cons.1 h with rfl | h
    · exact .inl rfl
    · exact .inr (hdigits h)
  · rw [String.toList_ofList] at h
    exact .inr (hdigits h)

/-! ### Telling texts apart -/

/-- Just the text of a negative number has a minus sign. -/
theorem minus_mem_hex_iff {width : Nat} {n : Int} : '-' ∈ (hex width n).toList ↔ n < 0 := by
  constructor
  · intro h
    by_contra hn
    obtain ⟨k, rfl⟩ := Int.eq_ofNat_of_zero_le (Int.not_lt.1 hn)
    rw [toList_hex] at h
    rcases mem_leftpad h with h | h
    · cases h
    · exact absurd (mem_toDigits h) (by decide)
  · intro hn
    rw [hex_neg width hn, String.toList_ofList]
    exact List.mem_cons_self

/-- The text of a number tells its sign and its digits. -/
theorem hex_injective (width : Nat) : Function.Injective (hex width) := by
  intro a b h
  have hminus : '-' ∈ (hex width a).toList ↔ '-' ∈ (hex width b).toList := by rw [h]
  have hsign : a < 0 ↔ b < 0 := minus_mem_hex_iff.symm.trans (hminus.trans minus_mem_hex_iff)
  by_cases ha : a < 0
  · have hvalue : ∀ {n : Int}, n < 0 → hexValue (hex width n).toList.tail = n.natAbs := by
      intro n hn
      rw [hex_neg width hn, String.toList_ofList, List.tail_cons, hexValue_leftpad,
        hexValue_toDigits]
    have habs : a.natAbs = b.natAbs := by
      rw [← hvalue ha, h, hvalue (hsign.1 ha)]
    have hb := hsign.1 ha
    omega
  · obtain ⟨j, rfl⟩ := Int.eq_ofNat_of_zero_le (Int.not_lt.1 ha)
    obtain ⟨k, rfl⟩ := Int.eq_ofNat_of_zero_le (Int.not_lt.1 (mt hsign.2 ha))
    have hvalue := congrArg (fun s : String => hexValue s.toList) h
    simp only [hexValue_hex] at hvalue
    rw [hvalue]

theorem length_hexByte (b : UInt8) : (hexByte b).toList.length = 2 :=
  length_hex (by decide) b.toNat_lt

theorem toList_hexBytes (bytes : List UInt8) :
    (hexBytes bytes).toList = bytes.flatMap fun b => (hexByte b).toList := by
  rw [hexBytes, String.toList_join, List.flatMap_map]

theorem length_hexBytes (bytes : List UInt8) :
    (hexBytes bytes).toList.length = 2 * bytes.length := by
  rw [toList_hexBytes]
  induction bytes with
  | nil => rfl
  | cons b bytes ih =>
    rw [List.flatMap_cons, List.length_append, length_hexByte, ih, List.length_cons]
    omega

/-- Bytes are told apart by their texts, as each of them has two digits. -/
theorem hexBytes_injective : Function.Injective hexBytes := by
  intro bytes bytes' h
  have hlength : bytes.length = bytes'.length := by
    have htexts := congrArg (fun s : String => s.toList.length) h
    simp only [length_hexBytes] at htexts
    omega
  have hlist := congrArg String.toList h
  rw [toList_hexBytes, toList_hexBytes] at hlist
  clear h
  induction bytes generalizing bytes' with
  | nil => exact (List.eq_nil_of_length_eq_zero hlength.symm).symm
  | cons b bytes ih =>
    obtain ⟨b', bytes', rfl⟩ := List.exists_cons_of_length_eq_add_one hlength.symm
    rw [List.flatMap_cons, List.flatMap_cons] at hlist
    obtain ⟨hb, hbytes⟩ := List.append_inj hlist ((length_hexByte b).trans (length_hexByte b').symm)
    have hvalue : (b.toNat : Int) = b'.toNat := hex_injective 2 (String.toList_inj.1 hb)
    rw [UInt8.toNat_inj.1 (Int.ofNat_inj.1 hvalue), ih (Nat.succ.inj hlength) hbytes]

end Chip8.Text
