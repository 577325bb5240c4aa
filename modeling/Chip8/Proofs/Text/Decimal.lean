import Chip8.Text.Numeral

/-!
# Reading decimal text

A number is read back from its decimal text.

* `mem_toString` says which characters there are in the text of a number;
* `digits?_of_isDigit` reads a run of digits, and `magnitude?_toDigits` the digits of a number;
* `integer?_toString` reads the text of an integer.
-/

namespace Chip8.Text

variable {text : List Char} {c : Char} {n : Nat}

/-! ### The characters of a number -/

theorem toList_toString_natCast (n : Nat) : (toString (n : Int)).toList = Nat.toDigits 10 n :=
  Nat.toList_repr

theorem toList_toString_neg {a : Int} (h : a < 0) :
    (toString a).toList = '-' :: Nat.toDigits 10 a.natAbs := by
  obtain ⟨k, rfl⟩ := Int.eq_negSucc_of_lt_zero h
  show ("-" ++ Nat.repr k.succ).toList = _
  rw [String.toList_append, Nat.toList_repr]
  rfl

/-- A number is written with decimal digits, and perhaps a minus sign. -/
theorem mem_toString {a : Int} (h : c ∈ (toString a).toList) : c = '-' ∨ c.isDigit = true := by
  have hdigits : ∀ {k}, c ∈ Nat.toDigits 10 k → c.isDigit = true := fun hc =>
    Nat.isDigit_of_mem_toDigits (by decide) (by decide) hc
  by_cases ha : a < 0
  · rw [toList_toString_neg ha] at h
    rcases List.mem_cons.1 h with rfl | h
    · exact .inl rfl
    · exact .inr (hdigits h)
  · obtain ⟨k, rfl⟩ := Int.eq_ofNat_of_zero_le (Int.not_lt.1 ha)
    rw [toList_toString_natCast] at h
    exact .inr (hdigits h)

theorem toNat_of_isDigit (h : c.isDigit = true) : 48 ≤ c.toNat ∧ c.toNat ≤ 57 :=
  Char.isDigit_iff_toNat.1 h

/-! ### Plain text -/

/-- A text in ASCII is read as it stands. -/
theorem plainText?_of_ascii (h : ∀ c ∈ text, c.toNat < 0x80) : plainText? text = some text := by
  unfold plainText?
  induction text with
  | nil => rfl
  | cons c text ih =>
    obtain ⟨hc, htext⟩ := List.forall_mem_cons.1 h
    have hchar : plainChar? c = some c := if_pos hc
    rw [List.mapM_cons, hchar, ih htext]
    rfl

theorem dropWhile_isAsciiBlank (h : ∀ c ∈ text, isAsciiBlank c = false) :
    text.dropWhile isAsciiBlank = text := by
  cases text with
  | nil => rfl
  | cons c text => rw [List.dropWhile_cons_of_neg (by simp [h c])]

theorem trim_of_not_blank (h : ∀ c ∈ text, isAsciiBlank c = false) : trim text = text := by
  rw [trim, dropWhile_isAsciiBlank h,
    dropWhile_isAsciiBlank fun c hc => h c (List.mem_reverse.1 hc), List.reverse_reverse]

/-- In a text of digits and signs nothing is to be left out before it is read. -/
theorem integer?_ofList (h : ∀ c ∈ text, c = '-' ∨ c.isDigit = true) :
    integer? (String.ofList text) = signed? magnitude? text := by
  have hascii : ∀ c ∈ text, c.toNat < 0x80 := by
    intro c hc
    rcases h c hc with rfl | hdigit
    · decide
    · have := toNat_of_isDigit hdigit
      omega
  have hblank : ∀ c ∈ text, isAsciiBlank c = false := by
    intro c hc
    rcases h c hc with rfl | hdigit
    · decide
    · have := toNat_of_isDigit hdigit
      simp [isAsciiBlank]
      omega
  rw [integer?, String.toList_ofList, plainText?_of_ascii hascii, Option.bind_eq_bind,
    Option.bind_some, trim_of_not_blank hblank]

/-! ### Digits -/

theorem digitValue?_of_isDigit (h : c.isDigit = true) :
    digitValue? 10 c = some (c.toNat - '0'.toNat) := by
  have hrange := toNat_of_isDigit h
  have hzero : '0'.toNat = 48 := rfl
  have hdigit : '0' ≤ c ∧ c ≤ '9' := ⟨hrange.1, hrange.2⟩
  have hbelow : c.toNat - '0'.toNat < 10 := by omega
  unfold digitValue?
  dsimp only
  rw [if_pos hdigit, Option.filter_some, if_pos (decide_eq_true hbelow)]

/-- A run of digits is read digit by digit. -/
theorem digits?_of_isDigit (h : ∀ c ∈ text, c.isDigit = true) (hne : text ≠ []) :
    digits? 10 text = some (text.map fun c => c.toNat - '0'.toNat) := by
  fun_induction digits? 10 text with
  | case1 => exact absurd rfl hne
  | case2 c =>
    rw [digitValue?_of_isDigit (h c List.mem_cons_self)]
    rfl
  | case3 c rest =>
    -- An underscore is no digit.
    exact absurd (h '_' (by simp)) (by decide)
  | case4 c rest hrest hplain ih =>
    obtain ⟨hc, htext⟩ := List.forall_mem_cons.1 h
    rw [digitValue?_of_isDigit hc, ih htext hrest]
    rfl

/-- The digits of a number are read back, unless there are too many of them. -/
theorem magnitude?_toDigits (h : (Nat.toDigits 10 n).length ≤ maxDecimalDigits) :
    magnitude? (Nat.toDigits 10 n) = some n := by
  have hdigits : digits? 10 (Nat.toDigits 10 n) =
      some ((Nat.toDigits 10 n).map fun c => c.toNat - '0'.toNat) :=
    digits?_of_isDigit (fun c hc => Nat.isDigit_of_mem_toDigits (by decide) (by decide) hc)
      Nat.toDigits_ne_nil
  have hvalue : ofDigits 10 ((Nat.toDigits 10 n).map fun c => c.toNat - '0'.toNat) = n := by
    rw [ofDigits, List.foldl_map]
    exact Nat.ofDigitChars_toDigits (by decide) (by decide)
  rw [magnitude?, hdigits, Option.bind_eq_bind, Option.bind_some, List.length_map, if_pos h, hvalue]

theorem signed?_toDigits (read : List Char → Option Nat) (n : Nat) :
    signed? read (Nat.toDigits 10 n) = (read (Nat.toDigits 10 n)).map Int.ofNat := by
  have hdigits : ∀ c ∈ Nat.toDigits 10 n, c.isDigit = true := fun c hc =>
    Nat.isDigit_of_mem_toDigits (by decide) (by decide) hc
  unfold signed?
  split
  · rename_i htext
    exact absurd (hdigits '-' (by simp [htext])) (by decide)
  · rename_i htext
    exact absurd (hdigits '+' (by simp [htext])) (by decide)
  · rfl

/-- **An integer is read back from its decimal text**, unless it has too many digits. -/
theorem integer?_toString {a : Int} (h : (Nat.toDigits 10 a.natAbs).length ≤ maxDecimalDigits) :
    integer? (toString a) = some a := by
  have hread : integer? (toString a) = signed? magnitude? (toString a).toList := by
    rw [← integer?_ofList fun c hc => mem_toString hc, String.ofList_toList]
  rw [hread]
  by_cases ha : a < 0
  · rw [toList_toString_neg ha]
    rw [signed?, magnitude?_toDigits h]
    show some (-(a.natAbs : Int)) = some a
    rw [Int.ofNat_natAbs_of_nonpos (Int.le_of_lt ha), Int.neg_neg]
  · obtain ⟨k, rfl⟩ := Int.eq_ofNat_of_zero_le (Int.not_lt.1 ha)
    rw [Int.natAbs_natCast] at h
    rw [toList_toString_natCast, signed?_toDigits, magnitude?_toDigits h]
    rfl

end Chip8.Text
