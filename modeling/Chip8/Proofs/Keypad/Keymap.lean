import Chip8.Proofs.Keypad.Events
import Chip8.Proofs.Text.Decimal

/-!
# Reading keymaps

Which texts are read as keymaps, and what is wrong with the others.

* `Keymap.numbers` are the numbers in the fields of a text, `Keymap.Flaw` is what can be wrong with
  one of them, and `Keymap.FirstFlaw` is what is wrong with the first field that has a flaw;
* `readCodes_eq_error_iff` says that the first flaw is the one that is named;
* `Keymap.render` writes codes in decimal, and `parse_render` says that they are read back;
* `parse_sixteen_numbers` says all this of every text.
-/

namespace Chip8.Keymap

variable {text : String} {found : List (Option Int)} {i p : Nat} {e e' : KeymapError}

/-- The numbers between the commas of a text; none where there is no integer. -/
def numbers (text : String) : List (Option Int) :=
  (text.toList.splitOn ',').map fun field => Text.integer? (String.ofList field)

/-- What is wrong with the field at a place: it is no integer, or that of an earlier field. -/
def Flaw (found : List (Option Int)) (i : Nat) : KeymapError → Prop
  | .notAnInteger => found[i]? = some none
  | .duplicate => ∃ code, found[i]? = some (some code) ∧ some code ∈ found.take i
  | .wrongCount => False

/-- What is wrong with the first field that has a flaw, of the fields from a place on. -/
def FirstFlaw (found : List (Option Int)) (p : Nat) (e : KeymapError) : Prop :=
  ∃ i, p ≤ i ∧ Flaw found i e ∧ ∀ j, p ≤ j → j < i → ∀ e', ¬ Flaw found j e'

/-! ### Flaws -/

theorem Flaw.lt_length (h : Flaw found i e) : i < found.length := by
  cases e with
  | wrongCount => exact h.elim
  | notAnInteger => exact (List.getElem?_eq_some_iff.1 h).1
  | duplicate =>
    obtain ⟨code, hcode, -⟩ := h
    exact (List.getElem?_eq_some_iff.1 hcode).1

theorem Flaw.unique (h : Flaw found i e) (h' : Flaw found i e') : e = e' := by
  cases e <;> cases e' <;> simp_all [Flaw]

theorem firstFlaw_iff_of_flaw (h : Flaw found p e') : FirstFlaw found p e ↔ e = e' := by
  constructor
  · rintro ⟨i, hp, hflaw, hfirst⟩
    rcases Nat.eq_or_lt_of_le hp with rfl | hp
    · exact hflaw.unique h
    · exact absurd h (hfirst p (Nat.le_refl p) hp e')
  · rintro rfl
    exact ⟨p, Nat.le_refl p, h, fun j hp hj => absurd hj (Nat.not_lt.2 hp)⟩

/-- A field without a flaw is passed over. -/
theorem firstFlaw_iff_of_not_flaw (h : ∀ e', ¬ Flaw found p e') :
    FirstFlaw found p e ↔ FirstFlaw found (p + 1) e := by
  constructor
  · rintro ⟨i, hp, hflaw, hfirst⟩
    have hne : p ≠ i := by
      rintro rfl
      exact h e hflaw
    exact ⟨i, by omega, hflaw, fun j hj => hfirst j (by omega)⟩
  · rintro ⟨i, hp, hflaw, hfirst⟩
    refine ⟨i, by omega, hflaw, fun j hj hji => ?_⟩
    rcases Nat.eq_or_lt_of_le hj with rfl | hj
    · exact h
    · exact hfirst j hj hji

/-- There is nothing wrong with an integer in the first field. -/
theorem not_flaw_of_some (code : Int) (found : List (Option Int)) (e : KeymapError) :
    ¬ Flaw (some code :: found) 0 e := by
  cases e <;> simp [Flaw]

theorem not_firstFlaw_length (found : List (Option Int)) (e : KeymapError) :
    ¬ FirstFlaw found found.length e := by
  rintro ⟨i, hp, hflaw, -⟩
  exact absurd hflaw.lt_length (Nat.not_lt.2 hp)

/-- The next field has a flaw if it is no integer, or one that was seen before. -/
theorem flaw_next_iff {seen : List Int} {number : Option Int} :
    Flaw (seen.reverse.map some ++ number :: found) seen.length e ↔
      e = .notAnInteger ∧ number = none ∨ e = .duplicate ∧ ∃ code ∈ seen, number = some code := by
  have hlength : (seen.reverse.map some).length = seen.length := by simp
  have hhere : (seen.reverse.map some ++ number :: found)[seen.length]? = some number := by
    rw [← hlength, List.getElem?_append_right (Nat.le_refl _), Nat.sub_self]
    rfl
  have hbefore : (seen.reverse.map some ++ number :: found).take seen.length =
      seen.reverse.map some := List.take_left' hlength
  cases e with
  | wrongCount => simp [Flaw]
  | notAnInteger =>
    rw [Flaw, hhere]
    simp
  | duplicate =>
    rw [Flaw, hhere, hbefore]
    simp only [Option.some.injEq, reduceCtorEq, false_and, false_or, true_and]
    constructor
    · rintro ⟨code, hcode, hseen⟩
      exact ⟨code, by simpa using hseen, hcode⟩
    · rintro ⟨code, hseen, hcode⟩
      exact ⟨code, hcode, by simpa using hseen⟩

/-! ### Reading the fields -/

/-- The fields are refused just for their first flaw; `seen` are the codes in the fields before. -/
theorem readCodes_eq_error_iff {seen : List Int} {fields : List (List Char)} :
    readCodes seen fields = .error e ↔
      FirstFlaw (seen.reverse.map some ++
        fields.map fun field => Text.integer? (String.ofList field)) seen.length e := by
  -- By induction on the fields. All the numbers together stay the same when a field is read, and
  -- its place is the number of codes that were seen before it.
  induction fields generalizing seen with
  | nil =>
    have hend : ¬ FirstFlaw (seen.reverse.map some ++ []) seen.length e := by
      have hlength : (seen.reverse.map some).length = seen.length := by simp
      rw [List.append_nil, ← hlength]
      exact not_firstFlaw_length _ e
    exact ⟨nofun, fun h => absurd h hend⟩
  | cons field fields ih =>
    rw [readCodes, List.map_cons]
    cases Text.integer? (String.ofList field) with
    | none =>
      rw [firstFlaw_iff_of_flaw (flaw_next_iff.2 (.inl ⟨rfl, rfl⟩))]
      exact ⟨fun h => (Except.error.inj h).symm, fun h => h ▸ rfl⟩
    | some code =>
      dsimp only
      by_cases hseen : code ∈ seen
      · rw [if_pos hseen, firstFlaw_iff_of_flaw (flaw_next_iff.2 (.inr ⟨rfl, code, hseen, rfl⟩))]
        exact ⟨fun h => (Except.error.inj h).symm, fun h => h ▸ rfl⟩
      · rw [if_neg hseen, firstFlaw_iff_of_not_flaw fun e' hflaw => ?_]
        · have hnext : seen.reverse.map some ++ some code ::
              fields.map (fun field => Text.integer? (String.ofList field)) =
                (code :: seen).reverse.map some ++
                  fields.map fun field => Text.integer? (String.ofList field) := by simp
          rw [hnext, ← List.length_cons, ← ih]
          cases readCodes (code :: seen) fields <;> simp
        · rcases flaw_next_iff.1 hflaw with ⟨-, h⟩ | ⟨-, code', hseen', h⟩
          · cases h
          · cases h
            exact hseen hseen'

/-! ### Reading a text -/

theorem parse_of_length_ne (h : (numbers text).length ≠ 16) : parse text = .error .wrongCount := by
  rw [numbers, List.length_map] at h
  exact dif_neg h

theorem parse_eq_error_iff (h : (numbers text).length = 16) :
    parse text = .error e ↔ FirstFlaw (numbers text) 0 e := by
  have hread : parse text = .error e ↔ readCodes [] (text.toList.splitOn ',') = .error e := by
    rw [numbers, List.length_map] at h
    unfold parse
    dsimp only
    rw [dif_pos h]
    split <;> simp_all
  rw [hread, readCodes_eq_error_iff]
  rfl

/-- Numbers without a flaw are integers, all different. -/
theorem not_firstFlaw (hnone : none ∉ found) (hnodup : found.Nodup) (e : KeymapError) :
    ¬ FirstFlaw found 0 e := by
  rintro ⟨i, -, hflaw, -⟩
  cases e with
  | wrongCount => exact hflaw
  | notAnInteger => exact hnone (List.mem_of_getElem? hflaw)
  | duplicate =>
    obtain ⟨code, hcode, hmem⟩ := hflaw
    obtain ⟨j, hj, hearlier⟩ := List.mem_take_iff_getElem.1 hmem
    obtain ⟨hi, hcode⟩ := List.getElem?_eq_some_iff.1 hcode
    have hplaces : j = i := hnodup.getElem_inj_iff.1 (hearlier.trans hcode.symm)
    omega

theorem numbers_eq_of_parse {keymap : Keymap} (h : parse text = .ok keymap) :
    numbers text = keymap.codes.map some :=
  codes_of_parse h

/-- A text is read just if it has sixteen fields, all of them integers and all different. -/
theorem exists_parse_iff :
    (∃ keymap, parse text = .ok keymap) ↔
      (numbers text).length = 16 ∧ none ∉ numbers text ∧ (numbers text).Nodup := by
  constructor
  · rintro ⟨keymap, hkeymap⟩
    rw [numbers_eq_of_parse hkeymap]
    refine ⟨(List.length_map some).trans keymap.length_codes, by simp, ?_⟩
    exact keymap.nodup_codes.map (Option.some_injective Int)
  · rintro ⟨hlength, hnone, hnodup⟩
    cases h : parse text with
    | ok keymap => exact ⟨keymap, rfl⟩
    | error e => exact absurd ((parse_eq_error_iff hlength).1 h) (not_firstFlaw hnone hnodup e)

/-! ### Writing a keymap -/

/-- Codes in decimal, with commas between them. -/
def render (codes : List Int) : String := ",".intercalate (codes.map toString)

theorem numbers_render {codes : List Int} (hne : codes ≠ [])
    (hdigits : ∀ c ∈ codes, (Nat.toDigits 10 c.natAbs).length ≤ 4300) :
    numbers (render codes) = codes.map some := by
  have hsplit : (render codes).toList.splitOn ',' = codes.map fun c => (toString c).toList := by
    rw [render, String.toList_intercalate, List.map_map]
    refine List.splitOn_intercalate ',' (fun field hfield hcomma => ?_) (by simpa using hne)
    obtain ⟨c, -, rfl⟩ := List.mem_map.1 hfield
    rcases Text.mem_toString hcomma with h | h <;> cases h
  rw [numbers, hsplit, List.map_map]
  refine List.map_congr_left fun c hc => ?_
  rw [Function.comp_apply, String.ofList_toList]
  exact Text.integer?_toString (hdigits c hc)

/-- Codes are read back from what is written for them. -/
theorem parse_render {codes : List Int} (hlength : codes.length = 16) (hnodup : codes.Nodup)
    (hdigits : ∀ c ∈ codes, (Nat.toDigits 10 c.natAbs).length ≤ 4300) :
    parse (render codes) = .ok ⟨codes, hlength, hnodup⟩ := by
  have hne : codes ≠ [] := by
    rintro rfl
    cases hlength
  have hnumbers := numbers_render hne hdigits
  have hread : ∃ keymap, parse (render codes) = .ok keymap := by
    rw [exists_parse_iff, hnumbers]
    exact ⟨(List.length_map some).trans hlength, by simp, hnodup.map (Option.some_injective Int)⟩
  obtain ⟨keymap, hkeymap⟩ := hread
  have hcodes : keymap.codes = codes :=
    (Option.some_injective Int).list_map ((numbers_eq_of_parse hkeymap).symm.trans hnumbers)
  rw [hkeymap]
  cases keymap
  subst hcodes
  rfl

/-! ### All texts -/

/-- **A keymap is sixteen different integers with commas between them.** Just those texts are read,
and each key stands for the integer in its field. Of other texts, a wrong number of fields is named
first; if there are sixteen, what is named is the first from the left that is no integer, or that of
an earlier field. Any sixteen different integers that are written in decimal are read back. -/
theorem parse_sixteen_numbers (text : String) :
    ((∃ keymap, parse text = .ok keymap) ↔
        (numbers text).length = 16 ∧ none ∉ numbers text ∧ (numbers text).Nodup) ∧
      (∀ keymap, parse text = .ok keymap → ∀ (code : Int) (key : Key),
        keymap.key? code = some key ↔ (numbers text)[(key : Nat)]? = some (some code)) ∧
      ((numbers text).length ≠ 16 → parse text = .error .wrongCount) ∧
      ((numbers text).length = 16 → ∀ e, parse text = .error e ↔ FirstFlaw (numbers text) 0 e) ∧
      ∀ (codes : List Int) (hlength : codes.length = 16) (hnodup : codes.Nodup),
        (∀ c ∈ codes, (Nat.toDigits 10 c.natAbs).length ≤ 4300) →
          parse (render codes) = .ok ⟨codes, hlength, hnodup⟩ := by
  refine ⟨exists_parse_iff, fun keymap h code key => ?_, parse_of_length_ne,
    fun hlength e => parse_eq_error_iff hlength, fun codes => parse_render⟩
  rw [key?_eq_some_iff, numbers_eq_of_parse h, List.getElem?_map, Option.map_eq_some_iff]
  simp

/-- Codes are told apart by their values. Of a repeated code and a field that is no integer, the one
on the left is named. -/
theorem parse_sixteen_numbers_of_repeated :
    parse "7, +07,x,3,4,5,6,0,8,9,10,11,12,13,14,15" = .error .duplicate ∧
      parse "7,x, +07,3,4,5,6,0,8,9,10,11,12,13,14,15" = .error .notAnInteger ∧
      parse "7,7,x" = .error .wrongCount ∧
      ∃ codes : List Int, ∃ hlength hnodup, -16 ∈ codes ∧
        parse (render codes) = .ok ⟨codes, hlength, hnodup⟩ := by
  refine ⟨?_, ?_, ?_, (List.range 16).map fun i : Nat => -(i : Int) - 1, rfl, by decide,
    by decide, ?_⟩
  · have hnumbers : numbers "7, +07,x,3,4,5,6,0,8,9,10,11,12,13,14,15" =
        some 7 :: some 7 :: none :: [3, 4, 5, 6, 0, 8, 9, 10, 11, 12, 13, 14, 15].map some := rfl
    obtain ⟨-, -, -, hflaw, -⟩ := parse_sixteen_numbers "7, +07,x,3,4,5,6,0,8,9,10,11,12,13,14,15"
    rw [hflaw rfl, hnumbers, firstFlaw_iff_of_not_flaw (not_flaw_of_some 7 _)]
    have hsecond : ∀ found, Flaw (some 7 :: some 7 :: found) 1 .duplicate := fun _ =>
      ⟨7, rfl, List.mem_cons_self⟩
    exact (firstFlaw_iff_of_flaw (hsecond _)).2 rfl
  · have hnumbers : numbers "7,x, +07,3,4,5,6,0,8,9,10,11,12,13,14,15" =
        some 7 :: none :: some 7 :: [3, 4, 5, 6, 0, 8, 9, 10, 11, 12, 13, 14, 15].map some := rfl
    obtain ⟨-, -, -, hflaw, -⟩ := parse_sixteen_numbers "7,x, +07,3,4,5,6,0,8,9,10,11,12,13,14,15"
    rw [hflaw rfl, hnumbers, firstFlaw_iff_of_not_flaw (not_flaw_of_some 7 _)]
    have hsecond : ∀ found, Flaw (some 7 :: none :: found) 1 .notAnInteger := fun _ => rfl
    exact (firstFlaw_iff_of_flaw (hsecond _)).2 rfl
  · obtain ⟨-, -, hcount, -, -⟩ := parse_sixteen_numbers "7,7,x"
    exact hcount (by decide)
  · obtain ⟨-, -, -, -, hread⟩ := parse_sixteen_numbers ""
    exact hread _ rfl (by decide) (by decide)

end Chip8.Keymap
