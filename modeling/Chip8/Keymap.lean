import Chip8.Error
import Chip8.Text.Numeral

/-!
# Keymaps

Which key of the host stands for which of the sixteen hexadecimal keys. A keymap is written as
sixteen distinct integers separated by commas, the host's codes for the keys `0` to `F` in order.

* `Keymap.key?` looks a host code up;
* `Keymap.parse` reads a keymap; of several things wrong it names a wrong count first, and then
  the first field from the left that is no integer or repeats an earlier one.
-/

namespace Chip8

/-- A key of the hexadecimal keypad. -/
abbrev Key := Fin 16

/-- The host codes of the keys `0` to `F`, all different. -/
structure Keymap where
  codes : List Int
  length_codes : codes.length = 16
  nodup_codes : codes.Nodup
  deriving DecidableEq

namespace Keymap

/-- The key that a host code stands for. -/
def key? (k : Keymap) (code : Int) : Option Key :=
  (k.codes.finIdxOf? code).map (Fin.cast k.length_codes)

/-- Reads the fields of a keymap from the left; `seen` holds the codes read before. -/
def readCodes (seen : List Int) : (fields : List (List Char)) → Except KeymapError (List Int)
  | [] => .ok []
  | field :: fields =>
    match Text.integer? (String.ofList field) with
    | none => .error .notAnInteger
    | some code =>
      if code ∈ seen then .error .duplicate
      else
        match readCodes (code :: seen) fields with
        | .error e => .error e
        | .ok codes => .ok (code :: codes)

/-- The codes that are read are as many as the fields, all different, and new. -/
theorem readCodes_ok {seen : List Int} {fields : List (List Char)} {codes : List Int}
    (h : readCodes seen fields = .ok codes) :
    codes.length = fields.length ∧ codes.Nodup ∧ ∀ c ∈ codes, c ∉ seen := by
  induction fields generalizing seen codes with
  | nil => cases h; exact ⟨rfl, .nil, nofun⟩
  | cons field fields ih =>
    rw [readCodes] at h
    split at h
    · cases h
    · rename_i code _
      split at h
      · cases h
      · rename_i hseen
        split at h
        · cases h
        · rename_i rest hrest
          cases h
          obtain ⟨hlength, hnodup, hnew⟩ := ih hrest
          refine ⟨by rw [List.length_cons, List.length_cons, hlength], ?_, ?_⟩
          · exact List.nodup_cons.mpr ⟨fun hc => hnew code hc (List.mem_cons_self ..), hnodup⟩
          · intro c hc hs
            rcases List.mem_cons.mp hc with rfl | hc
            · exact hseen hs
            · exact hnew c hc (List.mem_cons_of_mem _ hs)

/-- Reads a keymap. -/
def parse (text : String) : Except KeymapError Keymap :=
  let fields := text.toList.splitOn ','
  if h : fields.length = 16 then
    match hcodes : readCodes [] fields with
    | .error e => .error e
    | .ok codes =>
      .ok ⟨codes, (readCodes_ok hcodes).1.trans h, (readCodes_ok hcodes).2.1⟩
  else .error .wrongCount

/-- The keymap that is used when none is asked for, in the form that `parse` reads: a keypad laid
out on the left of a keyboard. -/
def defaultText : String := "120,49,50,51,113,119,101,97,115,100,122,99,52,114,102,118"

end Keymap

end Chip8
