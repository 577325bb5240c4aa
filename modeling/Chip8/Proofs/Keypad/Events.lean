import Mathlib.Data.List.GetD
import Chip8.Proofs.Keypad.Sampling

/-!
# Key events

What is left of any sequence of the host's keys going down and up.

* `Keymap.key?_eq_some_iff` says that a keymap is a numbering of its codes, and
  `Keymap.codes_of_parse` that these are the numbers in the text that was read;
* `Keypad.hostKeys` applies a sequence of key events, and `KeyEvent.words` is what they say of one
  code;
* `held_hostKeys` says that the last word on its code decides whether a key is held, `hostKeys_congr`
  that nothing else matters, and `isPressed_refresh_hostKeys` that the latch does not listen;
* `last_word` puts this together for a keypad that starts with no key held.
-/

namespace Chip8

/-! ### Keymaps -/

namespace Keymap

variable {keymap : Keymap} {code : Int} {key : Key}

/-- A code stands for the key at whose place it is listed. -/
theorem key?_eq_some_iff : keymap.key? code = some key ↔ keymap.codes[(key : Nat)]? = some code := by
  have hkey : (key : Nat) < keymap.codes.length := by
    rw [keymap.length_codes]
    exact key.isLt
  have hlookup : keymap.key? code = some key ↔
      keymap.codes.finIdxOf? code = some ⟨key, hkey⟩ := by
    unfold key?
    rw [Option.map_eq_some_iff]
    constructor
    · rintro ⟨place, hplace, rfl⟩
      exact hplace
    · exact fun h => ⟨_, h, rfl⟩
  rw [hlookup, List.finIdxOf?_eq_some_iff, List.getElem?_eq_some_iff]
  constructor
  · rintro ⟨hcode, -⟩
    exact ⟨hkey, hcode⟩
  · rintro ⟨_, hcode⟩
    refine ⟨hcode, fun j hj hsame => ?_⟩
    have hplaces : (j : Nat) = key := keymap.nodup_codes.getElem_inj_iff.1 (hsame.trans hcode.symm)
    exact absurd hplaces (Nat.ne_of_lt hj)

/-- Each key has one code. -/
theorem existsUnique_code (keymap : Keymap) (key : Key) : ∃! code, keymap.key? code = some key := by
  have hkey : (key : Nat) < keymap.codes.length := by
    rw [keymap.length_codes]
    exact key.isLt
  refine ⟨keymap.codes[(key : Nat)], key?_eq_some_iff.2 (List.getElem?_eq_getElem hkey), ?_⟩
  intro code hcode
  have hlisted := key?_eq_some_iff.1 hcode
  rw [List.getElem?_eq_getElem hkey] at hlisted
  exact (Option.some.inj hlisted).symm

/-- The codes that are read are the numbers in the fields. -/
theorem map_integer?_of_readCodes {seen : List Int} {fields : List (List Char)} {codes : List Int}
    (h : readCodes seen fields = .ok codes) :
    fields.map (fun field => Text.integer? (String.ofList field)) = codes.map some := by
  induction fields generalizing seen codes with
  | nil =>
    cases h
    rfl
  | cons field fields ih =>
    rw [readCodes] at h
    split at h
    · cases h
    · rename_i code hcode
      split at h
      · cases h
      · split at h
        · cases h
        · rename_i rest hrest
          cases h
          rw [List.map_cons, List.map_cons, hcode, ih hrest]

/-- A keymap that is read numbers the integers between the commas. -/
theorem codes_of_parse {text : String} (h : parse text = .ok keymap) :
    (text.toList.splitOn ',').map (fun field => Text.integer? (String.ofList field)) =
      keymap.codes.map some := by
  unfold parse at h
  dsimp only at h
  split at h
  · split at h
    · cases h
    · rename_i codes hcodes
      cases h
      exact map_integer?_of_readCodes hcodes
  · cases h

/-- The code of a key is the integer in its field. -/
theorem key?_of_parse {text : String} (h : parse text = .ok keymap) :
    keymap.key? code = some key ↔
      ((text.toList.splitOn ',')[(key : Nat)]?.map fun field =>
        Text.integer? (String.ofList field)) = some (some code) := by
  have hfield : ((text.toList.splitOn ',')[(key : Nat)]?.map fun field =>
      Text.integer? (String.ofList field)) = keymap.codes[(key : Nat)]?.map some := by
    rw [← List.getElem?_map, ← List.getElem?_map, codes_of_parse h]
  rw [key?_eq_some_iff, hfield, Option.map_eq_some_iff]
  simp

end Keymap

/-- One of the host's keys goes down or up. -/
structure KeyEvent where
  code : Int
  down : Bool
  deriving DecidableEq

/-- What some events say of a code, one after the other: down or up. -/
def KeyEvent.words (code : Int) (events : List KeyEvent) : List Bool :=
  (events.filter fun e => e.code = code).map KeyEvent.down

theorem KeyEvent.words_cons (code : Int) (e : KeyEvent) (events : List KeyEvent) :
    KeyEvent.words code (e :: events) =
      if e.code = code then e.down :: KeyEvent.words code events else KeyEvent.words code events := by
  unfold words
  rw [List.filter_cons]
  split_ifs <;> simp_all

attribute [ext] Keypad

namespace Keypad

variable {pad : Keypad} {code : Int} {key : Key} {events later : List KeyEvent}

/-- Applies the host's events one after the other. -/
def hostKeys (pad : Keypad) (events : List KeyEvent) : Keypad :=
  events.foldl (fun pad e => pad.hostKey e.code e.down) pad

theorem hostKeys_cons (pad : Keypad) (e : KeyEvent) (events : List KeyEvent) :
    pad.hostKeys (e :: events) = (pad.hostKey e.code e.down).hostKeys events := rfl

/-! ### One event -/

@[simp] theorem keymap_hostKey (pad : Keypad) (code : Int) (down : Bool) :
    (pad.hostKey code down).keymap = pad.keymap := by
  unfold hostKey
  cases pad.keymap.key? code <;> rfl

@[simp] theorem latch_hostKey (pad : Keypad) (code : Int) (down : Bool) :
    (pad.hostKey code down).latch = pad.latch := by
  unfold hostKey
  cases pad.keymap.key? code <;> rfl

theorem hostKey_of_unmapped (h : pad.keymap.key? code = none) (down : Bool) :
    pad.hostKey code down = pad := by
  simp [hostKey, h]

/-- An event decides about the key of its code, and about no other. -/
theorem held_hostKey (h : pad.keymap.key? code = some key) (e : KeyEvent) :
    (pad.hostKey e.code e.down).held.get key =
      if e.code = code then e.down else pad.held.get key := by
  by_cases hcode : e.code = code
  · rw [if_pos hcode, hcode, hostKey, h]
    exact Vector.getElem_set_self _
  · rw [if_neg hcode, hostKey]
    cases hother : pad.keymap.key? e.code with
    | none => rfl
    | some other =>
      have hne : (other : Nat) ≠ key := by
        intro hsame
        have hkeys : other = key := Fin.ext hsame
        subst hkeys
        exact hcode ((pad.keymap.existsUnique_code other).unique hother h)
      exact Vector.getElem_set_ne other.isLt key.isLt hne

/-! ### Any number of events -/

@[simp] theorem keymap_hostKeys (pad : Keypad) (events : List KeyEvent) :
    (pad.hostKeys events).keymap = pad.keymap := by
  induction events generalizing pad with
  | nil => rfl
  | cons e events ih => rw [hostKeys_cons, ih, keymap_hostKey]

@[simp] theorem latch_hostKeys (pad : Keypad) (events : List KeyEvent) :
    (pad.hostKeys events).latch = pad.latch := by
  induction events generalizing pad with
  | nil => rfl
  | cons e events ih => rw [hostKeys_cons, ih, latch_hostKey]

/-- The last word on its code decides whether a key is held; without one, it stays as it was. -/
theorem held_hostKeys (h : pad.keymap.key? code = some key) :
    (pad.hostKeys events).held.get key =
      (KeyEvent.words code events).getLast?.getD (pad.held.get key) := by
  -- The word that is last of all is the last of the rest, unless the rest has none on this code.
  induction events generalizing pad with
  | nil => rfl
  | cons e events ih =>
    have hafter : (pad.hostKey e.code e.down).keymap.key? code = some key := by
      rwa [keymap_hostKey]
    rw [hostKeys_cons, ih hafter, held_hostKey h, KeyEvent.words_cons]
    by_cases hcode : e.code = code
    · rw [if_pos hcode, if_pos hcode, List.getLast?_cons]
      rfl
    · rw [if_neg hcode, if_neg hcode]

/-- Only the words on the codes of the keymap matter, each code's in their order. -/
theorem hostKeys_congr (h : ∀ code, pad.keymap.key? code ≠ none →
    KeyEvent.words code events = KeyEvent.words code later) :
    pad.hostKeys events = pad.hostKeys later := by
  have hheld : (pad.hostKeys events).held = (pad.hostKeys later).held := by
    refine Vector.ext fun i hi => ?_
    obtain ⟨code, hcode, -⟩ := pad.keymap.existsUnique_code ⟨i, hi⟩
    have hwords := h code (by rw [hcode]; exact Option.some_ne_none _)
    have hplaces : (pad.hostKeys events).held.get ⟨i, hi⟩ =
        (pad.hostKeys later).held.get ⟨i, hi⟩ := by
      rw [held_hostKeys hcode, held_hostKeys hcode, hwords]
    exact hplaces
  have hkeymap : (pad.hostKeys events).keymap = (pad.hostKeys later).keymap := by
    rw [keymap_hostKeys, keymap_hostKeys]
  have hlatch : (pad.hostKeys events).latch = (pad.hostKeys later).latch := by
    rw [latch_hostKeys, latch_hostKeys]
  exact Keypad.ext hkeymap hheld hlatch

/-! ### The latch -/

/-- After a sampling, whatever the host's keys do, the pressed key is the one that was found. -/
theorem isPressed_refresh_hostKeys (pad : Keypad) (later : List KeyEvent) (index : Int) :
    (pad.refresh.hostKeys later).isPressed index = true ↔
      ∃ key, pad.sample = some key ∧ index = key := by
  unfold isPressed
  rw [latch_hostKeys, Bool.and_eq_true, beq_iff_eq]
  cases hsample : pad.sample with
  | none => simp [refresh_of_none hsample]
  | some key => simp [refresh_of_some hsample, eq_comm]

/-! ### The last word -/

/-- **The keypad is the last word on each of the host's keys.** On a keymap that was read, each key
has one code, the integer in its field; if no key is held at first, a key is held after some events
if and only if the last of those on its code said so. Events on other codes change nothing, nor does
the order between events on different codes. The key found is the lowest held, and until the next
sampling the pressed key is the one that was found at the last, whatever events come later. -/
theorem last_word {text : String} (hparse : Keymap.parse text = .ok pad.keymap)
    (hup : ∀ key : Key, pad.held.get key = false) (events later : List KeyEvent) :
    (∀ key : Key, ∃ code,
      (∀ other, pad.keymap.key? other = some key ↔ other = code) ∧
        ((text.toList.splitOn ',')[(key : Nat)]?.map fun field =>
          Text.integer? (String.ofList field)) = some (some code) ∧
        ((pad.hostKeys events).held.get key = true ↔
          (KeyEvent.words code events).getLast? = some true)) ∧
      (∀ code, pad.keymap.key? code = none → ∀ down,
        (pad.hostKeys events).hostKey code down = pad.hostKeys events) ∧
      (∀ others, (∀ code, pad.keymap.key? code ≠ none →
          KeyEvent.words code events = KeyEvent.words code others) →
        pad.hostKeys events = pad.hostKeys others) ∧
      (∀ key : Key, (pad.hostKeys events).sample = some key ↔
        (pad.hostKeys events).held.get key = true ∧
          ∀ j < key, (pad.hostKeys events).held.get j = false) ∧
      ((pad.hostKeys events).sample = none ↔
        ∀ key : Key, (pad.hostKeys events).held.get key = false) ∧
      ∀ index : Int, ((pad.hostKeys events).refresh.hostKeys later).isPressed index = true ↔
        ∃ key : Key, (pad.hostKeys events).sample = some key ∧ index = key := by
  refine ⟨fun key => ?_, fun code hcode down => ?_, fun others => hostKeys_congr,
    fun key => sample_eq_some_iff, sample_eq_none_iff,
    isPressed_refresh_hostKeys (pad.hostKeys events) later⟩
  · obtain ⟨code, hcode, hunique⟩ := pad.keymap.existsUnique_code key
    refine ⟨code, fun other => ⟨hunique other, ?_⟩, (Keymap.key?_of_parse hparse).1 hcode, ?_⟩
    · rintro rfl
      exact hcode
    · rw [held_hostKeys hcode, hup key]
      cases (KeyEvent.words code events).getLast? <;> simp
  · exact hostKey_of_unmapped (by rwa [keymap_hostKeys]) down

theorem last_word_of_interleaved :
    ∃ keymap, Keymap.parse Keymap.defaultText = .ok keymap ∧
      ∀ later,
        let pad := (released keymap).hostKeys [⟨120, true⟩, ⟨49, true⟩, ⟨27, true⟩, ⟨120, false⟩]
        pad.held.get 0 = false ∧ pad.held.get 1 = true ∧
          (pad.refresh.hostKeys later).isPressed 1 = true := by
  let keymap : Keymap :=
    ⟨[120, 49, 50, 51, 113, 119, 101, 97, 115, 100, 122, 99, 52, 114, 102, 118], rfl, by decide⟩
  let events : List KeyEvent := [⟨120, true⟩, ⟨49, true⟩, ⟨27, true⟩, ⟨120, false⟩]
  have hparse : Keymap.parse Keymap.defaultText = .ok (released keymap).keymap := rfl
  have hup : ∀ key : Key, (released keymap).held.get key = false := sample_eq_none_iff.1 rfl
  refine ⟨keymap, hparse, fun later => ?_⟩
  obtain ⟨hkeys, -, -, hleast, -, hpressed⟩ := last_word hparse hup events later
  obtain ⟨zero, hzero, -, hfree⟩ := hkeys 0
  obtain ⟨one, hone, -, hheld⟩ := hkeys 1
  obtain rfl : 120 = zero := (hzero 120).1 (by decide)
  obtain rfl : 49 = one := (hone 49).1 (by decide)
  have h0 : ((released keymap).hostKeys events).held.get 0 = false :=
    Bool.eq_false_iff.2 fun h => absurd (hfree.1 h) (by decide)
  have h1 : ((released keymap).hostKeys events).held.get 1 = true := hheld.2 (by decide)
  refine ⟨h0, h1, (hpressed 1).2 ⟨1, (hleast 1).2 ⟨h1, fun j hj => ?_⟩, rfl⟩⟩
  obtain rfl : j = 0 := Fin.ext (Nat.lt_one_iff.1 hj)
  exact h0

end Keypad

end Chip8
