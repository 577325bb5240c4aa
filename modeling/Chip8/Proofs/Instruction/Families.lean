import Chip8.Instruction.Decode
import Mathlib.Data.Fintype.Basic
import Mathlib.Tactic.FinCases
import Mathlib.Tactic.SplitIfs

/-!
# Decoding by families

What masks, shifts and the table of operations come to in arithmetic, for integers of any sign and
size.

* `Opcode.masked_eq` takes a mask apart, nibble by nibble; `Opcode.coe_address` and so on give the
  fields as quotients and remainders;
* `Operation.Kind.table_lookup_eq_some_iff` says what is found in the table;
* `Operation.ofFamily?` picks the operation of an opcode by the highest of the four lowest nibbles,
  its family, and within the families `0`, `8`, `E` and `F` by the lower ones; outside of sixteen
  bits the lower nibbles of these families are not looked at;
* `Operation.ofOpcode?_eq_ofFamily?` says that decoding does just that.
-/

namespace Chip8

namespace Opcode

variable (w : Int)

/-- The fourth nibble from the right, which names a family of operations. -/
def family (w : Int) : Fin 16 := ⟨(w / 4096 % 16).toNat, by omega⟩

/-- The opcode is a word of sixteen bits. -/
def IsWord (w : Int) : Prop := 0 ≤ w ∧ w < 0x10000

instance (w : Int) : Decidable (IsWord w) := inferInstanceAs (Decidable (_ ∧ _))

/-! ### Masks -/

theorem and_eq_nibble (n mask : Nat) :
    n &&& mask = 16 * (n / 16 &&& mask / 16) + (n % 16 &&& mask % 16) := by
  rw [← Nat.and_div_two_pow (n := 4), ← Nat.and_mod_two_pow (n := 4)]
  exact (Nat.div_add_mod _ _).symm

/-- A mask keeps the lowest nibble and what is above it independently. -/
theorem masked_eq (mask : Nat) :
    masked w mask = 16 * masked (w / 16) (mask / 16) + masked w (mask % 16) := by
  cases w with
  | ofNat n =>
    show n &&& mask = 16 * (n / 16 &&& mask / 16) + (n &&& mask % 16)
    rw [and_eq_nibble n (mask % 16), and_eq_nibble n mask]
    simp
  | negSucc n =>
    have hdiv : Int.negSucc n / 16 = Int.negSucc (n / 16) := by omega
    rw [hdiv]
    show mask - (n &&& mask) =
      16 * (mask / 16 - (n / 16 &&& mask / 16)) + (mask % 16 - (n &&& mask % 16))
    have hhigh : n / 16 &&& mask / 16 ≤ mask / 16 := Nat.and_le_right
    have hlow : n % 16 &&& mask % 16 ≤ mask % 16 := Nat.and_le_right
    rw [and_eq_nibble n (mask % 16), and_eq_nibble n mask]
    simp
    omega

@[simp] theorem masked_zero : masked w 0 = 0 := by
  cases w <;> simp [masked]

theorem masked_nibble : (masked w 15 : Int) = w % 16 := by
  cases w with
  | ofNat n =>
    show ((n &&& 2 ^ 4 - 1 : Nat) : Int) = n % 16
    rw [Nat.and_two_pow_sub_one_eq_mod]
    rfl
  | negSucc n =>
    show ((2 ^ 4 - 1 - (n &&& 2 ^ 4 - 1) : Nat) : Int) = Int.negSucc n % 16
    rw [Nat.and_two_pow_sub_one_eq_mod]
    omega

/-- A mask takes each nibble apart from the others. -/
theorem masked_eq_nibbles (mask : Nat) :
    (masked w mask : Int) = 4096 * masked (w / 4096) (mask / 4096) +
      256 * masked (w / 256) (mask / 256 % 16) + 16 * masked (w / 16) (mask / 16 % 16) +
      masked w (mask % 16) := by
  have h0 := masked_eq w mask
  have h1 := masked_eq (w / 16) (mask / 16)
  have h2 := masked_eq (w / 256) (mask / 256)
  rw [show w / 16 / 16 = w / 256 by omega, show mask / 16 / 16 = mask / 256 by omega] at h1
  rw [show w / 256 / 16 = w / 4096 by omega, show mask / 256 / 16 = mask / 4096 by omega] at h2
  omega

/-- A mask without the lowest nibble does not look at that nibble. -/
theorem masked_mul (mask : Nat) : masked w (16 * mask) = 16 * masked (w / 16) mask := by
  rw [masked_eq, Nat.mul_div_cancel_left mask (by decide), Nat.mul_mod_right, masked_zero,
    Nat.add_zero]

/-! ### Fields -/

theorem coe_address : ((address w : Nat) : Int) = w % 4096 := by
  show (masked w 0xFFF : Int) = _
  rw [masked_eq_nibbles]
  simp [masked_nibble]
  omega

theorem coe_x : ((x w : Nat) : Int) = w / 256 % 16 := by
  show ((masked w (16 * (16 * 15)) >>> 8 : Nat) : Int) = _
  rw [masked_mul, masked_mul, show w / 16 / 16 = w / 256 by omega, Nat.shiftRight_eq_div_pow,
    ← masked_nibble]
  omega

theorem coe_y : ((y w : Nat) : Int) = w / 16 % 16 := by
  show ((masked w (16 * 15) >>> 4 : Nat) : Int) = _
  rw [masked_mul, Nat.shiftRight_eq_div_pow, ← masked_nibble]
  omega

theorem coe_nibble : ((nibble w : Nat) : Int) = w % 16 := masked_nibble w

theorem coe_family : ((family w : Nat) : Int) = w / 4096 % 16 := by
  simp only [family]
  omega

theorem toNat_byte_eq_masked : (byte w).toNat = masked w 0xFF := by
  rw [byte, UInt8.toNat_ofNat']
  exact Nat.mod_eq_of_lt (Nat.lt_succ_of_le (masked_le w 0xFF))

theorem toNat_byte : ((byte w).toNat : Int) = w % 256 := by
  rw [toNat_byte_eq_masked, masked_eq_nibbles]
  simp [masked_nibble]
  omega

/-! ### Opcodes cut down to what tells operations apart -/

/-- A mask that has the fourth nibble from the right keeps the family. -/
theorem masked_family (low : Nat) (h : low < 0x1000) :
    masked w (0xF000 + low) = 0x1000 * (family w : Nat) + masked w low := by
  have hall := masked_eq_nibbles w (0xF000 + low)
  have hlow := masked_eq_nibbles w low
  have hfamily := coe_family w
  rw [show (0xF000 + low) / 4096 = 15 by omega,
    show (0xF000 + low) / 256 % 16 = low / 256 % 16 by omega,
    show (0xF000 + low) / 16 % 16 = low / 16 % 16 by omega,
    show (0xF000 + low) % 16 = low % 16 by omega, masked_nibble] at hall
  rw [show low / 4096 = 0 by omega, masked_zero] at hlow
  omega

theorem masked_first : masked w 0xF000 = 0x1000 * (family w : Nat) := by
  have h := masked_family w 0x000 (by decide)
  rwa [masked_zero, Nat.add_zero] at h

theorem masked_low_nibble : masked w 0xF00F = 0x1000 * (family w : Nat) + (nibble w : Nat) :=
  masked_family w 0x00F (by decide)

theorem masked_low_byte : masked w 0xF0FF = 0x1000 * (family w : Nat) + (byte w).toNat := by
  rw [toNat_byte_eq_masked]
  exact masked_family w 0x0FF (by decide)

end Opcode

namespace Operation

/-! ### The table -/

namespace Kind

theorem table_lookup_value (k : Kind) : table.lookup k.value = some k := by
  cases k <;> rfl

/-- What is found in the table is the operation that has the opcode. -/
theorem value_of_table_lookup {v : Nat} {k : Kind} (h : table.lookup v = some k) : k.value = v := by
  obtain ⟨_, _, htable, -⟩ := List.lookup_eq_some_iff.1 h
  have hmem : (v, k) ∈ table := by
    rw [htable]
    exact List.mem_append_right _ List.mem_cons_self
  obtain ⟨k', -, hk'⟩ := List.mem_map.1 hmem
  cases hk'
  rfl

theorem table_lookup_eq_some_iff {v : Nat} {k : Kind} : table.lookup v = some k ↔ k.value = v :=
  ⟨value_of_table_lookup, fun h => h ▸ table_lookup_value k⟩

theorem table_lookup_eq_none {v : Nat} (h : ∀ k : Kind, k.value ≠ v) : table.lookup v = none := by
  cases hv : table.lookup v with
  | none => rfl
  | some k => exact absurd (value_of_table_lookup hv) (h k)

end Kind

/-! ### Families -/

/-- The family `8`: arithmetic on two registers, chosen by the lowest nibble. -/
def arithmetic? (x y : Register) (n : Nat) : Option Operation :=
  match n with
  | 0x0 => some (.copy x y)
  | 0x1 => some (.or x y)
  | 0x2 => some (.and x y)
  | 0x3 => some (.xor x y)
  | 0x4 => some (.add x y)
  | 0x5 => some (.subtract x y)
  | 0x6 => some (.shiftRight x y)
  | 0x7 => some (.subtractFrom x y)
  | 0xE => some (.shiftLeft x y)
  | _ => none

/-- The family `E`: skips that ask the keypad, chosen by the lowest byte. -/
def keypad? (x : Register) (b : Nat) : Option Operation :=
  match b with
  | 0x9E => some (.skipIfPressed x)
  | 0xA1 => some (.skipUnlessPressed x)
  | _ => none

/-- The family `F`: timers, the index register and memory, chosen by the lowest byte. -/
def transfer? (x : Register) (b : Nat) : Option Operation :=
  match b with
  | 0x07 => some (.loadDelay x)
  | 0x0A => some (.waitKey x)
  | 0x15 => some (.setDelay x)
  | 0x18 => some (.setSound x)
  | 0x1E => some (.addIndex x)
  | 0x29 => some (.loadGlyph x)
  | 0x33 => some (.storeDigits x)
  | 0x55 => some (.storeRegisters x)
  | 0x65 => some (.loadRegisters x)
  | _ => none

/-- The operation that an opcode has by its family, if there is one. The last line is the family
`F`. -/
def ofFamily? (w : Int) : Option Operation :=
  let address := Opcode.address w
  let x := Opcode.x w
  let y := Opcode.y w
  let nibble := Opcode.nibble w
  let byte := Opcode.byte w
  match Opcode.family w with
  | 0x0 =>
    if w = 0x00E0 then some .clearScreen
    else if w = 0x00EE then some .ret
    else some (.machineCode address)
  | 0x1 => some (.jump address)
  | 0x2 => some (.call address)
  | 0x3 => some (.skipIfByte x byte)
  | 0x4 => some (.skipUnlessByte x byte)
  | 0x5 => some (.skipIfSame x y nibble)
  | 0x6 => some (.loadByte x byte)
  | 0x7 => some (.addByte x byte)
  | 0x8 => if Opcode.IsWord w then arithmetic? x y nibble else some (.copy x y)
  | 0x9 => some (.skipUnlessSame x y nibble)
  | 0xA => some (.loadIndex address)
  | 0xB => some (.jumpOffset address)
  | 0xC => some (.random x byte)
  | 0xD => some (.draw x y nibble)
  | 0xE => if Opcode.IsWord w then keypad? x byte.toNat else none
  | _ => if Opcode.IsWord w then transfer? x byte.toNat else none

/-! ### The table by families -/

variable {w : Int}

theorem ofOpcode?_eq_map (w : Int) :
    ofOpcode? w = (Kind.ofOpcode? w).map fun k => (Instruction.ofKind k w).operation := by
  rw [ofOpcode?, Instruction.decode?, Option.map_map]
  rfl

/-- The first nibble, all that is above the lowest twelve bits, is no nibble outside of sixteen
bits. -/
theorem shiftRight_twelve (w : Int) : w >>> (12 : Nat) = w / 4096 :=
  Int.shiftRight_eq_div_pow w 12

namespace Kind

/-- Only where the first nibble is zero is an opcode that is not in the table still decoded. -/
theorem ofOpcode?_of_first_ne_zero (h : w / 4096 ≠ 0) :
    ofOpcode? w = table.lookup (Opcode.masked w (mask (w / 4096))) := by
  unfold ofOpcode?
  simp only [shiftRight_twelve]
  cases table.lookup (Opcode.masked w (mask (w / 4096))) with
  | some k => rfl
  | none => exact if_neg h

/-- The mask of a first nibble that is not shared. -/
theorem mask_of_not_shared {first : Int} (h0 : first ≠ 0x0) (h8 : first ≠ 0x8)
    (hE : first ≠ 0xE) (hF : first ≠ 0xF) : mask first = 0xF000 := by
  have hlookup : sharedNibbleMasks.lookup first = none := by
    simp [sharedNibbleMasks, List.lookup_cons, beq_eq_false_iff_ne.2, *]
  rw [mask, hlookup, Option.getD_none]

/-- No opcode in the table begins with zero, but for three. -/
theorem table_lookup_of_lt {v : Nat} (hv : v < 0x1000) (hzero : v ≠ 0x0000) (hclear : v ≠ 0x00E0)
    (hret : v ≠ 0x00EE) : table.lookup v = none :=
  table_lookup_eq_none fun k => by cases k <;> simp only [value] <;> omega

/-- The opcodes `0nnn`: two are in the table, and all others call native code. -/
theorem ofOpcode?_of_first_zero (h : w / 4096 = 0) :
    ofOpcode? w = if w = 0x00E0 then some .clearScreen else if w = 0x00EE then some .ret
      else some .machineCode := by
  have hmasked := Opcode.masked_eq_nibbles w 0xFFFF
  simp only [Nat.reduceDiv, Nat.reduceMod, Opcode.masked_nibble] at hmasked
  obtain ⟨v, rfl⟩ := Int.eq_ofNat_of_zero_le (show 0 ≤ w by omega)
  have hkey : Opcode.masked v (mask 0) = v := by
    show Opcode.masked v 0xFFFF = v
    omega
  unfold ofOpcode?
  simp only [shiftRight_twelve, h, hkey, if_true]
  by_cases hclear : v = 0x00E0
  · subst hclear
    rfl
  by_cases hret : v = 0x00EE
  · subst hret
    rfl
  rw [if_neg (by omega), if_neg (by omega)]
  by_cases hzero : v = 0x0000
  · subst hzero
    rfl
  · rw [table_lookup_of_lt (by omega) hzero hclear hret]

variable (w)

/-- The opcodes `8xyN` of sixteen bits. -/
theorem lookup_arithmetic (n : Fin 16) :
    ((table.lookup (0x8000 + (n : Nat))).map fun k => (Instruction.ofKind k w).operation) =
      arithmetic? (Opcode.x w) (Opcode.y w) n := by
  fin_cases n <;> rfl

/-- The opcodes `ExNN` of sixteen bits. -/
theorem lookup_keypad {b : Nat} (hb : b < 0x100) :
    ((table.lookup (0xE000 + b)).map fun k => (Instruction.ofKind k w).operation) =
      keypad? (Opcode.x w) b := by
  unfold keypad?
  split
  case h_3 =>
    have hnone : table.lookup (0xE000 + b) = none :=
      table_lookup_eq_none fun k => by cases k <;> grind [value]
    rw [hnone, Option.map_none]
  all_goals rfl

/-- The opcodes `FxNN` of sixteen bits. -/
theorem lookup_transfer {b : Nat} (hb : b < 0x100) :
    ((table.lookup (0xF000 + b)).map fun k => (Instruction.ofKind k w).operation) =
      transfer? (Opcode.x w) b := by
  unfold transfer?
  split
  case h_10 =>
    have hnone : table.lookup (0xF000 + b) = none :=
      table_lookup_eq_none fun k => by cases k <;> grind [value]
    rw [hnone, Option.map_none]
  all_goals rfl

end Kind

/-- The opcode is decoded by the first of its nibbles alone, unless it is one of sixteen bits in a
family whose lower nibbles count. -/
theorem lookup_family (h : Opcode.family w = 0x0 ∨ Opcode.family w = 0x8 ∨ Opcode.family w = 0xE ∨
    Opcode.family w = 0xF → ¬ Opcode.IsWord w) :
    ((Kind.table.lookup (0x1000 * (Opcode.family w : Nat))).map fun k =>
      (Instruction.ofKind k w).operation) = ofFamily? w := by
  by_cases hword : Opcode.IsWord w
  · have hfamily := fun hshared => h hshared hword
    simp only [ofFamily?]
    generalize Opcode.family w = k at hfamily
    fin_cases k
    any_goals rfl
    all_goals simp at hfamily
  · have hclear : w ≠ 0x00E0 := fun h => hword (h ▸ by decide)
    have hret : w ≠ 0x00EE := fun h => hword (h ▸ by decide)
    simp only [ofFamily?, if_neg hword, if_neg hclear, if_neg hret]
    generalize Opcode.family w = k
    fin_cases k <;> rfl

/-- **Decoding goes by families.** Masking an opcode and looking the result up picks the operation
of its family. -/
theorem ofOpcode?_eq_ofFamily? (w : Int) : ofOpcode? w = ofFamily? w := by
  have hfamily := Opcode.coe_family w
  -- In sixteen bits the family is the first nibble.
  have hk : ∀ k : Fin 16, w / 4096 = (k : Nat) → Opcode.IsWord w ∧ Opcode.family w = k :=
    fun k hk => ⟨⟨by omega, by omega⟩, Fin.ext (by omega)⟩
  rw [ofOpcode?_eq_map]
  by_cases h0 : w / 4096 = 0x0
  · rw [Kind.ofOpcode?_of_first_zero h0]
    simp only [ofFamily?, (hk 0x0 h0).2]
    split_ifs <;> rfl
  rw [Kind.ofOpcode?_of_first_ne_zero h0]
  by_cases h8 : w / 4096 = 0x8
  · obtain ⟨hword, hfamily⟩ := hk 0x8 h8
    rw [h8, show Kind.mask 0x8 = 0xF00F from rfl, Opcode.masked_low_nibble, hfamily]
    simp only [ofFamily?, hfamily, if_pos hword]
    exact Kind.lookup_arithmetic w (Opcode.nibble w)
  by_cases hE : w / 4096 = 0xE
  · obtain ⟨hword, hfamily⟩ := hk 0xE hE
    rw [hE, show Kind.mask 0xE = 0xF0FF from rfl, Opcode.masked_low_byte, hfamily]
    simp only [ofFamily?, hfamily, if_pos hword]
    exact Kind.lookup_keypad w (Opcode.byte w).toNat_lt
  by_cases hF : w / 4096 = 0xF
  · obtain ⟨hword, hfamily⟩ := hk 0xF hF
    rw [hF, show Kind.mask 0xF = 0xF0FF from rfl, Opcode.masked_low_byte, hfamily]
    simp only [ofFamily?, hfamily, if_pos hword]
    exact Kind.lookup_transfer w (Opcode.byte w).toNat_lt
  rw [Kind.mask_of_not_shared h0 h8 hE hF, Opcode.masked_first, lookup_family]
  intro hshared hword
  unfold Opcode.IsWord at hword
  omega

end Operation

end Chip8
