import Chip8.Proofs.Instruction.Encode
import Chip8.Proofs.Text.Hexadecimal

/-!
# Reading mnemonics

A mnemonic shows all of an operation but the operands that running it ignores.

* `Operation.canonical` is an operation with the ignored operands set to zero;
* `Operand` is an operand as a mnemonic shows it, and `Operation.name` and `Operation.operands` are
  the parts of a mnemonic;
* `Operation.assemble?` reads a mnemonic, and `assemble?_mnemonic` says that it gives back the
  operation, so that `mnemonic_eq_iff` tells which operations have the same mnemonic.
-/

namespace Chip8

namespace Text

/-- A character that neither separates operands nor ends a line. -/
def IsPlain (c : Char) : Prop := c ≠ ',' ∧ c ≠ ' ' ∧ c ≠ '\n'

instance : DecidablePred IsPlain := fun _ => inferInstanceAs (Decidable (_ ∧ _))

-- To decide this of a text means to go through the text, not through all characters there are.
theorem plain_of_all {text : List Char} (h : text.all (fun c => decide (IsPlain c)) = true) :
    ∀ c ∈ text, IsPlain c := by
  simpa using h

theorem plain_hex {width : Nat} {n : Int} {c : Char} (h : c ∈ (hex width n).toList) :
    IsPlain c := by
  have hdigits : ∀ d ∈ hexDigits, IsPlain d := plain_of_all (by decide)
  rcases mem_hex h with rfl | h
  · decide
  · exact hdigits c h

theorem intercalate_cons (word : List Char) (words : List (List Char)) :
    [' '].intercalate (word :: words) = word ++ words.flatMap (' ' :: ·) := by
  induction words generalizing word with
  | nil => simp
  | cons w words ih => simp [ih]

end Text

/-- An operand as it stands in a mnemonic. -/
inductive Operand
  | register (x : Register)
  | address (a : Fin 4096)
  | byte (b : UInt8)
  | nibble (n : Fin 16)
  /-- The delay timer, `DT`. -/
  | delay
  /-- The sound timer, `ST`. -/
  | sound
  /-- A key, `K`. -/
  | key
  /-- The index register, `I`. -/
  | index
  /-- The memory that the index register points to, `[I]`. -/
  | memory
  /-- A glyph of the font, `F`. -/
  | glyph
  /-- Decimal digits, `B`. -/
  | decimal
  deriving DecidableEq

namespace Operand

def text : Operand → String
  | .register x => Operation.registerText x
  | .address a => Operation.addressText a
  | .byte b => Operation.byteText b
  | .nibble n => "0x" ++ Text.hex 1 n
  | .delay => "DT"
  | .sound => "ST"
  | .key => "K"
  | .index => "I"
  | .memory => "[I]"
  | .glyph => "F"
  | .decimal => "B"

/-- A number by how many digits it is written with. -/
def ofDigits (digits : List Char) : Operand :=
  match digits.length with
  | 1 => .nibble (Opcode.nibble (Text.hexValue digits))
  | 2 => .byte (Opcode.byte (Text.hexValue digits))
  | _ => .address (Opcode.address (Text.hexValue digits))

/-- Reads an operand. -/
def read? : List Char → Option Operand
  | ['D', 'T'] => some .delay
  | ['S', 'T'] => some .sound
  | ['K'] => some .key
  | ['I'] => some .index
  | ['[', 'I', ']'] => some .memory
  | ['F'] => some .glyph
  | ['B'] => some .decimal
  | 'V' :: digits => some (.register (Opcode.nibble (Text.hexValue digits)))
  | '0' :: 'x' :: digits => some (ofDigits digits)
  | _ => none

theorem toList_registerText (x : Register) :
    (Operation.registerText x).toList = 'V' :: (Text.hex 1 x).toList := by
  simp [Operation.registerText]

theorem toList_number (width : Nat) (n : Int) :
    ("0x" ++ Text.hex width n).toList = '0' :: 'x' :: (Text.hex width n).toList := by
  simp

/-- An operand is read back from its text. -/
theorem read?_text (o : Operand) : read? o.text.toList = some o := by
  cases o with
  | register x =>
    have hx : Opcode.nibble ((x : Nat) : Int) = x := Opcode.nibble_eq (by omega)
    rw [text, toList_registerText]
    show some (register (Opcode.nibble (Text.hexValue (Text.hex 1 (x : Nat)).toList))) = _
    rw [Text.hexValue_hex, hx]
  | address a =>
    have ha : Opcode.address ((a : Nat) : Int) = a := Opcode.address_eq (by omega)
    rw [text, Operation.addressText, toList_number]
    show some (ofDigits (Text.hex 3 (a : Nat)).toList) = _
    simp only [ofDigits, Text.length_hex (show 0 < 3 by decide) a.isLt, Text.hexValue_hex, ha]
  | byte b =>
    have hlt := b.toNat_lt
    have hb : Opcode.byte (b.toNat : Int) = b := Opcode.byte_eq (by omega)
    rw [text, Operation.byteText, toList_number]
    show some (ofDigits (Text.hex 2 b.toNat).toList) = _
    simp only [ofDigits, Text.length_hex (show 0 < 2 by decide) hlt, Text.hexValue_hex, hb]
  | nibble n =>
    have hn : Opcode.nibble ((n : Nat) : Int) = n := Opcode.nibble_eq (by omega)
    rw [text, toList_number]
    show some (ofDigits (Text.hex 1 (n : Nat)).toList) = _
    simp only [ofDigits, Text.length_hex (show 0 < 1 by decide) n.isLt, Text.hexValue_hex, hn]
  | _ => rfl

theorem mapM_read? (os : List Operand) : (os.map (·.text.toList)).mapM read? = some os := by
  induction os with
  | nil => rfl
  | cons o os ih => simp [read?_text, ih]

theorem plain_number (width : Nat) (n : Int) :
    ∀ c ∈ ("0x" ++ Text.hex width n).toList, Text.IsPlain c := by
  rw [toList_number]
  exact List.forall_mem_cons.2 ⟨by decide, List.forall_mem_cons.2 ⟨by decide,
    fun _ => Text.plain_hex⟩⟩

theorem plain_text (o : Operand) : ∀ c ∈ o.text.toList, Text.IsPlain c := by
  cases o with
  | register x =>
    rw [text, toList_registerText]
    exact List.forall_mem_cons.2 ⟨by decide, fun _ => Text.plain_hex⟩
  | address a => exact plain_number 3 a
  | byte b => exact plain_number 2 b.toNat
  | nibble n => exact plain_number 1 n
  | _ => exact Text.plain_of_all (by decide)

/-- Operands in a row, each after a blank, with commas between them. -/
def listed : List Operand → List Char
  | [] => []
  | [o] => ' ' :: o.text.toList
  | o :: os => ' ' :: o.text.toList ++ ',' :: listed os

theorem filter_listed (os : List Operand) :
    (listed os).filter (· != ',') = (os.map (·.text.toList)).flatMap (' ' :: ·) := by
  have hplain : ∀ o : Operand, o.text.toList.filter (· != ',') = o.text.toList := fun o =>
    List.filter_eq_self.2 fun c hc => by simpa using (o.plain_text c hc).1
  fun_induction listed os with
  | case1 => rfl
  | case2 o => simp [hplain]
  | case3 o os _ ih => simp [hplain, ih]

end Operand

namespace Operation

/-- The nibble `0`, which is also the register `V0`. -/
def zero : Fin 16 := Opcode.nibble 0

/-- The operation with the operands that running it ignores set to zero. -/
def canonical : Operation → Operation
  | .skipIfSame x y _ => .skipIfSame x y zero
  | .skipUnlessSame x y _ => .skipUnlessSame x y zero
  | .shiftRight x _ => .shiftRight x zero
  | .shiftLeft x _ => .shiftLeft x zero
  | op => op

/-- Running the operation ignores one of its operands. -/
def ignoresOperand : Operation → Bool
  | .skipIfSame .. | .skipUnlessSame .. | .shiftRight .. | .shiftLeft .. => true
  | _ => false

theorem ignoresOperand_canonical (op : Operation) :
    op.canonical.ignoresOperand = op.ignoresOperand := by
  cases op <;> rfl

theorem canonical_eq_self {op : Operation} (h : op.ignoresOperand = false) :
    op.canonical = op := by
  cases op with
  | skipIfSame | skipUnlessSame | shiftRight | shiftLeft => cases h
  | _ => rfl

/-- Operations that are the same up to ignored operands are the same, or both ignore one. -/
theorem eq_or_ignoresOperand {a b : Operation} (h : a.canonical = b.canonical) :
    a = b ∨ a.ignoresOperand = true ∧ b.ignoresOperand = true := by
  have hboth : a.ignoresOperand = b.ignoresOperand := by
    rw [← ignoresOperand_canonical a, h, ignoresOperand_canonical]
  cases ha : a.ignoresOperand with
  | true => exact .inr ⟨rfl, hboth.symm.trans ha⟩
  | false =>
    rw [canonical_eq_self ha, canonical_eq_self (hboth.symm.trans ha)] at h
    exact .inl h

/-- The first word of a mnemonic. -/
def name : Operation → String
  | .machineCode _ => "SYS"
  | .clearScreen => "CLS"
  | .ret => "RET"
  | .jump _ | .jumpOffset _ => "JP"
  | .call _ => "CALL"
  | .skipIfByte .. | .skipIfSame .. => "SE"
  | .skipUnlessByte .. | .skipUnlessSame .. => "SNE"
  | .addByte .. | .add .. | .addIndex _ => "ADD"
  | .or .. => "OR"
  | .and .. => "AND"
  | .xor .. => "XOR"
  | .subtract .. => "SUB"
  | .shiftRight .. => "SHR"
  | .subtractFrom .. => "SUBN"
  | .shiftLeft .. => "SHL"
  | .random .. => "RND"
  | .draw .. => "DRW"
  | .skipIfPressed _ => "SKP"
  | .skipUnlessPressed _ => "SKNP"
  | .loadByte .. | .copy .. | .loadIndex _ | .loadDelay _ | .waitKey _ | .setDelay _ | .setSound _
  | .loadGlyph _ | .storeDigits _ | .storeRegisters _ | .loadRegisters _ => "LD"

/-- The operands that a mnemonic shows. -/
def operands : Operation → List Operand
  | .machineCode a | .jump a | .call a => [.address a]
  | .clearScreen | .ret => []
  | .skipIfByte x b | .skipUnlessByte x b | .loadByte x b | .addByte x b | .random x b =>
    [.register x, .byte b]
  | .skipIfSame x y _ | .skipUnlessSame x y _ | .copy x y | .or x y | .and x y | .xor x y | .add x y
  | .subtract x y | .subtractFrom x y => [.register x, .register y]
  | .shiftRight x _ | .shiftLeft x _ | .skipIfPressed x | .skipUnlessPressed x => [.register x]
  | .loadIndex a => [.index, .address a]
  | .jumpOffset a => [.register zero, .address a]
  | .draw x y n => [.register x, .register y, .nibble n]
  | .loadDelay x => [.register x, .delay]
  | .waitKey x => [.register x, .key]
  | .setDelay x => [.delay, .register x]
  | .setSound x => [.sound, .register x]
  | .addIndex x => [.index, .register x]
  | .loadGlyph x => [.glyph, .register x]
  | .storeDigits x => [.decimal, .register x]
  | .storeRegisters x => [.memory, .register x]
  | .loadRegisters x => [.register x, .memory]

/-- The canonical operation of a name with operands, if there is one. -/
def ofParts? : String → List Operand → Option Operation
  | "SYS", [.address a] => some (.machineCode a)
  | "CLS", [] => some .clearScreen
  | "RET", [] => some .ret
  | "JP", [.address a] => some (.jump a)
  | "CALL", [.address a] => some (.call a)
  | "SE", [.register x, .byte b] => some (.skipIfByte x b)
  | "SNE", [.register x, .byte b] => some (.skipUnlessByte x b)
  | "SE", [.register x, .register y] => some (.skipIfSame x y zero)
  | "LD", [.register x, .byte b] => some (.loadByte x b)
  | "ADD", [.register x, .byte b] => some (.addByte x b)
  | "LD", [.register x, .register y] => some (.copy x y)
  | "OR", [.register x, .register y] => some (.or x y)
  | "AND", [.register x, .register y] => some (.and x y)
  | "XOR", [.register x, .register y] => some (.xor x y)
  | "ADD", [.register x, .register y] => some (.add x y)
  | "SUB", [.register x, .register y] => some (.subtract x y)
  | "SHR", [.register x] => some (.shiftRight x zero)
  | "SUBN", [.register x, .register y] => some (.subtractFrom x y)
  | "SHL", [.register x] => some (.shiftLeft x zero)
  | "SNE", [.register x, .register y] => some (.skipUnlessSame x y zero)
  | "LD", [.index, .address a] => some (.loadIndex a)
  | "JP", [.register _, .address a] => some (.jumpOffset a)
  | "RND", [.register x, .byte b] => some (.random x b)
  | "DRW", [.register x, .register y, .nibble n] => some (.draw x y n)
  | "SKP", [.register x] => some (.skipIfPressed x)
  | "SKNP", [.register x] => some (.skipUnlessPressed x)
  | "LD", [.register x, .delay] => some (.loadDelay x)
  | "LD", [.register x, .key] => some (.waitKey x)
  | "LD", [.delay, .register x] => some (.setDelay x)
  | "LD", [.sound, .register x] => some (.setSound x)
  | "ADD", [.index, .register x] => some (.addIndex x)
  | "LD", [.glyph, .register x] => some (.loadGlyph x)
  | "LD", [.decimal, .register x] => some (.storeDigits x)
  | "LD", [.memory, .register x] => some (.storeRegisters x)
  | "LD", [.register x, .memory] => some (.loadRegisters x)
  | _, _ => none

/-- Reads a mnemonic: a name and its operands between blanks, of which commas are no part. -/
def assemble? (text : String) : Option Operation :=
  match (text.toList.filter (· != ',')).splitOn ' ' with
  | [] => none
  | name :: operands => (operands.mapM Operand.read?).bind (ofParts? (String.ofList name))

theorem ofParts?_name_operands (op : Operation) :
    ofParts? op.name op.operands = some op.canonical := by
  cases op <;> rfl

/-- A mnemonic is a name with operands. -/
theorem toList_mnemonic (op : Operation) :
    op.mnemonic.toList = op.name.toList ++ Operand.listed op.operands := by
  have hfirst : registerText zero = "V0" := by decide
  cases op <;>
    simp [mnemonic, name, operands, Operand.listed, Operand.text, unary, binary, immediate, hfirst]

theorem plain_name (op : Operation) : ∀ c ∈ op.name.toList, Text.IsPlain c := by
  refine Text.plain_of_all ?_
  cases op <;> simp only [name] <;> decide

/-- A mnemonic falls apart into its name and its operands. -/
theorem splitOn_mnemonic (op : Operation) :
    (op.mnemonic.toList.filter (· != ',')).splitOn ' ' =
      op.name.toList :: op.operands.map (·.text.toList) := by
  have hname : op.name.toList.filter (· != ',') = op.name.toList :=
    List.filter_eq_self.2 fun c hc => by simpa using (plain_name op c hc).1
  rw [toList_mnemonic, List.filter_append, hname, Operand.filter_listed, ← Text.intercalate_cons,
    List.splitOn_intercalate ' ' ?_ (List.cons_ne_nil _ _)]
  refine List.forall_mem_cons.2 ⟨fun h => (plain_name op _ h).2.1 rfl, ?_⟩
  intro text htext
  obtain ⟨o, -, rfl⟩ := List.mem_map.1 htext
  exact fun h => (o.plain_text _ h).2.1 rfl

/-- **A mnemonic is read back as the operation, up to the operands that running it ignores.** -/
theorem assemble?_mnemonic (op : Operation) : assemble? op.mnemonic = some op.canonical := by
  unfold assemble?
  rw [splitOn_mnemonic]
  show ((op.operands.map (·.text.toList)).mapM Operand.read?).bind _ = _
  rw [Operand.mapM_read?, String.ofList_toList, Option.bind_some, ofParts?_name_operands]

theorem mnemonic_canonical (op : Operation) : op.canonical.mnemonic = op.mnemonic := by
  cases op <;> rfl

/-- Two operations have the same mnemonic exactly if they differ in ignored operands at most. -/
theorem mnemonic_eq_iff {a b : Operation} :
    a.mnemonic = b.mnemonic ↔ a.canonical = b.canonical := by
  constructor
  · intro h
    have hread := congrArg assemble? h
    rwa [assemble?_mnemonic, assemble?_mnemonic, Option.some.injEq] at hread
  · intro h
    rw [← mnemonic_canonical a, h, mnemonic_canonical]

end Operation

end Chip8
