import Chip8.Proofs.Machine.Tracing

/-!
# What a report tells

The report on a machine, of which a fault shows an instance, loses nothing of what it shows.

* `Text.cut_inj` says that two texts which are equal are cut alike at a character that occurs in
  neither of the first parts;
* `Machine.SameShown` says that two machines agree in all that a report shows;
* `line_inj`, `stackText_inj` and `keypad_line_inj` say what the single lines of a report tell, and
  `dump_eq_iff` that two reports are equal just if they show the same.
-/

namespace Chip8

namespace Text

/-- Equal texts are cut alike at the first place of a character. -/
theorem cut_inj (c : Char) {sep a a' b b' : String} (h : a ++ (sep ++ b) = a' ++ (sep ++ b'))
    (hsep : sep.toList.head? = some c) (ha : c ∉ a.toList) (ha' : c ∉ a'.toList) :
    a = a' ∧ b = b' := by
  have hcut : ∀ {s s' t t' : List Char}, c ∉ s → c ∉ s' → s ++ c :: t = s' ++ c :: t' →
      s = s' ∧ t = t' := by
    intro s s' t t' hs hs' h
    induction s generalizing s' with
    | nil =>
      cases s' with
      | nil => exact ⟨rfl, (List.cons.inj h).2⟩
      | cons d s' => exact absurd (List.cons.inj h).1 (List.ne_of_not_mem_cons hs')
    | cons d s ih =>
      cases s' with
      | nil => exact absurd (List.cons.inj h).1.symm (List.ne_of_not_mem_cons hs)
      | cons d' s' =>
        obtain ⟨hd, h⟩ := List.cons.inj h
        obtain ⟨hs, ht⟩ := ih (List.not_mem_of_not_mem_cons hs) (List.not_mem_of_not_mem_cons hs') h
        exact ⟨by rw [hd, hs], ht⟩
  have hlist := congrArg String.toList h
  obtain ⟨cs, hcs⟩ := List.head?_eq_some_iff.1 hsep
  simp only [String.toList_append, hcs, List.cons_append] at hlist
  obtain ⟨hs, ht⟩ := hcut ha ha' hlist
  exact ⟨String.toList_inj.1 hs, String.toList_inj.1 (List.append_cancel_left ht)⟩

/-- Words without blanks are told apart by a text in which each of them comes after a blank. -/
theorem words_inj {words words' : List (List Char)} (h : ∀ w ∈ words, ' ' ∉ w)
    (h' : ∀ w ∈ words', ' ' ∉ w)
    (heq : words.flatMap (' ' :: ·) = words'.flatMap (' ' :: ·)) : words = words' := by
  have hread : ∀ {ws : List (List Char)}, (∀ w ∈ ws, ' ' ∉ w) →
      (ws.flatMap (' ' :: ·)).splitOn ' ' = [] :: ws := by
    intro ws hws
    have hall : ∀ w ∈ [] :: ws, ' ' ∉ w := List.forall_mem_cons.2 ⟨List.not_mem_nil, hws⟩
    have hsplit := List.splitOn_intercalate ' ' hall (List.cons_ne_nil _ _)
    rwa [intercalate_cons, List.nil_append] at hsplit
  have hsplit := hread h
  rw [heq, hread h'] at hsplit
  exact (List.cons.inj hsplit).2.symm

theorem blank_not_mem_hex (width : Nat) (n : Int) : ' ' ∉ (hex width n).toList :=
  fun h => (plain_hex h).2.1 rfl

theorem blank_not_mem_hexBytes (bytes : List UInt8) : ' ' ∉ (hexBytes bytes).toList := by
  rw [toList_hexBytes, List.mem_flatMap]
  rintro ⟨b, -, h⟩
  exact blank_not_mem_hex 2 b.toNat h

theorem isLine_toString (n : Nat) : IsLine (toString n) := by
  intro h
  rw [show toString n = n.repr from rfl, Nat.toList_repr] at h
  exact absurd (Nat.isDigit_of_mem_toDigits (by decide) (by decide) h) (by decide)

end Text

namespace Machine

variable {m n : Machine} {text text' : String}

/-- Two machines agree in all that a report shows of them. -/
structure SameShown (m n : Machine) : Prop where
  registers : ∀ x, m.register x = n.register x
  index : m.index = n.index
  delay : m.timers.delay = n.timers.delay
  sound : m.timers.sound = n.timers.sound
  begun : m.begun = n.begun
  opcode : m.opcode = n.opcode
  stack : m.stack.toList = n.stack.toList
  asserted : m.keypad.latch.asserted = n.keypad.latch.asserted
  key : m.keypad.latch.asserted = true → m.keypad.latch.key = n.keypad.latch.key
  awaitingKey : m.awaitingKey = n.awaitingKey

/-! ### The line on a machine -/

theorem registersText_injective : Function.Injective registersText := by
  intro registers registers' h
  have hbytes := Text.hexBytes_injective h
  exact Vector.toList_inj.1 (List.reverse_inj.1 hbytes)

/-- An opcode that is not fetched yet is shown by no digits. -/
theorem opcodeText_injective : Function.Injective opcodeText := by
  have hdashes : ∀ w, opcodeText none ≠ Text.hex 4 w := by
    intro w h
    have hw : w < 0 := Text.minus_mem_hex_iff.1 (h ▸ by decide : '-' ∈ (Text.hex 4 w).toList)
    have hlist := congrArg String.toList h
    rw [Text.hex_neg 4 hw, String.toList_ofList] at hlist
    -- After the sign there are digits only.
    have hdash : '-' ∈ List.leftpad 3 '0' (Nat.toDigits 16 w.natAbs) := by
      rw [← (List.cons.inj hlist).2]
      decide
    rcases Text.mem_leftpad hdash with hzero | hdigit
    · cases hzero
    · exact absurd (Text.mem_toDigits hdigit) (by decide)
  intro o o' h
  cases o with
  | none =>
    cases o' with
    | none => rfl
    | some w => exact absurd h (hdashes w)
  | some w =>
    cases o' with
    | none => exact absurd h.symm (hdashes w)
    | some w' => rw [Text.hex_injective 4 h]

theorem blank_not_mem_opcodeText (w : Option Int) : ' ' ∉ (opcodeText w).toList := by
  cases w with
  | none => decide
  | some w => exact Text.blank_not_mem_hex 4 w

/-- The line on a machine tells the text for the instruction, and everything that it shows. -/
theorem line_inj (h : m.line text = n.line text') :
    m.registers = n.registers ∧ m.index = n.index ∧ m.timers.delay = n.timers.delay ∧
      m.timers.sound = n.timers.sound ∧ m.begun = n.begun ∧ m.opcode = n.opcode ∧
      text = text' := by
  unfold line at h
  simp only [String.append_assoc] at h
  obtain ⟨hregisters, h⟩ := Text.cut_inj ' ' ((String.append_right_inj _).1 h) (by decide)
    (Text.blank_not_mem_hexBytes _) (Text.blank_not_mem_hexBytes _)
  obtain ⟨hindex, h⟩ := Text.cut_inj ' ' h (by decide) (Text.blank_not_mem_hex _ _)
    (Text.blank_not_mem_hex _ _)
  obtain ⟨hdelay, h⟩ := Text.cut_inj ' ' h (by decide) (Text.blank_not_mem_hex _ _)
    (Text.blank_not_mem_hex _ _)
  obtain ⟨hsound, h⟩ := Text.cut_inj ' ' h (by decide) (Text.blank_not_mem_hex _ _)
    (Text.blank_not_mem_hex _ _)
  obtain ⟨hbegun, h⟩ := Text.cut_inj ' ' h (by decide) (Text.blank_not_mem_hex _ _)
    (Text.blank_not_mem_hex _ _)
  obtain ⟨hopcode, htext⟩ := Text.cut_inj ' ' h (by decide) (blank_not_mem_opcodeText _)
    (blank_not_mem_opcodeText _)
  exact ⟨registersText_injective hregisters, Text.hex_injective 4 hindex,
    Text.hex_injective 2 hdelay, Text.hex_injective 2 hsound, Text.hex_injective 3 hbegun,
    opcodeText_injective hopcode, htext⟩

/-! ### The stack and the keypad -/

/-- What is listed of a stack: its return addresses, or that there are none. -/
def stackWords (s : CallStack) : List (List Char) :=
  if s.returns = [] then ["(Empty)".toList]
  else s.toList.map fun address => ("0x" ++ Text.hex 3 address).toList

theorem toList_stackText (s : CallStack) :
    (stackText s).toList = (stackWords s).flatMap (' ' :: ·) := by
  unfold stackText stackWords
  split_ifs
  · rfl
  · rw [String.toList_join, List.flatMap_map, List.flatMap_map]
    simp

theorem plain_stackWords (s : CallStack) : ∀ w ∈ stackWords s, ∀ c ∈ w, Text.IsPlain c := by
  unfold stackWords
  split_ifs
  · rw [List.forall_mem_singleton]
    exact Text.plain_of_all (by decide)
  · intro w hw
    obtain ⟨a, -, rfl⟩ := List.mem_map.1 hw
    exact Operand.plain_number 3 a

theorem isLine_stackText (s : CallStack) : Text.IsLine (stackText s) := by
  unfold Text.IsLine
  rw [toList_stackText, List.mem_flatMap]
  rintro ⟨w, hw, h⟩
  rcases List.mem_cons.1 h with h | h
  · cases h
  · exact (plain_stackWords s w hw _ h).2.2 rfl

/-- Addresses are told apart by their words, and none of these says that there is no address. -/
theorem stackWords_inj {s s' : CallStack} (h : stackWords s = stackWords s') :
    s.toList = s'.toList := by
  have haddress : ∀ a : Int, ("0x" ++ Text.hex 3 a).toList ≠ "(Empty)".toList := by
    intro a ha
    rw [Operand.toList_number] at ha
    cases (List.cons.inj ha).1
  have hempty : ∀ t : CallStack, ["(Empty)".toList] ≠
      t.toList.map fun a => ("0x" ++ Text.hex 3 a).toList := by
    intro t ht
    obtain ⟨a, -, ha⟩ := List.mem_map.1 (ht ▸ List.mem_singleton_self "(Empty)".toList)
    exact haddress a ha
  unfold stackWords at h
  split_ifs at h with hs hs' hs'
  · rw [CallStack.toList, hs, CallStack.toList, hs']
  · exact absurd h (hempty s')
  · exact absurd h.symm (hempty s)
  · refine List.map_injective_iff.2 ?_ h
    intro a a' ha
    exact Text.hex_injective 3 ((String.append_right_inj _).1 (String.toList_inj.1 ha))

/-- The list of return addresses tells all of them. -/
theorem stackText_inj {s s' : CallStack} (h : stackText s = stackText s') :
    s.toList = s'.toList := by
  have hblank : ∀ t : CallStack, ∀ w ∈ stackWords t, ' ' ∉ w :=
    fun t w hw hblank => (plain_stackWords t w hw _ hblank).2.1 rfl
  have hlist := congrArg String.toList h
  rw [toList_stackText, toList_stackText] at hlist
  exact stackWords_inj (Text.words_inj (hblank s) (hblank s') hlist)

/-- What is shown of the latch tells whether it is asserted, and then its key. -/
theorem latchText_inj {l l' : Latch} (h : latchText l = latchText l') :
    l.asserted = l'.asserted ∧ (l.asserted = true → l.key = l'.key) := by
  have hnone : ∀ n : Int, "0x" ++ Text.hex 1 n ≠ "(None)" := by
    intro n hn
    have hlist := congrArg String.toList hn
    rw [Operand.toList_number] at hlist
    cases (List.cons.inj hlist).1
  unfold latchText at h
  split_ifs at h with hl hl' hl'
  · refine ⟨hl.trans hl'.symm, fun _ => Fin.ext ?_⟩
    exact Int.ofNat_inj.1 (Text.hex_injective 1 ((String.append_right_inj _).1 h))
  · exact absurd h (hnone _)
  · exact absurd h.symm (hnone _)
  · exact ⟨by simp [hl, hl'], fun hasserted => absurd hasserted hl⟩

theorem blank_not_mem_latchText (l : Latch) : ' ' ∉ (latchText l).toList := by
  unfold latchText
  split_ifs
  · exact fun h => (Operand.plain_number 1 l.key _ h).2.1 rfl
  · decide

/-- Only the last line of a waiting machine ends in a word of its own. -/
theorem keypad_line_inj {l l' : Latch} {waiting waiting' : Bool}
    (h : latchText l ++ (if waiting then " (Waiting)" else "") =
      latchText l' ++ (if waiting' then " (Waiting)" else "")) :
    latchText l = latchText l' ∧ waiting = waiting' := by
  have hblank : ∀ l l' : Latch, latchText l ++ " (Waiting)" ≠ latchText l' := by
    intro l l' h
    refine blank_not_mem_latchText l' ?_
    rw [← h, String.toList_append]
    exact List.mem_append_right _ (by decide)
  cases waiting <;> cases waiting' <;> simp only [if_true, Bool.false_eq_true, if_false,
    String.append_empty] at h
  · exact ⟨h, rfl⟩
  · exact absurd h.symm (hblank l' l)
  · exact absurd h (hblank l l')
  · exact ⟨(String.append_left_inj _).1 h, rfl⟩

/-! ### The whole report -/

/-- A report depends on nothing but what it shows. -/
theorem SameShown.dump_eq (h : m.SameShown n) (text : String) : m.dump text = n.dump text := by
  have hregisters : m.registers = n.registers := Vector.ext fun x hx => h.registers ⟨x, hx⟩
  have hreturns : m.stack.returns = n.stack.returns := List.reverse_inj.1 h.stack
  have hlatch : latchText m.keypad.latch = latchText n.keypad.latch := by
    unfold latchText
    rw [h.asserted]
    split_ifs with hasserted
    · rw [h.key (h.asserted.trans hasserted)]
    · rfl
  have hstack : stackText m.stack = stackText n.stack := by
    unfold stackText
    rw [h.stack, hreturns]
  have hsize : m.stack.size = n.stack.size := congrArg List.length hreturns
  unfold dump line
  rw [hregisters, h.index, h.delay, h.sound, h.begun, h.opcode, hsize, hstack, hlatch,
    h.awaitingKey]

/-- **A report loses nothing.** Two reports on any two machines, each with a text of one line for the
instruction, are equal just if the texts are, and the machines agree in all that is shown: the
registers and the index register, the timers, the instruction begun last and its opcode, the whole
stack, whether a key is latched and which, and whether the machine waits for one. -/
theorem dump_eq_iff (m n : Machine) {text text' : String} (htext : Text.IsLine text)
    (htext' : Text.IsLine text') : m.dump text = n.dump text' ↔ text = text' ∧ m.SameShown n := by
  constructor
  · intro h
    unfold dump at h
    simp only [String.append_assoc] at h
    obtain ⟨hline, h⟩ := Text.cut_inj '\n' h (by decide) (isLine_line m htext) (isLine_line n htext')
    obtain ⟨-, h⟩ := Text.cut_inj '\n' h (by decide) (Text.isLine_toString _)
      (Text.isLine_toString _)
    obtain ⟨hstack, h⟩ := Text.cut_inj '\n' h (by decide) (isLine_stackText _) (isLine_stackText _)
    obtain ⟨hlatch, hwaiting⟩ := keypad_line_inj h
    obtain ⟨hregisters, hindex, hdelay, hsound, hbegun, hopcode, htexts⟩ := line_inj hline
    obtain ⟨hasserted, hkey⟩ := latchText_inj hlatch
    exact ⟨htexts,
      { registers := fun x => congrArg (·.get x) hregisters
        index := hindex
        delay := hdelay
        sound := hsound
        begun := hbegun
        opcode := hopcode
        stack := stackText_inj hstack
        asserted := hasserted
        key := hkey
        awaitingKey := hwaiting }⟩
  · rintro ⟨rfl, h⟩
    exact h.dump_eq text

/-- A machine that has found the last key, and let go of it. -/
def letGo : Machine :=
  { standard [] with keypad := { Keypad.released digitKeymap with latch := ⟨Fin.last 15, false⟩ } }

/-- A key that is latched but not asserted is not shown; that the machine waits for one is. -/
theorem dump_eq_iff_of_let_go :
    Text.IsLine "LD V0, K" ∧ (standard []).dump "LD V0, K" = letGo.dump "LD V0, K" ∧
      { letGo with awaitingKey := true }.dump "LD V0, K" ≠ letGo.dump "LD V0, K" := by
  have htext : Text.IsLine "LD V0, K" := by decide
  refine ⟨htext, ?_, ?_⟩
  · exact (dump_eq_iff _ _ htext htext).2 ⟨rfl,
      { registers := fun _ => rfl
        index := rfl
        delay := rfl
        sound := rfl
        begun := rfl
        opcode := rfl
        stack := rfl
        asserted := rfl
        key := nofun
        awaitingKey := rfl }⟩
  · intro h
    obtain ⟨-, hshown⟩ := (dump_eq_iff _ _ htext htext).1 h
    cases hshown.awaitingKey

end Machine

end Chip8
