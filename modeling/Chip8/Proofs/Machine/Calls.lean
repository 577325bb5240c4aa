import Chip8.Proofs.Machine.History
import Mathlib.Data.List.Infix

/-!
# Calls and returns

The call stack as the history of a machine has it.

* `Beat.returnsAfter` is what an entry of a history does to the return addresses, and
  `History.returns_eq` says that a machine's stack changes in no other way;
* `Machine.Deep` is a history in which the stack is always higher than a given size, and
  `returns_of_deep` says that the return which ends it takes the machine back to where the call was;
* `Beat.openReturns` are the return addresses of the calls that no return answers, and
  `foldl_returnsAfter` says that they are what a history leaves on the stack;
* `calls_nest` puts both together for all machines that come about from one that was created.
-/

namespace Chip8.Machine

namespace Beat

/-- The return address that a call leaves on the stack: the instruction after it. -/
def returnAddress? : Beat → Option Int
  | .completed a (.call _) => some (a + 2)
  | _ => none

def isCall (b : Beat) : Bool := b.returnAddress?.isSome

def isReturn : Beat → Bool
  | .completed _ .ret => true
  | _ => false

/-- The return addresses after an entry, the latest first, given those before it. -/
def returnsAfter (b : Beat) (returns : List Int) : List Int :=
  match b.returnAddress? with
  | some a => a :: returns
  | none => if b.isReturn then returns.tail else returns

@[simp] theorem isCall_call (a : Int) (t : Fin 4096) : (completed a (.call t)).isCall = true := rfl

@[simp] theorem isReturn_call (a : Int) (t : Fin 4096) :
    (completed a (.call t)).isReturn = false := rfl

@[simp] theorem returnsAfter_call (a : Int) (t : Fin 4096) (returns : List Int) :
    (completed a (.call t)).returnsAfter returns = (a + 2) :: returns := rfl

@[simp] theorem isCall_ret (a : Int) : (completed a .ret).isCall = false := rfl

@[simp] theorem isReturn_ret (a : Int) : (completed a .ret).isReturn = true := rfl

@[simp] theorem returnsAfter_ret (a : Int) (returns : List Int) :
    (completed a .ret).returnsAfter returns = returns.tail := rfl

/-- An entry is a call, a return, or neither. -/
theorem call_or_return (b : Beat) :
    (∃ a t, b = .completed a (.call t)) ∨ (∃ a, b = .completed a .ret) ∨
      (b.isCall = false ∧ b.isReturn = false) := by
  cases b with
  | completed a op =>
    cases op with
    | call t => exact .inl ⟨a, t, rfl⟩
    | ret => exact .inr (.inl ⟨a, rfl⟩)
    | _ => exact .inr (.inr ⟨rfl, rfl⟩)
  | _ => exact .inr (.inr ⟨rfl, rfl⟩)

theorem returnAddress?_eq_none {b : Beat} (h : b.isCall = false) : b.returnAddress? = none := by
  simpa [isCall] using h

theorem returnsAfter_of_neither {b : Beat} (h : b.isCall = false ∧ b.isReturn = false)
    (returns : List Int) : b.returnsAfter returns = returns := by
  simp [returnsAfter, returnAddress?_eq_none h.1, h.2]

end Beat

variable {m m' m₁ : Machine} {b : Beat} {bs : List Beat}

/-! ### The stack along a history -/

/-- An entry that completes an instruction does so at the program counter. -/
theorem Move.of_completed {a : Int} {op : Operation} (hm : m.Intact)
    (h : Move m (.completed a op) m') :
    a = m.pc ∧ (0 ≤ m.pc ∧ m.pc ≤ 0xFFE) ∧
      (m.ready (op.instruction m.nextWord)).refusal? (op.instruction m.nextWord) = none ∧
      m' = m.stepped (op.instruction m.nextWord) := by
  cases h with
  | completed hop h =>
    obtain ⟨-, hpc, i, hi, hg, rfl⟩ := hm.of_step_ok h
    obtain rfl := Option.some.inj (hi.symm.trans (Instruction.decode?_of_ofOpcode? hop))
    exact ⟨rfl, hpc, hg, rfl⟩

/-- A call leaves the address of the instruction after it on the stack. -/
theorem Move.of_call {a : Int} {t : Fin 4096} (hm : m.Intact)
    (h : Move m (.completed a (.call t)) m') :
    m'.pc = t ∧ m'.stack.returns = (a + 2) :: m.stack.returns := by
  obtain ⟨rfl, hpc, -, rfl⟩ := h.of_completed hm
  have hnext : m.fetched.pc = m.pc + 2 := pc_fetched hpc
  refine ⟨rfl, ?_⟩
  rw [← hnext]
  rfl

/-- A return goes on at the latest return address, which it takes from the stack. -/
theorem Move.of_ret {a : Int} (hm : m.Intact) (h : Move m (.completed a .ret) m') :
    m.stack.returns = m'.pc :: m'.stack.returns := by
  obtain ⟨-, -, hg, rfl⟩ := h.of_completed hm
  cases hs : m.stack.returns with
  | nil =>
    have hempty : (m.ready (Operation.ret.instruction m.nextWord)).stack.returns = [] := hs
    simp [refusal?, hempty] at hg
  | cons r returns =>
    let i := Operation.ret.instruction m.nextWord
    have hpc : (m.stepped i).pc = m.stack.returns.headD 0 := rfl
    have hreturns : (m.stepped i).stack.returns = m.stack.returns.tail := rfl
    rw [hpc, hreturns, hs]
    rfl

/-- The operation ahead is completed, if it is not refused. -/
theorem NextIs.move {op : Operation} (h : m.NextIs op) (hop : ∀ a, op ≠ .machineCode a)
    (hm : m.Intact) (hf : m.fault = none)
    (hg : (m.ready (op.instruction m.nextWord)).refusal? (op.instruction m.nextWord) = none) :
    Move m (.completed m.pc op) (m.stepped (op.instruction m.nextWord)) :=
  .completed (h.ofOpcode? hop) (h.step_eq hop hm hf hg)

/-- A call is completed if there is room on the stack. -/
theorem NextIs.call {t : Fin 4096} (h : m.NextIs (.call t)) (hm : m.Intact) (hf : m.fault = none)
    (hroom : m.stack.size < 48) :
    ∃ m', Move m (.completed m.pc (.call t)) m' ∧ m'.memory = m.memory ∧ m'.fault = none := by
  let i := (Operation.call t).instruction m.nextWord
  have hg : (m.ready i).refusal? i = none := by
    refine if_neg ?_
    show ¬ m.stack.depth ≤ m.stack.size
    rw [hm.depth]
    omega
  exact ⟨_, h.move nofun hm hf hg, rfl, hf⟩

/-- A return is completed if there is something on the stack. -/
theorem NextIs.ret (h : m.NextIs .ret) (hm : m.Intact) (hf : m.fault = none)
    (hreturns : m.stack.returns ≠ []) :
    ∃ m', Move m (.completed m.pc .ret) m' ∧ m'.memory = m.memory ∧ m'.fault = none :=
  ⟨_, h.move nofun hm hf (if_neg hreturns), rfl, hf⟩

/-- A host does not touch the call stack between frames. -/
theorem stack_hosted {e : Event} (he : e.isHosted = true) (m : Machine) :
    (e.after m).stack = m.stack := by
  cases e with
  | step | frame => cases he
  | hostKey code down | setCycles c | reset a => rfl
  | hold index down =>
    show (Action.state (onKeypad (Keypad.hold index down) m)).stack = m.stack
    unfold onKeypad Keypad.hold
    cases place? 16 index <;> rfl

/-- Nothing but calls and returns changes the stack, faults included. -/
theorem Move.stack_eq (hm : m.Intact) (h : Move m b m')
    (hb : b.isCall = false ∧ b.isReturn = false) : m'.stack = m.stack := by
  cases h with
  | @completed _ op hop h =>
    obtain ⟨-, -, -, rfl⟩ := (Move.completed hop h).of_completed hm
    cases op with
    | call t => cases hb.1
    | ret => cases hb.2
    | _ => rfl
  | faulted hf h =>
    obtain ⟨f, -, hm'⟩ := hm.of_step_error h
    rw [hm']
  | ticked => rfl
  | hosted e he => exact stack_hosted he m

theorem Move.returns_eq (hm : m.Intact) (h : Move m b m') :
    m'.stack.returns = b.returnsAfter m.stack.returns := by
  rcases b.call_or_return with ⟨a, t, rfl⟩ | ⟨a, rfl⟩ | hb
  · exact (h.of_call hm).2
  · rw [h.of_ret hm]
    rfl
  · rw [h.stack_eq hm hb, Beat.returnsAfter_of_neither hb]

theorem History.intact (hm : m.Intact) (h : History m bs m') : m'.Intact := by
  induction h with
  | nil => exact hm
  | cons h _ ih => exact ih (h.intact hm)

/-- **What a history does to the stack, entry by entry.** -/
theorem History.returns_eq (hm : m.Intact) (h : History m bs m') :
    m'.stack.returns = bs.foldl (fun returns b => b.returnsAfter returns) m.stack.returns := by
  induction h with
  | nil => rfl
  | cons h _ ih => rw [ih (h.intact hm), h.returns_eq hm, List.foldl_cons]

/-- The stack grows by one with each call and shrinks by one with each return. -/
theorem History.size_stack (hm : m.Intact) (h : History m bs m') :
    m'.stack.size + bs.countP Beat.isReturn = m.stack.size + bs.countP Beat.isCall := by
  induction h with
  | nil => rfl
  | @cons m m₁ m' b bs h _ ih =>
    have hsize := congrArg List.length (h.returns_eq hm)
    have hrest := ih (h.intact hm)
    unfold CallStack.size at *
    rcases b.call_or_return with ⟨a, t, rfl⟩ | ⟨a, rfl⟩ | hb
    · simp [List.countP_cons] at hsize ⊢
      omega
    · have hlength := congrArg List.length (h.of_ret hm)
      simp [List.countP_cons] at hlength ⊢
      omega
    · simp [Beat.returnsAfter_of_neither hb] at hsize
      simp [hb]
      omega

/-! ### From a call to its return -/

/-- The entries lead from one machine to another, and the stack holds more than `n` return addresses
all the way, at both ends too. -/
inductive Deep (n : Nat) : Machine → List Beat → Machine → Prop
  | nil {m : Machine} (h : n < m.stack.size) : Deep n m [] m
  | cons {m m₁ m' : Machine} {b : Beat} {bs : List Beat} (h : n < m.stack.size) (hb : Move m b m₁)
      (hs : Deep n m₁ bs m') : Deep n m (b :: bs) m'

theorem Deep.lt_size {n : Nat} (h : Deep n m bs m') : n < m.stack.size := by
  cases h <;> assumption

theorem Deep.history {n : Nat} (h : Deep n m bs m') : History m bs m' := by
  induction h with
  | nil => exact .nil _
  | cons _ hb _ ih => exact .cons hb ih

/-- What lies at the bottom of a stack stays there as long as the stack is not lower. -/
theorem Beat.suffix_returnsAfter {s returns : List Int} (hs : s <:+ returns) (b : Beat)
    (h : s.length ≤ (b.returnsAfter returns).length) : s <:+ b.returnsAfter returns := by
  rcases b.call_or_return with ⟨a, t, rfl⟩ | ⟨a, rfl⟩ | hb
  · exact hs.trans (List.suffix_cons _ _)
  · cases returns with
    | nil => exact hs
    | cons r returns =>
      rcases List.suffix_cons_iff.1 hs with rfl | hs
      · have hlength : (r :: returns).length ≤ returns.length := h
        simp at hlength
      · exact hs
  · rw [Beat.returnsAfter_of_neither hb]
    exact hs

theorem Deep.suffix {n : Nat} {s : List Int} (hm : m.Intact) (h : Deep n m bs m')
    (hlength : s.length = n + 1) (hs : s <:+ m.stack.returns) : s <:+ m'.stack.returns := by
  induction h with
  | nil => exact hs
  | @cons m m₁ m' b bs _ hb hrest ih =>
    have hlt : n < m₁.stack.returns.length := hrest.lt_size
    refine ih (hb.intact hm) ?_
    rw [hb.returns_eq hm] at hlt ⊢
    exact b.suffix_returnsAfter hs (by omega)

/-- **A call comes back.** Whatever happens while the stack is higher than it was before a call, the
return that makes it as high again goes on after the call, and leaves the stack as it was. -/
theorem returns_of_deep {a b : Int} {t : Fin 4096} {m₂ m₃ : Machine} (hm : m.Intact)
    (hcall : Move m (.completed a (.call t)) m₁) (hdeep : Deep m.stack.size m₁ bs m₂)
    (hret : Move m₂ (.completed b .ret) m₃) (hsize : m₃.stack.size = m.stack.size) :
    m₃.pc = a + 2 ∧ m₃.stack = m.stack := by
  have hm₁ := hcall.intact hm
  have hm₂ := hdeep.history.intact hm₁
  have hm₃ := hret.intact hm₂
  have hsuffix : (a + 2) :: m.stack.returns <:+ m₂.stack.returns :=
    hdeep.suffix hm₁ rfl ((hcall.of_call hm).2 ▸ List.suffix_rfl)
  rw [hret.of_ret hm₂] at hsuffix
  have hlength : ((a + 2) :: m.stack.returns).length = (m₃.pc :: m₃.stack.returns).length :=
    congrArg (· + 1) hsize.symm
  obtain ⟨hpc, hreturns⟩ := List.cons.inj (hsuffix.eq_of_length hlength)
  refine ⟨hpc.symm, ?_⟩
  have hdepth : m₃.stack.depth = m.stack.depth := hm₃.depth.trans hm.depth.symm
  cases hs₃ : m₃.stack
  cases hs : m.stack
  simp_all

/-! ### Calls that are still open -/

namespace Beat

/-- No return answers a call from before the entries: wherever they are cut off, they have no more
returns than calls. -/
def SelfContained (bs : List Beat) : Prop :=
  ∀ cs, cs <+: bs → cs.countP isReturn ≤ cs.countP isCall

instance (bs : List Beat) : Decidable (SelfContained bs) :=
  decidable_of_iff (∀ cs ∈ bs.inits, cs.countP isReturn ≤ cs.countP isCall)
    (by simp only [List.mem_inits, SelfContained])

/-- The return addresses of the calls that are still open, the oldest call first. A call is open
unless the entries after it have a return that answers it. -/
def openReturns : List Beat → List Int
  | [] => []
  | b :: bs => (if SelfContained bs then b.returnAddress?.toList else []) ++ openReturns bs

/-- How many returns answer calls from before the entries. -/
def excess : List Beat → Nat
  | [] => 0
  | b :: bs => excess bs + (if b.isReturn then 1 else 0) - (if b.isCall then 1 else 0)

/-- What holds of all beginnings of a list with one entry more in front. -/
theorem forall_prefix_cons {b : Beat} {bs : List Beat} {P : List Beat → Prop} :
    (∀ cs, cs <+: b :: bs → P cs) ↔ P [] ∧ ∀ cs, cs <+: bs → P (b :: cs) := by
  constructor
  · intro h
    exact ⟨h [] List.nil_prefix, fun cs hcs => h _ (List.cons_prefix_cons.2 ⟨rfl, hcs⟩)⟩
  · rintro ⟨hnil, hcons⟩ cs hcs
    rcases List.prefix_cons_iff.1 hcs with rfl | ⟨ds, rfl, hds⟩
    · exact hnil
    · exact hcons ds hds

/-- The excess is the least bound on how many more returns than calls there are, wherever the
entries are cut off. -/
theorem excess_le_iff (bs : List Beat) (d : Nat) :
    excess bs ≤ d ↔ ∀ cs, cs <+: bs → cs.countP isReturn ≤ cs.countP isCall + d := by
  induction bs generalizing d with
  | nil => simp [excess]
  | cons b bs ih =>
    rw [forall_prefix_cons]
    rcases b.call_or_return with ⟨a, t, rfl⟩ | ⟨a, rfl⟩ | hb
    · have hcall : excess (completed a (.call t) :: bs) ≤ d ↔ excess bs ≤ d + 1 := by
        simp [excess]
      rw [hcall, ih]
      simp [List.countP_cons, Nat.add_assoc, Nat.add_comm 1]
    · -- A return needs a bound of at least one, of which one is left for the entries after it.
      have hret : excess (completed a .ret :: bs) ≤ d ↔ 1 ≤ d ∧ excess bs ≤ d - 1 := by
        simp [excess]
        omega
      rw [hret, ih]
      simp only [List.countP_nil, Nat.zero_le, true_and, List.countP_cons, isReturn_ret, isCall_ret]
      constructor
      · rintro ⟨hd, h⟩ cs hcs
        have := h cs hcs
        simp
        omega
      · intro h
        have hnil := h [] List.nil_prefix
        refine ⟨by simpa using hnil, fun cs hcs => ?_⟩
        have := h cs hcs
        simp at this
        omega
    · simp [excess, hb, ih d]

theorem selfContained_iff (bs : List Beat) : SelfContained bs ↔ excess bs = 0 := by
  rw [← Nat.le_zero, excess_le_iff]
  rfl

/-- **What is on the stack after a history** are the return addresses of its open calls, on top of
what it has left of the stack before. -/
theorem foldl_returnsAfter (bs : List Beat) (returns : List Int) :
    bs.foldl (fun returns b => b.returnsAfter returns) returns =
      (openReturns bs).reverse ++ returns.drop (excess bs) := by
  induction bs generalizing returns with
  | nil => rfl
  | cons b bs ih =>
    rw [List.foldl_cons, ih]
    simp only [openReturns, excess, selfContained_iff]
    rcases b.call_or_return with ⟨a, t, rfl⟩ | ⟨a, rfl⟩ | hb
    · cases excess bs <;> simp [returnAddress?]
    · simp [returnAddress?]
    · simp [returnsAfter_of_neither hb, returnAddress?_eq_none hb.1, hb]

end Beat

/-- What a machine that was created has on its stack: the return addresses of its open calls. -/
theorem History.toList_stack (hm : m.Intact) (hempty : m.stack.returns = [])
    (h : History m bs m') : m'.stack.toList = Beat.openReturns bs := by
  unfold CallStack.toList
  rw [h.returns_eq hm, hempty, Beat.foldl_returnsAfter]
  simp

/-- **Calls and returns nest.** Each run of a machine that was created has a history. At each point
of such a history, the stack is the list of the return addresses of the open calls, and it is as
high as the calls outnumber the returns; a call that is made there is completed if there is room,
and it comes back to where it was made, with the stack as it was. -/
theorem calls_nest {program : List UInt8} {keymap : Keymap} {display : Display}
    {random : RandomSource} {settings : Settings} {m₀ : Machine}
    (h₀ : create program keymap display random settings = .ok m₀) :
    (∀ es : List Event, ∃ bs, History m₀ bs (Event.afterAll es m₀) ∧
      bs.filterMap Beat.event? = es.filter Event.isHosted) ∧
    ∀ (bs : List Beat) (m : Machine), History m₀ bs m →
      m.stack.toList = Beat.openReturns bs ∧
      (m.stack.size : Int) = (bs.countP Beat.isCall : Int) - (bs.countP Beat.isReturn : Int) ∧
      (∀ t, m.NextIs (.call t) → m.fault = none → m.stack.size < 48 →
        ∃ m₁, Move m (.completed m.pc (.call t)) m₁) ∧
      ∀ (a b : Int) (t : Fin 4096) (cs : List Beat) (m₁ m₂ m₃ : Machine),
        Move m (.completed a (.call t)) m₁ → Deep m.stack.size m₁ cs m₂ →
        Move m₂ (.completed b .ret) m₃ → m₃.stack.size = m.stack.size →
        m₃.pc = a + 2 ∧ m₃.stack = m.stack := by
  have hm₀ : m₀.Intact := (WellFormed.of_create h₀).toIntact
  have hempty : m₀.stack.returns = [] := by
    obtain ⟨-, timers, -, rfl⟩ := create_eq_ok_iff.1 h₀
    rfl
  constructor
  · intro es
    obtain ⟨bs, hbs, -, hevents⟩ := exists_history hm₀ es
    exact ⟨bs, hbs, hevents⟩
  · intro bs m hbs
    have hm := hbs.intact hm₀
    refine ⟨hbs.toList_stack hm₀ hempty, ?_, ?_, ?_⟩
    · have hsize := hbs.size_stack hm₀
      simp only [CallStack.size, hempty, List.length_nil] at hsize ⊢
      omega
    · intro t hnext hf hroom
      obtain ⟨m₁, hcall, -⟩ := hnext.call hm hf hroom
      exact ⟨m₁, hcall⟩
    · intro a b t cs m₁ m₂ m₃ hcall hdeep hret hsize
      exact returns_of_deep hm hcall hdeep hret hsize

/-- A program that calls a routine at `0x204`, which calls another one at `0x208`. -/
def nestedProgram : List UInt8 := [0x22, 0x04, 0x12, 0x02, 0x22, 0x08, 0x00, 0xEE, 0x00, 0xEE]

/-- The outer call comes back after the inner one, to where it was made. -/
theorem calls_nest_of_two_routines :
    ∃ m₁ m₂ m₃, Move (standard nestedProgram) (.completed 0x200 (.call 0x204)) m₁ ∧
      Deep 0 m₁ [.completed 0x204 (.call 0x208), .completed 0x208 .ret] m₂ ∧
      m₂.stack.toList = [0x202] ∧ Move m₂ (.completed 0x206 .ret) m₃ ∧ m₃.pc = 0x202 ∧
      m₃.stack = (standard nestedProgram).stack := by
  have h₀ := create_standard nestedProgram (by decide)
  have hm₀ : (standard nestedProgram).Intact := (WellFormed.of_create h₀).toIntact
  have hempty : (standard nestedProgram).stack.returns = [] := rfl
  -- The four instructions one after the other: two calls, and two returns.
  have houter : (standard nestedProgram).NextIs (.call 0x204) := ⟨by decide, nextWord_standard⟩
  obtain ⟨m₁, hcall, hmem₁, hf₁⟩ := houter.call hm₀ rfl (by decide)
  obtain ⟨hpc₁, hreturns₁⟩ := hcall.of_call hm₀
  have hm₁ := hcall.intact hm₀
  have hinner : m₁.NextIs (.call 0x208) :=
    ⟨hpc₁ ▸ by decide, nextWord_of_standard (j := 4) hmem₁ hpc₁ (by decide) (by decide)⟩
  obtain ⟨n₁, hcall₁, hmem₂, hf₂⟩ :=
    hinner.call hm₁ hf₁ (by simp [CallStack.size, hreturns₁, hempty])
  obtain ⟨hpc₂, hreturns₂⟩ := hcall₁.of_call hm₁
  have hn₁ := hcall₁.intact hm₁
  have hback : n₁.NextIs .ret :=
    ⟨hpc₂ ▸ by decide,
      nextWord_of_standard (j := 8) (hmem₂.trans hmem₁) hpc₂ (by decide) (by decide)⟩
  obtain ⟨m₂, hret₁, hmem₃, hf₃⟩ := hback.ret hn₁ hf₂ (by simp [hreturns₂])
  have hm₂ := hret₁.intact hn₁
  have hreturns₃ : [(0x206 : Int), 0x202] = m₂.pc :: m₂.stack.returns := by
    rw [← hret₁.of_ret hn₁, hreturns₂, hreturns₁, hpc₁, hempty]
    rfl
  obtain ⟨hpc₃, hreturns₃⟩ := List.cons.inj hreturns₃
  have hagain : m₂.NextIs .ret :=
    ⟨hpc₃ ▸ by decide, nextWord_of_standard (j := 6) (hmem₃.trans (hmem₂.trans hmem₁))
      hpc₃.symm (by decide) (by decide)⟩
  obtain ⟨m₃, hret, -, -⟩ := hagain.ret hm₂ hf₃ (by simp [← hreturns₃])
  have hreturns₄ : [(0x202 : Int)] = m₃.pc :: m₃.stack.returns := hreturns₃.trans (hret.of_ret hm₂)
  have hdeep : Deep 0 m₁ [.completed 0x204 (.call 0x208), .completed 0x208 .ret] m₂ := by
    refine .cons (by simp [CallStack.size, hreturns₁]) (hpc₁ ▸ hcall₁) ?_
    refine .cons (by simp [CallStack.size, hreturns₂]) (hpc₂ ▸ hret₁) ?_
    exact .nil (by simp [CallStack.size, ← hreturns₃])
  obtain ⟨-, -, -, hnest⟩ := (calls_nest h₀).2 [] _ (.nil _)
  have hsize : m₃.stack.size = (standard nestedProgram).stack.size :=
    congrArg List.length (List.cons.inj hreturns₄).2.symm
  obtain ⟨hpc, hstack⟩ := hnest 0x200 _ _ _ m₁ m₂ m₃ hcall hdeep hret hsize
  have hlist : m₂.stack.toList = [0x202] := by simp [CallStack.toList, ← hreturns₃]
  exact ⟨m₁, m₂, m₃, hcall, hdeep, hlist, hpc₃ ▸ hret, hpc, hstack⟩

end Chip8.Machine
