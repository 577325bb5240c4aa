import Chip8.Action

/-!
# The call stack

Return addresses, kept apart from memory. A push on a full stack and a pop from an empty one are
faults and leave the stack as it is.
-/

namespace Chip8

/-- Return addresses, the latest first, and how many there may be. -/
structure CallStack where
  returns : List Int
  depth : Int
  deriving DecidableEq, Inhabited

namespace CallStack

/-- An empty stack for `depth` return addresses. -/
def empty (depth : Int) : CallStack := ⟨[], depth⟩

/-- How many return addresses the stack holds. -/
def size (s : CallStack) : Nat := s.returns.length

/-- The return addresses, the oldest first. -/
def toList (s : CallStack) : List Int := s.returns.reverse

/-- Puts a return address on the stack. -/
def push (address : Int) : Action CallStack Unit := do
  let s ← get
  if s.depth ≤ s.size then Action.fault (.stackFull s.depth)
  else set { s with returns := address :: s.returns }

/-- Takes the latest return address from the stack. -/
def pop : Action CallStack Int := do
  let s ← get
  match s.returns with
  | [] => Action.fault .stackEmpty
  | address :: returns =>
    set { s with returns }
    return address

@[simp] theorem toList_empty (depth : Int) : (empty depth).toList = [] := rfl

@[simp] theorem length_toList (s : CallStack) : s.toList.length = s.size := by
  simp [toList, size]

theorem push_apply (address : Int) (s : CallStack) :
    push address s =
      if s.depth ≤ s.size then .error (.fault (.ofCause (.stackFull s.depth))) s
      else .ok () { s with returns := address :: s.returns } := by
  by_cases h : s.depth ≤ s.size <;> simp [push, h]

theorem pop_apply (s : CallStack) :
    pop s = match s.returns with
      | [] => .error (.fault (.ofCause .stackEmpty)) s
      | address :: returns => .ok address { s with returns } := by
  cases h : s.returns <;> simp [pop, h]

end CallStack

end Chip8
