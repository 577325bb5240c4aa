import Chip8.Error

/-!
# Actions

`Action σ α` is the type of operations on a state `σ` with a result in `α`. An operation that fails
still leaves a state, so that what a failure changes is part of what an operation does.

`Action.fault` ends with a fault, `Action.on` runs an operation on a part of a larger state, and
`Action.state` is what an operation leaves behind. The lemmas at the end say what each way to build
an action does to a state.
-/

namespace Chip8

/-- An operation on a state. It ends with a result or with an error, and with a state in both
cases. -/
abbrev Action (σ α : Type) := EStateM Error σ α

namespace Action

variable {σ τ α : Type}

/-- Ends with a fault whose place is not known yet. -/
def fault (cause : Cause) : Action σ α := throw (.fault (.ofCause cause))

/-- Runs an operation on a part of a state. The part is taken out of the whole meanwhile, so that
it can be updated in place. -/
@[inline] def on [Inhabited τ] (part : σ → τ) (replace : σ → τ → σ) (a : Action τ α) : Action σ α :=
  fun s =>
    let t := part s
    let s := replace s default
    match a t with
    | .ok r t => .ok r (replace s t)
    | .error e t => .error e (replace s t)

/-- The state that an action leaves behind, also when it fails. -/
def state : EStateM.Result Error σ α → σ
  | .ok _ s | .error _ s => s

/-! ### Running an action on a state -/

variable {β : Type} (s : σ)

@[simp] theorem pure_apply (r : α) : (pure r : Action σ α) s = .ok r s := rfl

@[simp] theorem throw_apply (e : Error) : (throw e : Action σ α) s = .error e s := rfl

@[simp] theorem get_apply : (get : Action σ σ) s = .ok s s := rfl

@[simp] theorem set_apply (t : σ) : (set t : Action σ PUnit) s = .ok ⟨⟩ t := rfl

@[simp] theorem modify_apply (f : σ → σ) : (modify f : Action σ PUnit) s = .ok ⟨⟩ (f s) := rfl

@[simp] theorem bind_apply (a : Action σ α) (f : α → Action σ β) :
    (a >>= f) s = match a s with
      | .ok r t => f r t
      | .error e t => .error e t := by
  change EStateM.bind a f s = _
  cases h : a s <;> simp [EStateM.bind, h]

@[simp] theorem map_apply (f : α → β) (a : Action σ α) :
    (f <$> a) s = match a s with
      | .ok r t => .ok (f r) t
      | .error e t => .error e t := by
  change EStateM.map f a s = _
  cases h : a s <;> simp [EStateM.map, h]

@[simp] theorem fault_apply (cause : Cause) :
    (fault cause : Action σ α) s = .error (.fault (.ofCause cause)) s := rfl

end Action

end Chip8
