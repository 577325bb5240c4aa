import Chip8.Proofs.CommandLine.Accepted
import Chip8.Proofs.Text.Decimal

/-!
# A reload value on the command line

What becomes of a command line in front of which a reload value is put.

* `Options.withReload` are the options with a reload value, if they leave it open;
* `State.take_withReload` says that the parser takes each token in the same way, whether or not it
  has read a reload value before;
* `parse_reload` says that a command line with a reload value in front of it is accepted just if it
  is accepted as it stands, and comes to the same options but for that value.
-/

namespace Chip8

/-- The options with this reload value, if they leave it open. -/
def Options.withReload (r : Int) (o : Options) : Options :=
  if o.timerReload = some .unset then { o with timerReload := some (.value r) } else o

namespace CommandLine

variable {arguments : List String} {o : Options} {s : Switch} {flags : List Switch}
  {value : Given String} {r : Int}

/-- Two computations that agree up to a map at the first step, and from there on at the second one,
agree up to a map. -/
theorem bind_eq_map_bind {α β : Type} {f : α → α} {g : β → β} {x x' : Except Exit α}
    {k k' : α → Except Exit β} (hx : x' = f <$> x)
    (hk : ∀ a, x = .ok a → k' (f a) = g <$> k a) : (x' >>= k') = g <$> (x >>= k) := by
  subst hx
  cases x with
  | error e => rfl
  | ok a => exact hk a rfl

/-! ### Options -/

theorem filename_withReload (r : Int) (o : Options) : (o.withReload r).filename = o.filename := by
  unfold Options.withReload
  split_ifs <;> rfl

/-- A change that does not look at the reload value is the same with another one. -/
theorem update_withReload {f : Options → Options}
    (hf : ∀ o t, f { o with timerReload := t } = { f o with timerReload := t }) :
    f (o.withReload r) = (f o).withReload r := by
  have hkeeps := congrArg Options.timerReload (hf o o.timerReload)
  change (f o).timerReload = o.timerReload at hkeeps
  unfold Options.withReload
  rw [hkeeps]
  split_ifs
  · exact hf o _
  · rfl

/-- A switch with its value sets its option in the same way if a reload value has been read before,
and replaces that one if it sets the reload value itself. -/
theorem setOption_withReload (hvalue : s.takesValue = true → value ≠ .unset) :
    setOption (o.withReload r) s value = Options.withReload r <$> setOption o s value := by
  -- All switches but the one for the reload value change some other option.
  have hother {α : Type} (x : Except Exit α) (f : α → Options → Options)
      (hf : ∀ a o t, f a { o with timerReload := t } = { f a o with timerReload := t }) :
      (x >>= fun a => .ok (f a (o.withReload r))) =
        Options.withReload r <$> (x >>= fun a => .ok (f a o)) :=
    bind_eq_map_bind (id_map x).symm fun a _ => congrArg Except.ok (update_withReload (hf a))
  cases s with
  | help => rfl
  | debug =>
    exact hother (.ok true) (fun a o => { o with debug := some (.value a) }) fun _ _ _ => rfl
  | keymap => exact hother (.ok value) (fun a o => { o with keymap := some a }) fun _ _ _ => rfl
  | start =>
    exact hother (value.read readStart) (fun a o => { o with start := some a }) fun _ _ _ => rfl
  | cycles =>
    exact hother (value.read (readInteger .cycles)) (fun a o => { o with cycles := some a })
      fun _ _ _ => rfl
  | renderer =>
    exact hother (value.read readRenderer) (fun a o => { o with renderer := some a })
      fun _ _ _ => rfl
  | scale =>
    exact hother (value.read (readInteger .scale)) (fun a o => { o with scale := some a })
      fun _ _ _ => rfl
  | timerReload =>
    refine bind_eq_map_bind (id_map (value.read readReload)).symm fun read hread => ?_
    have hset : some read ≠ some .unset := by
      rcases stands_of_read (fun _ _ _ => trivial) (hvalue rfl) hread with h | ⟨a, h, -⟩ <;>
        rw [h] <;> nofun
    have hreplaced : { o.withReload r with timerReload := some read } =
        { o with timerReload := some read } := by
      unfold Options.withReload
      split_ifs <;> rfl
    refine congrArg Except.ok (hreplaced.trans ?_)
    exact (if_neg hset).symm

theorem setFlags_withReload (hflags : Flags flags) :
    setFlags (o.withReload r) flags = Options.withReload r <$> setFlags o flags := by
  unfold setFlags
  induction flags generalizing o with
  | nil => rfl
  | cons s flags ih =>
    obtain ⟨hs, hrest⟩ := List.forall_mem_cons.1 hflags
    rw [List.foldlM_cons, List.foldlM_cons]
    exact bind_eq_map_bind (setOption_withReload (by simp [hs])) fun o _ => ih hrest

/-! ### Tokens -/

/-- The same has been read, and this reload value before. -/
def State.withReload (r : Int) (st : State) : State :=
  { st with options := st.options.withReload r }

namespace State

variable {st : State}

theorem takePlain_withReload (text : String) :
    (st.withReload r).takePlain text = (st.takePlain text).withReload r := by
  unfold takePlain withReload
  rw [filename_withReload]
  split_ifs
  · rw [update_withReload (f := fun o => { o with filename := some (.value text) }) fun _ _ => rfl]
  · rfl

theorem takeSeparator_withReload :
    (st.withReload r).takeSeparator = st.takeSeparator.withReload r := by
  unfold takeSeparator withReload
  rw [filename_withReload]
  split_ifs <;> rfl

theorem takeSwitch_withReload (s : Switch) (short : Bool) (joined : Option String) :
    (st.withReload r).takeSwitch s short joined =
      withReload r <$> st.takeSwitch s short joined := by
  refine bind_eq_map_bind (id_map (resolve s short joined)).symm fun resolved hresolve => ?_
  obtain ⟨flags, last, text⟩ := resolved
  have hflags := flags_of_resolve hresolve
  cases text with
  | some text =>
    refine bind_eq_map_bind (setFlags_withReload hflags) fun o _ => ?_
    exact bind_eq_map_bind (setOption_withReload fun _ => given_ne_unset text) fun _ _ => rfl
  | none =>
    by_cases hvalue : last.takesValue = true
    · simp only [id_eq, if_pos hvalue]
      rfl
    · simp only [id_eq, if_neg hvalue]
      exact bind_eq_map_bind (setFlags_withReload (hflags.concat hvalue)) fun _ _ => rfl

/-- Each token is taken in the same way if a reload value has been read before. -/
theorem take_withReload (hst : st.Sound arguments) (t : Token) :
    (st.withReload r).take t = withReload r <$> st.take t := by
  unfold take
  have hsame : (st.withReload r).pending = st.pending := rfl
  rw [hsame]
  cases hpending : st.pending with
  | some waiting =>
    obtain ⟨flags, last⟩ := waiting
    cases t with
    | plain text =>
      refine bind_eq_map_bind (setFlags_withReload (hst.pending flags last hpending)) fun o _ => ?_
      exact bind_eq_map_bind (setOption_withReload fun _ => nofun) fun _ _ => rfl
    | unknown | separator | switch => rfl
  | none =>
    cases t with
    | plain text => exact congrArg Except.ok (takePlain_withReload text)
    | unknown => rfl
    | separator => exact congrArg Except.ok takeSeparator_withReload
    | switch s short joined => exact takeSwitch_withReload s short joined

theorem takeAll_withReload {tokens : List Token} (hst : st.Sound arguments)
    (ht : ∀ text, .plain text ∈ tokens → text ∈ arguments) :
    tokens.foldlM take (st.withReload r) = withReload r <$> tokens.foldlM take st := by
  induction tokens generalizing st with
  | nil => rfl
  | cons t tokens ih =>
    rw [List.foldlM_cons, List.foldlM_cons]
    refine bind_eq_map_bind (take_withReload hst t) fun st₁ htake => ?_
    have hfirst : ∀ text, t = .plain text → text ∈ arguments := fun text heq =>
      ht text (heq ▸ List.mem_cons_self)
    exact ih (hst.take hfirst htake) fun text hmem => ht text (List.mem_cons_of_mem _ hmem)

theorem finish_withReload : (st.withReload r).finish = Options.withReload r <$> st.finish := by
  unfold finish withReload
  rw [filename_withReload]
  dsimp only
  cases st.pending with
  | some waiting => rfl
  | none =>
    dsimp only
    split_ifs <;> rfl

end State

/-! ### The command line -/

/-- The names of the switch for the reload value stand for it. -/
theorem classify_timerReload {name : String} (h : name ∈ Switch.timerReload.names) :
    name ≠ "--" ∧ classify name = .ok (.switch .timerReload (isShort name) none) := by
  obtain rfl | rfl : name = "-t" ∨ name = "--timer_reload" := by simpa [Switch.names] using h
  · exact ⟨by decide, rfl⟩
  · exact ⟨by decide, rfl⟩

/-- The decimal text of a number from zero on is plain. -/
theorem classify_toString (h : 0 ≤ r) :
    toString r ≠ "--" ∧ classify (toString r) = .ok (.plain (toString r)) := by
  obtain ⟨n, rfl⟩ := Int.eq_ofNat_of_zero_le h
  have hdash : '-' ∉ (toString (n : Int)).toList := by
    rw [Text.toList_toString_natCast]
    intro hmem
    exact absurd (Nat.isDigit_of_mem_toDigits (by decide) (by decide) hmem) (by decide)
  have hplain : looksLikeSwitch (toString (n : Int)).toList = false := by
    unfold looksLikeSwitch
    split
    · rename_i htext
      exact absurd (htext ▸ List.mem_cons_self) hdash
    · rfl
  refine ⟨fun heq => hdash (heq ▸ by decide), ?_⟩
  unfold classify
  rw [hplain]
  rfl

theorem readReload_toString (h : 0 ≤ r ∧ r < 256) : readReload (toString r) = .ok r := by
  have hlength : (Nat.toDigits 10 r.natAbs).length ≤ Text.maxDecimalDigits := by
    obtain ⟨n, rfl⟩ := Int.eq_ofNat_of_zero_le h.1
    have hthree : (Nat.toDigits 10 n).length ≤ 3 :=
      (Nat.length_toDigits_le_iff (by decide) (by decide)).2 (by omega)
    exact Nat.le_trans hthree (by decide)
  unfold readReload
  rw [Text.integer?_toString hlength]
  exact if_pos h

/-- **A reload value in front of a command line.** The command line is accepted with it just if it
is accepted without, and comes to the same options, except that they have this reload value if they
had none. -/
theorem parse_reload {name : String} (hname : name ∈ Switch.timerReload.names)
    (hr : 0 ≤ r ∧ r < 256) (arguments : List String) :
    parse (name :: toString r :: arguments) = Options.withReload r <$> parse arguments := by
  obtain ⟨hdashes, hswitch⟩ := classify_timerReload hname
  obtain ⟨htextDashes, hplain⟩ := classify_toString hr.1
  have htokens : tokenize (name :: toString r :: arguments) =
      (fun rest => .switch .timerReload (isShort name) none :: .plain (toString r) :: rest) <$>
        tokenize arguments := by
    rw [tokenize, if_neg hdashes, hswitch, tokenize, if_neg htextDashes, hplain]
    cases tokenize arguments <;> rfl
  have hfirst (tokens : List Token) :
      (.switch .timerReload (isShort name) none :: .plain (toString r) :: tokens).foldlM State.take
        .initial = tokens.foldlM State.take (State.initial.withReload r) := by
    rw [List.foldlM_cons]
    show (List.foldlM State.take _ (.plain (toString r) :: tokens)) = _
    rw [List.foldlM_cons]
    have hset : setOption defaults .timerReload (.value (toString r)) =
        .ok (defaults.withReload r) := by
      rw [setOption, Given.read, readReload_toString hr]
      rfl
    show ((do return State.withOptions _ (← setOption defaults .timerReload _)) >>= _) = _
    rw [hset]
    rfl
  refine bind_eq_map_bind htokens fun tokens htokenize => ?_
  rw [hfirst]
  have htexts : ∀ text, .plain text ∈ tokens → text ∈ arguments := fun text hmem =>
    mem_of_tokenize htokenize hmem
  exact bind_eq_map_bind (State.takeAll_withReload (.initial arguments) htexts) fun _ _ =>
    State.finish_withReload

end CommandLine

end Chip8
