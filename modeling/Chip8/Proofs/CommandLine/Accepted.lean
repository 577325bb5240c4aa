import Chip8.CommandLine.Parse
import Mathlib.Tactic.SplitIfs

/-!
# Command lines that are accepted

What the options are like that a command line comes to.

* `Stands` says of an option that it is there, without a value or with one of a kind;
* `Accepted` says this of all options: what a value has to be like, and that the file name is one of
  the arguments;
* `Accepted.setOption` is what a switch with its value keeps, `State.Sound.take` what a token keeps;
* `accepted_of_parse` says that each command line which is accepted comes to such options.
-/

namespace Chip8.CommandLine

/-- A computation succeeds in two steps just if both of them succeed. -/
theorem bind_eq_ok {ε α β : Type} {x : Except ε α} {k : α → Except ε β} {b : β} :
    (x >>= k) = .ok b ↔ ∃ a, x = .ok a ∧ k a = .ok b := by
  cases x with
  | error e => exact ⟨nofun, fun ⟨_, ha, _⟩ => nomatch ha⟩
  | ok a => exact ⟨fun h => ⟨a, rfl, h⟩, fun ⟨_, ha, h⟩ => by cases ha; exact h⟩

/-! ### Options -/

/-- An option is there. It stands without a value, or it has one of which `P` holds. -/
def Stands {α : Type} (P : α → Prop) (o : Option (Given α)) : Prop :=
  o = some .blank ∨ ∃ a, o = some (.value a) ∧ P a

theorem Stands.exists_given {α : Type} {P : α → Prop} {o : Option (Given α)} (h : Stands P o) :
    ∃ given, o = some given := by
  rcases h with h | ⟨a, h, -⟩ <;> exact ⟨_, h⟩

/-- Options that a command line may come to, once all of it is read. -/
structure Accepted (arguments : List String) (o : Options) : Prop where
  /-- The file name, if there is one yet, is one of the arguments. -/
  filename : ∀ given, o.filename = some given → ∃ name ∈ arguments, given = .value name
  start : Stands (fun _ => True) o.start
  cycles : Stands (fun _ => True) o.cycles
  renderer : Stands (fun name => name = windowedName ∨ name = headlessName) o.renderer
  scale : o.scale = some .unset ∨ Stands (fun _ => True) o.scale
  keymap : Stands (fun _ => True) o.keymap
  timerReload : o.timerReload = some .unset ∨ Stands (fun r => 0 ≤ r ∧ r < 256) o.timerReload
  debug : ∃ live, o.debug = some (.value live)

variable {arguments : List String} {o o' : Options} {s last : Switch} {flags : List Switch}
  {value : Given String}

theorem accepted_defaults (arguments : List String) : Accepted arguments defaults where
  filename := nofun
  start := .inr ⟨_, rfl, trivial⟩
  cycles := .inr ⟨_, rfl, trivial⟩
  renderer := .inr ⟨_, rfl, .inl rfl⟩
  scale := .inl rfl
  keymap := .inr ⟨_, rfl, trivial⟩
  timerReload := .inl rfl
  debug := ⟨false, rfl⟩

theorem given_ne_unset (text : String) : given text ≠ .unset := by
  unfold given
  split <;> nofun

/-- A value that is read is one of which the reader makes sure. -/
theorem stands_of_read {α : Type} {P : α → Prop} {f : String → Except Exit α} {read : Given α}
    (hf : ∀ text a, f text = .ok a → P a) (hne : value ≠ .unset) (h : value.read f = .ok read) :
    Stands P (some read) := by
  cases value with
  | unset => exact absurd rfl hne
  | blank =>
    cases h
    exact .inl rfl
  | value text =>
    cases htext : f text with
    | error e =>
      rw [Given.read, htext] at h
      cases h
    | ok a =>
      rw [Given.read, htext] at h
      cases h
      exact .inr ⟨a, rfl, hf text a htext⟩

theorem of_readReload {text : String} {r : Int} (h : readReload text = .ok r) :
    0 ≤ r ∧ r < 256 := by
  unfold readReload at h
  cases htext : Text.integer? text with
  | none =>
    rw [htext] at h
    cases h
  | some n =>
    rw [htext] at h
    by_cases hn : 0 ≤ n ∧ n < 256
    · simp only [if_pos hn] at h
      cases h
      exact hn
    · simp only [if_neg hn] at h
      cases h

theorem of_readRenderer {text name : String} (h : readRenderer text = .ok name) :
    name = windowedName ∨ name = headlessName := by
  unfold readRenderer at h
  by_cases htext : text = windowedName ∨ text = headlessName
  · rw [if_pos htext] at h
    cases h
    exact htext
  · rw [if_neg htext] at h
    cases h

/-- What a switch keeps that has its value, or needs none. -/
theorem Accepted.setOption (ho : Accepted arguments o)
    (hvalue : s.takesValue = true → value ≠ .unset)
    (h : CommandLine.setOption o s value = .ok o') : Accepted arguments o' := by
  cases s with
  | help => cases h
  | debug =>
    cases h
    exact { ho with debug := ⟨true, rfl⟩ }
  | keymap =>
    cases h
    refine { ho with keymap := ?_ }
    cases value with
    | unset => exact absurd rfl (hvalue rfl)
    | blank => exact .inl rfl
    | value text => exact .inr ⟨text, rfl, trivial⟩
  | start =>
    obtain ⟨read, hread, h⟩ := bind_eq_ok.1 h
    cases h
    exact { ho with start := stands_of_read (fun _ _ _ => trivial) (hvalue rfl) hread }
  | cycles =>
    obtain ⟨read, hread, h⟩ := bind_eq_ok.1 h
    cases h
    exact { ho with cycles := stands_of_read (fun _ _ _ => trivial) (hvalue rfl) hread }
  | scale =>
    obtain ⟨read, hread, h⟩ := bind_eq_ok.1 h
    cases h
    exact { ho with scale := .inr (stands_of_read (fun _ _ _ => trivial) (hvalue rfl) hread) }
  | renderer =>
    obtain ⟨read, hread, h⟩ := bind_eq_ok.1 h
    cases h
    exact { ho with
      renderer := stands_of_read (fun _ _ => of_readRenderer) (hvalue rfl) hread }
  | timerReload =>
    obtain ⟨read, hread, h⟩ := bind_eq_ok.1 h
    cases h
    exact { ho with
      timerReload := .inr (stands_of_read (fun _ _ => of_readReload) (hvalue rfl) hread) }

/-! ### Switches without a value -/

/-- All of these switches are without a value. -/
def Flags (flags : List Switch) : Prop := ∀ s ∈ flags, s.takesValue = false

theorem Flags.concat (hflags : Flags flags) (hlast : ¬ last.takesValue = true) :
    Flags (flags ++ [last]) := by
  intro s hs
  rcases List.mem_append.1 hs with hs | hs
  · exact hflags s hs
  · rw [List.mem_singleton.1 hs]
    simpa using hlast

theorem Accepted.setFlags (ho : Accepted arguments o) (hflags : Flags flags)
    (h : CommandLine.setFlags o flags = .ok o') : Accepted arguments o' := by
  unfold CommandLine.setFlags at h
  induction flags generalizing o with
  | nil =>
    cases h
    exact ho
  | cons s flags ih =>
    obtain ⟨hs, hrest⟩ := List.forall_mem_cons.1 hflags
    rw [List.foldlM_cons] at h
    obtain ⟨o₁, hset, h⟩ := bind_eq_ok.1 h
    have hvalue : s.takesValue = true → (.unset : Given String) ≠ .unset := fun hvalue => by
      rw [hs] at hvalue
      cases hvalue
    exact ih (ho.setOption hvalue hset) hrest h

theorem flags_of_resolveLetters {letters : List Char} {text : Option String}
    (h : resolveLetters s letters = .ok (flags, last, text)) : Flags flags := by
  induction letters generalizing s flags with
  | nil =>
    cases h
    exact nofun
  | cons letter letters ih =>
    rw [resolveLetters] at h
    by_cases hs : s.takesValue = true
    · rw [if_pos hs] at h
      cases h
      exact nofun
    · rw [if_neg hs] at h
      cases hnext : Switch.ofName? (String.ofList ['-', letter]) with
      | none =>
        rw [hnext] at h
        cases h
      | some next =>
        rw [hnext] at h
        obtain ⟨⟨before, last', text'⟩, hrest, h⟩ := bind_eq_ok.1 h
        cases h
        exact List.forall_mem_cons.2 ⟨by simpa using hs, ih hrest⟩

/-- Of switches that are written as one, only the last may take a value. -/
theorem flags_of_resolve {short : Bool} {joined text : Option String}
    (h : resolve s short joined = .ok (flags, last, text)) : Flags flags := by
  unfold resolve at h
  cases joined with
  | none =>
    cases h
    exact nofun
  | some joined =>
    by_cases hs : s.takesValue = true
    · simp only [if_pos hs] at h
      cases h
      exact nofun
    · simp only [if_neg hs] at h
      by_cases hshort : short = true ∧ joined ≠ ""
      · rw [if_pos hshort] at h
        exact flags_of_resolveLetters h
      · rw [if_neg hshort] at h
        cases h

/-! ### Tokens -/

theorem ne_plain_of_token (r : Reading) (text : String) : r.token ≠ .plain text := nofun

/-- An argument that is plain text stands for itself. -/
theorem eq_of_classify {argument text : String} (h : classify argument = .ok (.plain text)) :
    text = argument := by
  unfold classify at h
  split at h
  · cases h
    rfl
  · split at h
    · exact absurd (Except.ok.inj h) (ne_plain_of_token _ text)
    · split at h
      · exact absurd (Except.ok.inj h) (ne_plain_of_token _ text)
      · split at h
        · cases h
          rfl
        · cases h
      · cases h

/-- Plain text is one of the arguments. -/
theorem mem_of_tokenize {tokens : List Token} {text : String}
    (h : tokenize arguments = .ok tokens) (htext : .plain text ∈ tokens) : text ∈ arguments := by
  induction arguments generalizing tokens with
  | nil =>
    cases h
    cases htext
  | cons argument arguments ih =>
    rw [tokenize] at h
    by_cases hseparator : argument = "--"
    · rw [if_pos hseparator] at h
      cases h
      obtain ⟨a, ha, heq⟩ : ∃ a ∈ arguments, Token.plain a = .plain text := by simpa using htext
      cases heq
      exact List.mem_cons_of_mem _ ha
    · rw [if_neg hseparator] at h
      obtain ⟨token, htoken, h⟩ := bind_eq_ok.1 h
      obtain ⟨rest, hrest, h⟩ := bind_eq_ok.1 h
      cases h
      rcases List.mem_cons.1 htext with rfl | hmem
      · rw [eq_of_classify htoken]
        exact List.mem_cons_self
      · exact List.mem_cons_of_mem _ (ih hrest hmem)

/-! ### What the parser has read -/

namespace State

/-- What has been read so far is in order: the options are, and of the switches that wait, only the
last one takes a value. -/
structure Sound (arguments : List String) (st : State) : Prop where
  options : Accepted arguments st.options
  pending : ∀ flags last, st.pending = some (flags, last) → Flags flags

variable {st st' : State}

theorem Sound.initial (arguments : List String) : State.initial.Sound arguments := by
  refine ⟨accepted_defaults arguments, ?_⟩
  rintro _ _ ⟨⟩

theorem Sound.withOptions (ho : Accepted arguments o) (st : State) :
    (st.withOptions o).Sound arguments := ⟨ho, nofun⟩

theorem Sound.takePlain (hst : st.Sound arguments) {text : String} (htext : text ∈ arguments) :
    (st.takePlain text).Sound arguments := by
  unfold State.takePlain
  split_ifs
  · refine ⟨{ hst.options with filename := ?_ }, hst.pending⟩
    rintro given ⟨⟩
    exact ⟨text, htext, rfl⟩
  · exact ⟨hst.options, hst.pending⟩

theorem Sound.takeSwitch (hst : st.Sound arguments) {short : Bool} {joined : Option String}
    (h : st.takeSwitch s short joined = .ok st') : st'.Sound arguments := by
  obtain ⟨⟨flags, last, text⟩, hresolve, h⟩ := bind_eq_ok.1 h
  have hflags := flags_of_resolve hresolve
  cases text with
  | some text =>
    obtain ⟨o₁, hset, h⟩ := bind_eq_ok.1 h
    obtain ⟨o₂, hlast, h⟩ := bind_eq_ok.1 h
    cases h
    exact .withOptions ((hst.options.setFlags hflags hset).setOption
      (fun _ => given_ne_unset text) hlast) st
  | none =>
    by_cases hvalue : last.takesValue = true
    · simp only [if_pos hvalue] at h
      cases h
      refine ⟨hst.options, ?_⟩
      rintro _ _ ⟨⟩
      exact hflags
    · simp only [if_neg hvalue] at h
      obtain ⟨o₁, hset, h⟩ := bind_eq_ok.1 h
      cases h
      exact .withOptions (hst.options.setFlags (hflags.concat hvalue) hset) st

/-- What each token keeps whose text is one of the arguments. -/
theorem Sound.take (hst : st.Sound arguments) {t : Token}
    (ht : ∀ text, t = .plain text → text ∈ arguments) (h : st.take t = .ok st') :
    st'.Sound arguments := by
  unfold State.take at h
  cases hpending : st.pending with
  | some waiting =>
    obtain ⟨flags, last⟩ := waiting
    rw [hpending] at h
    cases t with
    | plain text =>
      obtain ⟨o₁, hset, h⟩ := bind_eq_ok.1 h
      obtain ⟨o₂, hlast, h⟩ := bind_eq_ok.1 h
      cases h
      have hvalue : last.takesValue = true → Given.value text ≠ .unset := fun _ => nofun
      have hset := hst.options.setFlags (hst.pending flags last hpending) hset
      exact .withOptions (hset.setOption hvalue hlast) st
    | unknown | separator | switch => cases h
  | none =>
    rw [hpending] at h
    cases t with
    | plain text =>
      cases h
      exact hst.takePlain (ht text rfl)
    | unknown text =>
      cases h
      exact ⟨hst.options, hst.pending⟩
    | separator =>
      cases h
      unfold State.takeSeparator
      split_ifs <;> exact ⟨hst.options, hst.pending⟩
    | switch s short joined => exact hst.takeSwitch h

theorem Sound.takeAll {tokens : List Token} (hst : st.Sound arguments)
    (ht : ∀ text, .plain text ∈ tokens → text ∈ arguments)
    (h : tokens.foldlM State.take st = .ok st') : st'.Sound arguments := by
  induction tokens generalizing st with
  | nil =>
    cases h
    exact hst
  | cons t tokens ih =>
    rw [List.foldlM_cons] at h
    obtain ⟨st₁, htake, h⟩ := bind_eq_ok.1 h
    have hfirst : ∀ text, t = .plain text → text ∈ arguments := fun text heq =>
      ht text (heq ▸ List.mem_cons_self)
    exact ih (hst.take hfirst htake) (fun text hmem => ht text (List.mem_cons_of_mem _ hmem)) h

/-- In the end there is a file name, and the options are those that were read. -/
theorem of_finish (h : st.finish = .ok o) : o = st.options ∧ o.filename ≠ none := by
  unfold State.finish at h
  cases hpending : st.pending with
  | some waiting =>
    rw [hpending] at h
    cases h
  | none =>
    rw [hpending] at h
    by_cases hname : st.options.filename.isNone = true
    · simp only [if_pos hname] at h
      cases h
    · simp only [if_neg hname] at h
      by_cases hleft : st.leftOver ≠ []
      · rw [if_pos hleft] at h
        cases h
      · rw [if_neg hleft] at h
        cases h
        exact ⟨rfl, by simpa using hname⟩

end State

/-- **What a command line comes to that is accepted.** All options are there, a value that one has
is of the kind that it has to be of, and the program is named by one of the arguments. -/
theorem accepted_of_parse (h : parse arguments = .ok o) :
    Accepted arguments o ∧ ∃ name ∈ arguments, o.filename = some (.value name) := by
  obtain ⟨tokens, htokens, h⟩ := bind_eq_ok.1 h
  obtain ⟨st, htake, hfinish⟩ := bind_eq_ok.1 h
  have htexts : ∀ text, .plain text ∈ tokens → text ∈ arguments := fun text hmem =>
    mem_of_tokenize htokens hmem
  have hst : st.Sound arguments := (State.Sound.initial arguments).takeAll htexts htake
  obtain ⟨rfl, hname⟩ := State.of_finish hfinish
  obtain ⟨given, hgiven⟩ := Option.ne_none_iff_exists'.1 hname
  obtain ⟨name, hmem, rfl⟩ := hst.options.filename given hgiven
  exact ⟨hst.options, name, hmem, hgiven⟩

end Chip8.CommandLine
