import Chip8.Proofs.Memory.Block

/-!
# Accesses to a bank

What each operation on a bank needs to succeed, and what it then does.

* `Action.SucceedsIff` says of an action when it succeeds and with what, and that it changes nothing
  where it fails;
* `Memory.Replaced` says that a bank has some bytes put into it and is otherwise as it was;
* `Memory.Access` are the operations on the bytes of a bank, `Memory.Request` all operations, and
  `Request.size_cells_afterAll` says that a bank has a cell for each address after any of them;
* `bounded_byte_array` puts this together: a bank is an array of bytes with bounds and a protected
  part.
-/

namespace Chip8

/-- An action succeeds just under a condition, and then with a result and a state as they are
wanted. Where it fails, the state is as it was. -/
def Action.SucceedsIff {σ α : Type} (a : Action σ α) (s : σ) (condition : Prop)
    (wanted : α → σ → Prop) : Prop :=
  match a s with
  | .ok r t => condition ∧ wanted r t
  | .error _ t => ¬ condition ∧ t = s

theorem Action.SucceedsIff.exists_ok {σ α : Type} {a : Action σ α} {s : σ} {condition : Prop}
    {wanted : α → σ → Prop} (h : a.SucceedsIff s condition wanted) (hc : condition) :
    ∃ r t, a s = .ok r t ∧ wanted r t := by
  unfold SucceedsIff at h
  cases ha : a s with
  | ok r t =>
    rw [ha] at h
    exact ⟨r, t, rfl, h.2⟩
  | error e t =>
    rw [ha] at h
    exact absurd hc h.1

theorem Action.SucceedsIff.exists_error {σ α : Type} {a : Action σ α} {s : σ} {condition : Prop}
    {wanted : α → σ → Prop} (h : a.SucceedsIff s condition wanted) (hc : ¬ condition) :
    ∃ e, a s = .error e s := by
  unfold SucceedsIff at h
  cases ha : a s with
  | ok r t =>
    rw [ha] at h
    exact absurd h.1 hc
  | error e t =>
    rw [ha] at h
    exact ⟨e, by rw [h.2]⟩

/-- An action that looks for a reason to refuse succeeds if there is none. -/
theorem Action.succeedsIff_of_refusal {σ α ι : Type} {a : Action σ α} {s : σ}
    {refusal : Option ι} {condition : Prop} {wanted : α → σ → Prop}
    (hnone : refusal = none ↔ condition)
    (hok : refusal = none → ∃ r t, a s = .ok r t ∧ (condition → wanted r t))
    (herror : ∀ i, refusal = some i → ∃ e, a s = .error e s) :
    a.SucceedsIff s condition wanted := by
  unfold SucceedsIff
  cases h : refusal with
  | none =>
    obtain ⟨r, t, ha, hwanted⟩ := hok h
    rw [ha]
    exact ⟨hnone.1 h, hwanted (hnone.1 h)⟩
  | some i =>
    obtain ⟨e, ha⟩ := herror i h
    rw [ha]
    exact ⟨fun hc => by simp [hnone.2 hc] at h, rfl⟩

namespace Memory

variable (m : Memory) (location : Int)

/-! ### Single bytes and zeros -/

theorem inRange_iff {m : Memory} {location size : Int} :
    m.InRange location size ↔ 0 ≤ location ∧ location + size ≤ m.size := by
  unfold InRange top
  omega

theorem read_eq :
    read location m = match m.readRefusal? location 1 with
      | none => .ok (m.byteAt location) m
      | some c => .error (.fault (.ofCause c)) m := by
  simp only [read, Action.bind_apply, checkRange_apply]
  unfold readRefusal?
  split_ifs <;> rfl

theorem write_eq (value : Int) :
    write location value m = match m.writeRefusal? location 1 with
      | none =>
        if 0 ≤ value ∧ value < 256 then .ok () (m.written location [UInt8.ofNat value.toNat])
        else .error (.notAByte value) m
      | some c => .error (.fault (.ofCause c)) m := by
  simp only [write, Action.bind_apply, checkWritable_apply]
  unfold writeRefusal?
  split_ifs <;> rfl

theorem zeroBlock_eq (size : Int) :
    zeroBlock location size m = match m.readRefusal? location size with
      | none => .ok () (m.written location (List.replicate size.toNat 0))
      | some c => .error (.fault (.ofCause c)) m := by
  rw [zeroBlock_apply]
  unfold readRefusal?
  split_ifs <;> rfl

/-! ### Conditions and results -/

/-- The bank `m'` is the bank `m` with `block` in its cells from `location` on; all other cells, and
all else about the bank, are the same. -/
structure Replaced (block : List UInt8) (m' : Memory) : Prop where
  size : m'.size = m.size
  protectedTop : m'.protectedTop = m.protectedTop
  size_cells : m'.cells.size = m.cells.size
  named : ∀ (j : Nat) (hj : j < block.length), m'.cells[location.toNat + j]? = some block[j]
  others : ∀ k : Nat, ¬ (location ≤ k ∧ k < location + block.length) → m'.cells[k]? = m.cells[k]?

variable {m location}

theorem replaced_written (hm : (m.cells.size : Int) = m.size) {block : List UInt8}
    (h0 : 0 ≤ location) (hend : location + block.length ≤ m.size) :
    m.Replaced location block (m.written location block) where
  size := rfl
  protectedTop := rfl
  size_cells := size_cells_written ..
  named := by
    intro j hj
    rw [getElem?_cells_written_of_mem m location (by omega) (by omega), Nat.add_sub_cancel_left,
      List.getElem?_eq_getElem hj]
  others := fun k hk => getElem?_cells_written m location h0 hk

theorem succeedsIff_readBlock (hm : (m.cells.size : Int) = m.size) (n : Nat) :
    (readBlock location n).SucceedsIff m (0 ≤ location ∧ location + n ≤ m.size) fun bytes m' =>
      m' = m ∧ bytes.length = n ∧ ∀ j, j < n → bytes[j]? = m.cells[location.toNat + j]? := by
  refine Action.succeedsIff_of_refusal (readRefusal?_eq_none_iff.trans inRange_iff)
    (fun h => ⟨_, _, by rw [readBlock_eq m location hm, h], fun ⟨h0, hend⟩ =>
      ⟨rfl, length_bytes .., fun j hj => ?_⟩⟩)
    fun c h => ⟨_, by rw [readBlock_eq m location hm, h]⟩
  have hplace : (location + j).toNat = location.toNat + j := by omega
  rw [bytes, List.getElem?_map, List.getElem?_range hj, Option.map_some, byteAt, hplace,
    Array.getD_eq_getD_getElem?, Array.getElem?_eq_getElem (by omega)]
  rfl

theorem succeedsIff_read (hm : (m.cells.size : Int) = m.size) :
    (read location).SucceedsIff m (0 ≤ location ∧ location + 1 ≤ m.size) fun byte m' =>
      m' = m ∧ m.cells[location.toNat]? = some byte := by
  refine Action.succeedsIff_of_refusal (readRefusal?_eq_none_iff.trans inRange_iff)
    (fun h => ⟨_, _, by rw [read_eq m location, h], fun ⟨h0, hend⟩ => ⟨rfl, ?_⟩⟩)
    fun c h => ⟨_, by rw [read_eq m location, h]⟩
  rw [byteAt, Array.getD_eq_getD_getElem?, Array.getElem?_eq_getElem (by omega)]
  rfl

theorem succeedsIff_writeBlock (hm : (m.cells.size : Int) = m.size) (block : List UInt8) :
    (writeBlock location block).SucceedsIff m
      ((0 ≤ location ∧ location + block.length ≤ m.size) ∧ m.protectedTop < location)
      fun _ m' => m.Replaced location block m' :=
  Action.succeedsIff_of_refusal (writeRefusal?_eq_none_iff.trans (and_congr_left' inRange_iff))
    (fun h => ⟨_, _, by rw [writeBlock_eq m location, h], fun ⟨hrange, _⟩ =>
      replaced_written hm hrange.1 hrange.2⟩)
    fun c h => ⟨_, by rw [writeBlock_eq m location, h]⟩

/-- What is written has to be a byte too. -/
theorem succeedsIff_write (hm : (m.cells.size : Int) = m.size) (value : Int) :
    (write location value).SucceedsIff m
      (((0 ≤ location ∧ location + 1 ≤ m.size) ∧ m.protectedTop < location) ∧
        0 ≤ value ∧ value ≤ 255)
      fun _ m' => m.Replaced location [UInt8.ofNat value.toNat] m' := by
  have hnone : m.writeRefusal? location 1 = none ↔
      (0 ≤ location ∧ location + 1 ≤ m.size) ∧ m.protectedTop < location :=
    writeRefusal?_eq_none_iff.trans (and_congr_left' inRange_iff)
  unfold Action.SucceedsIff
  rw [write_eq]
  cases hrefusal : m.writeRefusal? location 1 with
  | some c => exact ⟨fun h => by simp [hnone.2 h.1] at hrefusal, rfl⟩
  | none =>
    obtain ⟨hrange, hfree⟩ := hnone.1 hrefusal
    by_cases hbyte : 0 ≤ value ∧ value < 256
    · simp only [if_pos hbyte]
      exact ⟨⟨⟨hrange, hfree⟩, by omega⟩, replaced_written hm hrange.1 hrange.2⟩
    · simp only [if_neg hbyte]
      exact ⟨fun h => by omega, trivial⟩

theorem succeedsIff_loadImage (hm : (m.cells.size : Int) = m.size) (image : List UInt8) :
    (loadImage location image).SucceedsIff m
      ((0 ≤ location ∧ location < m.size) ∧ m.protectedTop < location ∧
        location + image.length ≤ m.size)
      fun _ m' => m.Replaced location image m' := by
  have htop : 0 ≤ location ∧ location ≤ m.top ↔ 0 ≤ location ∧ location < m.size := by
    unfold top
    omega
  exact Action.succeedsIff_of_refusal (loadRefusal?_eq_none_iff.trans (and_congr_left' htop))
    (fun h => ⟨_, _, by rw [loadImage_eq m location, h], fun ⟨h0, _, hend⟩ =>
      replaced_written hm h0.1 hend⟩)
    fun e h => ⟨_, by rw [loadImage_eq m location, h]⟩

/-- Protection does not keep a block from being set to zero. -/
theorem succeedsIff_zeroBlock (hm : (m.cells.size : Int) = m.size) (n : Nat) :
    (zeroBlock location n).SucceedsIff m (0 ≤ location ∧ location + n ≤ m.size)
      fun _ m' => m.Replaced location (List.replicate n 0) m' :=
  Action.succeedsIff_of_refusal (readRefusal?_eq_none_iff.trans inRange_iff)
    (fun h => ⟨(), m.written location (List.replicate n 0), by
        rw [zeroBlock_eq m location, h, Int.toNat_natCast],
      fun ⟨h0, hend⟩ => replaced_written hm h0 (by rw [List.length_replicate]; exact hend)⟩)
    fun c h => ⟨_, by rw [zeroBlock_eq m location, h]⟩

/-! ### Any number of operations -/

/-- An operation on the bytes of a bank. -/
inductive Access
  | read (location : Int)
  | readBlock (location size : Int)
  | write (location value : Int)
  | writeBlock (location : Int) (block : List UInt8)
  | loadImage (location : Int) (image : List UInt8)
  | zeroBlock (location size : Int)
  | clear
  deriving DecidableEq

namespace Access

def action : Access → Action Memory Unit
  | .read location => do
    let _ ← Memory.read location
  | .readBlock location size => do
    let _ ← Memory.readBlock location size
  | .write location value => Memory.write location value
  | .writeBlock location block => Memory.writeBlock location block
  | .loadImage location image => Memory.loadImage location image
  | .zeroBlock location size => Memory.zeroBlock location size
  | .clear => Memory.clear

/-- The bank after an access, whether it succeeds or fails. -/
def after (a : Access) (m : Memory) : Memory := Action.state (a.action m)

/-- The bank after some accesses, one after the other. -/
def afterAll (accesses : List Access) (m : Memory) : Memory :=
  accesses.foldl (fun m a => a.after m) m

/-- The block that an access sets to zero, in a bank of `size` bytes: where it begins, and its
length. -/
def cleared? (size : Int) : Access → Option (Int × Int)
  | .zeroBlock location n => some (location, n)
  | .clear => some (0, size)
  | .read .. | .readBlock .. | .write .. | .writeBlock .. | .loadImage .. => none

/-- An access that sets no block to zero is refused and changes nothing, or only reads, or writes a
block that does not begin in the protected part. -/
theorem action_cases {a : Access} {m : Memory} (ha : a.cleared? m.size = none) :
    (∃ e, a.action m = .error e m) ∨ a.action m = .ok () m ∨
      ∃ location block, m.protectedTop < location ∧ 0 ≤ location ∧
        a.action m = .ok () (m.written location block) := by
  have hwritable : ∀ {location size : Int}, m.writeRefusal? location size = none →
      m.protectedTop < location ∧ 0 ≤ location := fun h =>
    have hw := writeRefusal?_eq_none_iff.1 h
    ⟨hw.2, hw.1.1⟩
  cases a with
  | zeroBlock location size => cases ha
  | clear => cases ha
  | read location =>
    simp only [action, Action.bind_apply, read_eq]
    cases m.readRefusal? location 1 with
    | some c => exact .inl ⟨_, rfl⟩
    | none => exact .inr (.inl rfl)
  | readBlock location size =>
    simp only [action, Action.bind_apply, readBlock_apply]
    by_cases h : m.InRange location size
    · simp only [if_pos h]
      exact .inr (.inl rfl)
    · simp only [if_neg h]
      exact .inl ⟨_, rfl⟩
  | write location value =>
    simp only [action, write_eq]
    cases h : m.writeRefusal? location 1 with
    | some c => exact .inl ⟨_, rfl⟩
    | none =>
      by_cases hbyte : 0 ≤ value ∧ value < 256
      · exact .inr (.inr ⟨location, _, (hwritable h).1, (hwritable h).2, if_pos hbyte⟩)
      · exact .inl ⟨_, if_neg hbyte⟩
  | writeBlock location block =>
    simp only [action, writeBlock_eq]
    cases h : m.writeRefusal? location block.length with
    | some c => exact .inl ⟨_, rfl⟩
    | none => exact .inr (.inr ⟨location, block, (hwritable h).1, (hwritable h).2, rfl⟩)
  | loadImage location image =>
    simp only [action, loadImage_eq]
    cases h : m.loadRefusal? location image.length with
    | some e => exact .inl ⟨_, rfl⟩
    | none =>
      obtain ⟨⟨h0, -⟩, hfree, -⟩ := loadRefusal?_eq_none_iff.1 h
      exact .inr (.inr ⟨location, image, hfree, h0, rfl⟩)

/-- An access that sets a block to zero is refused and changes nothing if the block is not in
range. -/
theorem action_of_cleared {a : Access} {m : Memory} {location n : Int}
    (ha : a.cleared? m.size = some (location, n)) :
    a.action m = match m.readRefusal? location n with
      | none => .ok () (m.written location (List.replicate n.toNat 0))
      | some c => .error (.fault (.ofCause c)) m := by
  cases a with
  | zeroBlock location' n' =>
    cases ha
    exact zeroBlock_eq m location n
  | clear =>
    cases ha
    exact zeroBlock_eq m 0 m.size
  | read | readBlock | write | writeBlock | loadImage => cases ha

/-- An access changes nothing about a bank, or it writes a block in it. -/
theorem action_eq (a : Access) (m : Memory) :
    (∃ e, a.action m = .error e m) ∨ a.action m = .ok () m ∨
      ∃ location block, a.action m = .ok () (m.written location block) := by
  cases hcleared : a.cleared? m.size with
  | none =>
    obtain h | h | ⟨location, block, -, -, h⟩ := action_cases hcleared
    · exact .inl h
    · exact .inr (.inl h)
    · exact .inr (.inr ⟨location, block, h⟩)
  | some block =>
    have h := action_of_cleared hcleared
    cases hrefusal : m.readRefusal? block.1 block.2 with
    | none =>
      rw [hrefusal] at h
      exact .inr (.inr ⟨_, _, h⟩)
    | some c =>
      rw [hrefusal] at h
      exact .inl ⟨_, h⟩

theorem size_after (a : Access) (m : Memory) :
    (a.after m).size = m.size ∧ (a.after m).protectedTop = m.protectedTop ∧
      (a.after m).cells.size = m.cells.size := by
  unfold after
  obtain ⟨e, h⟩ | h | ⟨location, block, h⟩ := a.action_eq m
  · rw [h]
    exact ⟨rfl, rfl, rfl⟩
  · rw [h]
    exact ⟨rfl, rfl, rfl⟩
  · rw [h]
    exact ⟨rfl, rfl, size_cells_written ..⟩

end Access

/-- Anything that a bank can be asked for. -/
inductive Request
  | resize (size : Int)
  | protect (size : Int)
  | access (a : Access)
  deriving DecidableEq

namespace Request

variable {capacity : Nat}

/-- What a bank does on a request, where there is this capacity for it. -/
def action (capacity : Nat) : Request → Action Memory Unit
  | .resize size => Memory.resize capacity size
  | .protect size => Memory.protect size
  | .access a => a.action

/-- The bank after a request, whether it succeeds or fails. -/
def after (capacity : Nat) (r : Request) (m : Memory) : Memory :=
  Action.state (r.action capacity m)

/-- The bank after some requests, one after the other. -/
def afterAll (capacity : Nat) (requests : List Request) (m : Memory) : Memory :=
  requests.foldl (fun m r => r.after capacity m) m

/-- A bank is never given a negative size. -/
def Allowed : Request → Prop
  | .resize size => 0 ≤ size
  | .protect _ | .access _ => True

instance : DecidablePred Allowed := fun r => by
  cases r <;> unfold Allowed <;> infer_instance

theorem resize_cases (capacity : Nat) (size : Int) (m : Memory) :
    Memory.resize capacity size m = .ok () (blank size) ∨
      ∃ e, Memory.resize capacity size m = .error e m := by
  by_cases h : Fits capacity 1 size
  · exact .inl (resize_of_fits m h)
  · obtain ⟨e, he⟩ := checkSize_of_not_fits h m
    exact .inr ⟨e, by simp [Memory.resize, he]⟩

/-- A request that is refused changes nothing. -/
theorem eq_of_refused {r : Request} {m m' : Memory} {e : Error}
    (h : r.action capacity m = .error e m') : m' = m := by
  cases r with
  | resize size =>
    obtain hok | ⟨e', herror⟩ := resize_cases capacity size m
    · cases hok.symm.trans h
    · cases herror.symm.trans h
      rfl
  | protect size => cases h
  | access a =>
    change a.action m = .error e m' at h
    obtain ⟨e', ha⟩ | ha | ⟨location, block, ha⟩ := a.action_eq m
    · cases ha.symm.trans h
      rfl
    · cases ha.symm.trans h
    · cases ha.symm.trans h

/-- A bank keeps a cell for each of its addresses. -/
theorem size_cells_after {r : Request} (hr : r.Allowed) {m : Memory}
    (hm : (m.cells.size : Int) = m.size) :
    ((r.after capacity m).cells.size : Int) = (r.after capacity m).size := by
  cases r with
  | resize size =>
    have hafter : (Request.resize size).after capacity m =
        Action.state (Memory.resize capacity size m) := rfl
    rw [hafter]
    obtain hok | ⟨e, herror⟩ := resize_cases capacity size m
    · rw [hok]
      show ((Array.replicate size.toNat (0 : UInt8)).size : Int) = size
      rw [Array.size_replicate, Int.toNat_of_nonneg hr]
    · rw [herror]
      exact hm
  | protect size => exact hm
  | access a =>
    obtain ⟨hsize, -, hcells⟩ := a.size_after m
    show ((a.after m).cells.size : Int) = (a.after m).size
    rw [hsize, hcells, hm]

theorem size_cells_afterAll {requests : List Request} (h : ∀ r ∈ requests, r.Allowed) {m : Memory}
    (hm : (m.cells.size : Int) = m.size) :
    ((afterAll capacity requests m).cells.size : Int) = (afterAll capacity requests m).size := by
  induction requests generalizing m with
  | nil => exact hm
  | cons r requests ih =>
    obtain ⟨hr, hrest⟩ := List.forall_mem_cons.1 h
    exact ih hrest (size_cells_after hr hm)

end Request

/-- **A bank is an array of bytes with bounds and a protected part.** Whatever a bank of no bytes
has been asked for since, refusals included, and whatever capacity there is for it, it has a cell
for each address; each operation succeeds just where it is to, reads or replaces just the cells that
it names, and changes nothing where it is refused. Only the write operations look at the protection,
and only where a block begins. -/
theorem bounded_byte_array (capacity : Nat) (requests : List Request)
    (h : ∀ r ∈ requests, r.Allowed) :
    let m := Request.afterAll capacity requests (blank 0)
    (m.cells.size : Int) = m.size ∧
      (∀ (r : Request) e m', r.action capacity m = .error e m' → m' = m) ∧
      ∀ location : Int,
        (∀ n : Nat,
          (readBlock location n).SucceedsIff m (0 ≤ location ∧ location + n ≤ m.size)
            fun bytes m' => m' = m ∧ bytes.length = n ∧
              ∀ j, j < n → bytes[j]? = m.cells[location.toNat + j]?) ∧
        (∀ block : List UInt8,
          (writeBlock location block).SucceedsIff m
            ((0 ≤ location ∧ location + block.length ≤ m.size) ∧ m.protectedTop < location)
            fun _ m' => m.Replaced location block m') ∧
        (∀ image : List UInt8,
          (loadImage location image).SucceedsIff m
            ((0 ≤ location ∧ location < m.size) ∧ m.protectedTop < location ∧
              location + image.length ≤ m.size)
            fun _ m' => m.Replaced location image m') ∧
        (∀ n : Nat,
          (zeroBlock location n).SucceedsIff m (0 ≤ location ∧ location + n ≤ m.size)
            fun _ m' => m.Replaced location (List.replicate n 0) m') ∧
        (read location).SucceedsIff m (0 ≤ location ∧ location + 1 ≤ m.size)
          (fun byte m' => m' = m ∧ m.cells[location.toNat]? = some byte) ∧
        ∀ value : Int,
          (write location value).SucceedsIff m
            (((0 ≤ location ∧ location + 1 ≤ m.size) ∧ m.protectedTop < location) ∧
              0 ≤ value ∧ value ≤ 255)
            fun _ m' => m.Replaced location [UInt8.ofNat value.toNat] m' := by
  intro m
  have hm : (m.cells.size : Int) = m.size := Request.size_cells_afterAll h rfl
  exact ⟨hm, fun r e m' => Request.eq_of_refused, fun location =>
    ⟨succeedsIff_readBlock hm, succeedsIff_writeBlock hm, succeedsIff_loadImage hm,
      succeedsIff_zeroBlock hm, succeedsIff_read hm, succeedsIff_write hm⟩⟩

/-- In a bank of five bytes of which two are protected, an empty block may be written at the very
end, and a block that begins in the protected part may not be written at all. -/
theorem bounded_byte_array_of_straddling :
    let requests : List Request := [.resize 5, .protect 2, .access (.writeBlock 4 [0xAA, 0xBB])]
    let m := Request.afterAll 5 requests (blank 0)
    (∀ r ∈ requests, r.Allowed) ∧ (∃ m', writeBlock 5 [] m = .ok () m' ∧ m.Replaced 5 [] m') ∧
      (∃ e, writeBlock 1 [0xAA, 0xBB] m = .error e m) ∧
      ∃ m', zeroBlock 1 2 m = .ok () m' ∧ m.Replaced 1 [0, 0] m' := by
  intro requests m
  have hallowed : ∀ r ∈ requests, r.Allowed := by decide
  have hsize : (Request.afterAll 5 requests (blank 0)).size = 5 := by decide +kernel
  have htop : (Request.afterAll 5 requests (blank 0)).protectedTop = 1 := by decide +kernel
  obtain ⟨-, -, hm⟩ := bounded_byte_array 5 requests hallowed
  obtain ⟨-, hend, -⟩ := hm 5
  obtain ⟨-, hstraddling, -, hzero, -⟩ := hm 1
  obtain ⟨_, m', hok, hreplaced⟩ := (hend []).exists_ok (by simp [hsize, htop])
  obtain ⟨e, herror⟩ := (hstraddling [0xAA, 0xBB]).exists_error (by simp [htop])
  obtain ⟨_, m'', hok', hzeroed⟩ := (hzero 2).exists_ok (by simp [hsize])
  exact ⟨hallowed, ⟨m', hok, hreplaced⟩, ⟨e, herror⟩, m'', hok', hzeroed⟩

end Memory

end Chip8
