import Chip8.Proofs.Keypad.Events

/-!
# Queues of events

What becomes of the events that a window has queued.

* `HostEvent.keyEvent?` is what an event tells the keypad, if it tells it something, and
  `HostEvent.AsksToQuit` says which events ask to quit;
* `Keypad.pump_eq` says that both is true to the end of a queue: the keypad is told of every event,
  and the answer is whether any of them asks to quit;
* `Keypad.pumpAll` processes queues one after the other, and `pumpAll_eq` says that it does not
  matter to the keypad where one of them ends and the next begins;
* `pump_drops_no_event` puts this together, and `held_pump_of_escape` says what it means for a key
  that the escape key stands for.
-/

namespace Chip8

namespace HostEvent

/-- The event is a wish to quit: the window was closed, or the escape key let go. -/
def AsksToQuit (e : HostEvent) : Prop := e = .quit ∨ e = .up escape

instance : DecidablePred AsksToQuit := fun _ => inferInstanceAs (Decidable (_ ∨ _))

/-- What the keypad is told of an event: all but that the escape key is let go. -/
def keyEvent? : HostEvent → Option KeyEvent
  | .down code => some ⟨code, true⟩
  | .up code => if code = escape then none else some ⟨code, false⟩
  | .quit | .other => none

end HostEvent

namespace Keypad

open HostEvent (AsksToQuit keyEvent? escape)

variable {pad : Keypad} {key : Key}

theorem hostKeys_append (pad : Keypad) (first second : List KeyEvent) :
    pad.hostKeys (first ++ second) = (pad.hostKeys first).hostKeys second :=
  List.foldl_append

/-! ### One queue -/

theorem handle_eq (pad : Keypad) (e : HostEvent) :
    e.handle pad = (pad.hostKeys e.keyEvent?.toList, decide e.AsksToQuit) := by
  cases e with
  | up code =>
    by_cases h : code = escape
    · simp [HostEvent.handle, keyEvent?, AsksToQuit, h, hostKeys]
    · simp [HostEvent.handle, keyEvent?, AsksToQuit, h, hostKeys, release]
  | down code => rfl
  | quit => rfl
  | other => rfl

/-- Each event of a queue has its effect on the keypad, and the wish to quit stays once it is
there. -/
theorem foldl_handle (pad : Keypad) (quit : Bool) (events : List HostEvent) :
    events.foldl (fun (state : Keypad × Bool) e =>
        ((e.handle state.1).1, state.2 || (e.handle state.1).2)) (pad, quit) =
      (pad.hostKeys (events.filterMap keyEvent?),
        quit || events.any fun e => decide e.AsksToQuit) := by
  induction events generalizing pad quit with
  | nil => simp [hostKeys]
  | cons e events ih =>
    have hkeys : (e :: events).filterMap keyEvent? =
        e.keyEvent?.toList ++ events.filterMap keyEvent? := by
      rw [List.filterMap_cons]
      cases e.keyEvent? <;> rfl
    rw [List.foldl_cons, ih, handle_eq, hkeys, hostKeys_append, List.any_cons, Bool.or_assoc]

/-- A queue is processed to its end. -/
theorem pump_eq (pad : Keypad) (events : List HostEvent) :
    pad.pump events =
      (pad.hostKeys (events.filterMap keyEvent?), events.any fun e => decide e.AsksToQuit) :=
  foldl_handle pad false events

theorem any_asksToQuit (events : List HostEvent) :
    (events.any fun e => decide e.AsksToQuit) =
      decide (.quit ∈ events ∨ .up escape ∈ events) := by
  rw [Bool.eq_iff_iff, List.any_eq_true, decide_eq_true_iff]
  constructor
  · rintro ⟨e, he, hasks⟩
    rcases of_decide_eq_true hasks with rfl | rfl
    · exact .inl he
    · exact .inr he
  · rintro (h | h)
    · exact ⟨_, h, rfl⟩
    · exact ⟨_, h, rfl⟩

/-! ### Queues one after the other -/

/-- Processes queues one after the other, and tells of each whether it asked to quit. -/
def pumpAll (pad : Keypad) : List (List HostEvent) → Keypad × List Bool
  | [] => (pad, [])
  | events :: queues =>
    let (pad, quit) := pad.pump events
    let (pad, quits) := pad.pumpAll queues
    (pad, quit :: quits)

/-- What queues do one after the other is what they do as one; each of them tells of its own
events. -/
theorem pumpAll_eq (pad : Keypad) (queues : List (List HostEvent)) :
    pad.pumpAll queues =
      (pad.hostKeys (queues.flatten.filterMap keyEvent?),
        queues.map fun events => events.any fun e => decide e.AsksToQuit) := by
  induction queues generalizing pad with
  | nil => rfl
  | cons events queues ih =>
    rw [pumpAll, pump_eq]
    dsimp only
    rw [ih, List.flatten_cons, List.filterMap_append, hostKeys_append, List.map_cons]

/-- **No event of a queue is dropped.** Whatever stands in a queue, the answer is a wish to quit
just if the window was closed or the escape key let go at some place in it, and the keypad is left
as by all its key events in their order, also those after a wish to quit, but for the escape key
being let go. A queue that is cut into several leaves the same keypad, and a wish to quit is the
answer of just those parts that have one in them. -/
theorem pump_drops_no_event (pad : Keypad) :
    (∀ events : List HostEvent,
      ((pad.pump events).2 = true ↔ .quit ∈ events ∨ .up escape ∈ events) ∧
        (pad.pump events).1 = pad.hostKeys (events.filterMap keyEvent?)) ∧
      ∀ queues : List (List HostEvent),
        (pad.pumpAll queues).1 = (pad.pump queues.flatten).1 ∧
          (pad.pumpAll queues).2 =
            queues.map fun events => decide (.quit ∈ events ∨ .up escape ∈ events) := by
  refine ⟨fun events => ⟨?_, ?_⟩, fun queues => ⟨?_, ?_⟩⟩
  · rw [pump_eq, any_asksToQuit, decide_eq_true_iff]
  · rw [pump_eq]
  · rw [pumpAll_eq, pump_eq]
  · rw [pumpAll_eq]
    exact List.map_congr_left fun events _ => any_asksToQuit events

/-! ### The escape key on the keypad -/

theorem mem_words {code : Int} {down : Bool} {events : List KeyEvent} :
    down ∈ KeyEvent.words code events ↔ ⟨code, down⟩ ∈ events := by
  unfold KeyEvent.words
  rw [List.mem_map]
  constructor
  · rintro ⟨e, he, rfl⟩
    obtain ⟨hmem, hcode⟩ := List.mem_filter.1 he
    obtain rfl := of_decide_eq_true hcode
    exact hmem
  · exact fun h => ⟨_, List.mem_filter.2 ⟨h, decide_eq_true rfl⟩, rfl⟩

/-- The keypad is only told of the escape key that it goes down. -/
theorem keyEvent?_of_escape {e : HostEvent} {down : Bool} :
    e.keyEvent? = some ⟨escape, down⟩ ↔ down = true ∧ e = .down escape := by
  cases e with
  | down code => simp [keyEvent?, eq_comm, and_comm]
  | up code =>
    by_cases h : code = escape <;> simp [keyEvent?, h]
  | quit | other => simp [keyEvent?]

/-- A key that the escape key stands for can be pressed, but not let go. -/
theorem held_pump_of_escape (h : pad.keymap.key? escape = some key) (events : List HostEvent) :
    (pad.pump events).1.held.get key = true ↔
      pad.held.get key = true ∨ .down escape ∈ events := by
  have hwords : ∀ down, down ∈ KeyEvent.words escape (events.filterMap keyEvent?) ↔
      down = true ∧ .down escape ∈ events := by
    intro down
    simp only [mem_words, List.mem_filterMap, keyEvent?_of_escape]
    exact ⟨fun ⟨_, he, hdown, heq⟩ => ⟨hdown, heq ▸ he⟩, fun ⟨hdown, he⟩ => ⟨_, he, hdown, rfl⟩⟩
  rw [pump_eq, held_hostKeys h]
  cases hlast : (KeyEvent.words escape (events.filterMap keyEvent?)).getLast? with
  | none =>
    rw [List.getLast?_eq_none_iff] at hlast
    rw [hlast] at hwords
    have hnone : .down escape ∉ events := fun hmem => by simpa using (hwords true).2 ⟨rfl, hmem⟩
    simp [hnone]
  | some down =>
    obtain ⟨rfl, hmem⟩ := (hwords down).1 (List.mem_of_getLast? hlast)
    simp [hmem]

end Keypad

end Chip8
