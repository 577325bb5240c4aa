import Chip8.Action
import Chip8.Index
import Chip8.Keymap

/-!
# The keypad

Which hexadecimal keys are held, as the host reports its own keys going down and up; and the latch,
which keeps the key that was found when the keypad was last sampled.

* `Keypad.press`, `Keypad.release` and `Keypad.hold` change which keys are held;
* `Keypad.sample` is the lowest held key, `Keypad.refresh` latches it;
* `HostEvent` and `Keypad.pump` are what a window reports, which may also ask to quit.
-/

namespace Chip8

/-- The key found at the last sampling. When none was held, the key before it is kept and the latch
is not asserted. -/
structure Latch where
  key : Key
  asserted : Bool
  deriving DecidableEq, Inhabited

/-- The keypad: the keymap, the keys held, and the latch. -/
structure Keypad where
  keymap : Keymap
  held : Vector Bool 16
  latch : Latch
  deriving DecidableEq

namespace Keypad

/-- A keypad with no key held. -/
def released (keymap : Keymap) : Keypad := ⟨keymap, Vector.replicate 16 false, ⟨0, false⟩⟩

/-- Marks a key as held or not. -/
def setHeld (pad : Keypad) (key : Key) (down : Bool) : Keypad :=
  { pad with held := pad.held.set key down }

/-- The host's key `code` goes down or up. A code outside the keymap changes nothing. -/
def hostKey (pad : Keypad) (code : Int) (down : Bool) : Keypad :=
  match pad.keymap.key? code with
  | none => pad
  | some key => pad.setHeld key down

def press (pad : Keypad) (code : Int) : Keypad := pad.hostKey code true

def release (pad : Keypad) (code : Int) : Keypad := pad.hostKey code false

/-- Marks the key with a given index as held or not; a negative index counts from the back. -/
def hold (index : Int) (down : Bool) : Action Keypad Unit :=
  match place? 16 index with
  | some key => modify fun pad => pad.setHeld key down
  | none => throw (.noKey index)

/-- The held keys, ascending. -/
def heldKeys (pad : Keypad) : List Key := (List.finRange 16).filter fun key => pad.held[key]

/-- The lowest held key. -/
def sample (pad : Keypad) : Option Key := (List.finRange 16).find? fun key => pad.held[key]

/-- Samples the keypad into the latch. -/
def refresh (pad : Keypad) : Keypad :=
  match pad.sample with
  | none => { pad with latch := { pad.latch with asserted := false } }
  | some key => { pad with latch := ⟨key, true⟩ }

/-- Whether the latch holds this key. -/
def isPressed (pad : Keypad) (key : Int) : Bool :=
  pad.latch.asserted && (pad.latch.key.val : Int) == key

end Keypad

/-- What a host reports: one of its keys going down or up, a wish to quit, or anything else. -/
inductive HostEvent
  | down (code : Int)
  | up (code : Int)
  | quit
  | other
  deriving DecidableEq

namespace HostEvent

/-- The host's code for the escape key. -/
def escape : Int := 27

/-- What an event does to the keypad, and whether it asks to quit. Letting go of the escape key asks
to quit and does nothing else. -/
def handle (pad : Keypad) : HostEvent → Keypad × Bool
  | .quit => (pad, true)
  | .down code => (pad.press code, false)
  | .up code => if code = escape then (pad, true) else (pad.release code, false)
  | .other => (pad, false)

end HostEvent

/-- Processes the events that a window has queued, one after the other and also after a wish to
quit, and tells whether one of them asked to quit. -/
def Keypad.pump (pad : Keypad) (events : List HostEvent) : Keypad × Bool :=
  events.foldl (fun (pad, quit) event =>
    let (pad, asks) := event.handle pad
    (pad, quit || asks)) (pad, false)

end Chip8
