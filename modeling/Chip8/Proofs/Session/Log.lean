import Mathlib.Data.Rat.Floor
import Chip8.Session

/-!
# Logs of a session

Everything that a session calls, in order.

* `Call` is one thing that a session calls, `Trail` a list of calls, each on what the ones before it
  left;
* `Round` is a pass through the loop whose frame is completed, `Ending` is what comes after the last
  of these, and `Log` is a whole run;
* `Log.calls` are the calls of a run and `Log.reports` the figures in its titles, which `frameSum`
  and `instructionSum` add up.
-/

namespace Chip8.Session

variable {host : Host} {clock : Nat → Rat}

/-! ### Calls -/

/-- One thing that a session calls. -/
inductive Call
  /-- The clock is read. -/
  | clock (time : Rat)
  /-- The figures are put into the title. -/
  | title (figures : Performance)
  /-- The host is asked for its events, and tells whether it wants to quit. -/
  | messages (quit : Bool)
  /-- A frame is run; it is completed, or it fails. -/
  | frame (failure : Option Error)
  /-- The display is refreshed. -/
  | refresh

/-- What is there between two calls: the machine, and how often the host has been asked and the
clock been read. -/
structure Point where
  machine : Machine
  asked : Nat
  read : Nat

/-- A machine with the figures in its title. -/
def titled (m : Machine) (figures : Performance) : Machine :=
  { m with screen := m.screen.reportPerformance figures.frames figures.instructions }

/-- What a call does. -/
inductive Call.Runs (host : Host) (clock : Nat → Rat) : Call → Point → Point → Prop
  | clock (m : Machine) (n k : Nat) : Runs host clock (.clock (clock k)) ⟨m, n, k⟩ ⟨m, n, k + 1⟩
  | title (m : Machine) (n k : Nat) (figures : Performance) :
      Runs host clock (.title figures) ⟨m, n, k⟩ ⟨titled m figures, n, k⟩
  | messages (m : Machine) (n k : Nat) :
      Runs host clock (.messages (host n m.keypad).2) ⟨m, n, k⟩
        ⟨{ m with keypad := (host n m.keypad).1 }, n + 1, k⟩
  | frame {m m' : Machine} (n k : Nat) (h : m.frame = .ok () m') :
      Runs host clock (.frame none) ⟨m, n, k⟩ ⟨m', n, k⟩
  | failure {m m' : Machine} {e : Error} (n k : Nat) (h : m.frame = .error e m') :
      Runs host clock (.frame (some e)) ⟨m, n, k⟩ ⟨m', n, k⟩
  | refresh {m m' : Machine} (n k : Nat) (h : Machine.onScreen Screen.refresh m = .ok () m') :
      Runs host clock .refresh ⟨m, n, k⟩ ⟨m', n, k⟩

/-- Calls that are made one after the other, with nothing in between. -/
inductive Trail (host : Host) (clock : Nat → Rat) : List Call → Point → Point → Prop
  | nil (a : Point) : Trail host clock [] a a
  | cons {call : Call} {calls : List Call} {a b c : Point} (head : call.Runs host clock a b)
      (tail : Trail host clock calls b c) : Trail host clock (call :: calls) a c

theorem Trail.append {calls calls' : List Call} {a b c : Point} (h : Trail host clock calls a b)
    (h' : Trail host clock calls' b c) : Trail host clock (calls ++ calls') a c := by
  induction h with
  | nil => exact h'
  | cons head _ ih => exact .cons head (ih h')

/-! ### Logs -/

/-- How a pass through the loop begins: the time, and the figures if they were due. -/
structure Opening where
  time : Rat
  report : Option Performance

/-- A pass through the loop whose frame is completed; `waits` are the times read until it is over. -/
structure Round where
  opening : Opening
  waits : List Rat

/-- What comes after the last completed frame. -/
inductive Ending
  /-- The clock cannot be read any more. -/
  | exhausted
  /-- The host wants to quit. -/
  | quit (opening : Opening)
  /-- The frame fails. -/
  | failed (opening : Opening) (e : Error)

/-- A run: its completed rounds and how it ended. -/
structure Log where
  rounds : List Round
  ending : Ending

/-- The frames that some reports tell of, all together. -/
def frameSum (reports : List (Rat × Performance)) : Nat := (reports.map fun r => r.2.frames).sum

/-- The instructions that some reports tell of, all together. -/
def instructionSum (reports : List (Rat × Performance)) : Int :=
  (reports.map fun r => r.2.instructions).sum

theorem frameSum_append (first second : List (Rat × Performance)) :
    frameSum (first ++ second) = frameSum first + frameSum second := by
  simp [frameSum]

theorem instructionSum_append (first second : List (Rat × Performance)) :
    instructionSum (first ++ second) = instructionSum first + instructionSum second := by
  simp [instructionSum]

def Opening.calls (o : Opening) : List Call := .clock o.time :: o.report.toList.map .title

/-- The figures reported at the beginning of a pass, with the time. -/
def Opening.reports (o : Opening) : List (Rat × Performance) := o.report.toList.map (o.time, ·)

/-- After a host that does not want to quit comes one frame, and then one refresh. -/
def Round.calls (r : Round) : List Call :=
  r.opening.calls ++ [.messages false, .frame none, .refresh] ++ r.waits.map .clock

namespace Ending

/-- After a host that wants to quit comes nothing; after a frame that fails comes one refresh. -/
def calls : Ending → List Call
  | .exhausted => []
  | .quit o => o.calls ++ [.messages true]
  | .failed o e => o.calls ++ [.messages false, .frame (some e), .refresh]

def reports : Ending → List (Rat × Performance)
  | .exhausted => []
  | .quit o => o.reports
  | .failed o _ => o.reports

/-- What is left to do: nothing if the host quits, nothing but to raise the error if a frame fails,
and `rest` if only the readings have run out. -/
def resume (rest : Action Session Unit) : Ending → Action Session Unit
  | .exhausted => rest
  | .quit _ => pure ()
  | .failed _ e => throw e

end Ending

namespace Log

def calls (l : Log) : List Call := l.rounds.flatMap Round.calls ++ l.ending.calls

/-- The figures reported in a run, each with the time at which it was. -/
def reports (l : Log) : List (Rat × Performance) :=
  l.rounds.flatMap (fun r => r.opening.reports) ++ l.ending.reports

/-- A log with one more round before all others. -/
def cons (r : Round) (l : Log) : Log := ⟨r :: l.rounds, l.ending⟩

theorem calls_cons (r : Round) (l : Log) : (cons r l).calls = r.calls ++ l.calls := by
  simp [cons, calls]

theorem reports_cons (r : Round) (l : Log) :
    (cons r l).reports = r.opening.reports ++ l.reports := by
  simp [cons, reports]

end Log

end Chip8.Session
