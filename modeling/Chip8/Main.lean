import Chip8.CommandLine.Parse
import Chip8.Startup

/-!
# The program

The command line program: reads its arguments, the program file and the clock, and prints. All that
it decides is decided by `CommandLine.parse`, `Startup.prepare` and `Session.onReading`. There is no
window system here, so only the renderer without a window can be used, and the host never quits.
-/

namespace Chip8.Main

/-- The error with a given code, which the system puts in these words. The code is the error's
number, or the number negated. -/
def coded (code : UInt32) (text : String) : FileError :=
  let number := min code.toNat (-code).toNat
  ([.notFound, .isDirectory, .notDirectory, .nameTooLong].find? fun e => e.number = number).getD
    (.other number text)

/-- Why the system could not read a file. -/
def fileError : IO.Error → FileError
  | .noFileOrDirectory .. => .notFound
  | .inappropriateType _ code text | .invalidArgument _ code text | .noSuchThing _ code text
  | .permissionDenied _ code text | .resourceExhausted _ code text => coded code text
  | e => .other 0 e.toString

/-- A file system that knows one file. -/
def readFileSystem (name : String) : IO FileSystem := do
  let contents ← try
      let bytes ← IO.FS.readBinFile name
      pure (Except.ok bytes.toList)
    catch e => pure (Except.error (fileError e))
  return fun other => if other = name then contents else .error .notFound

/-- The clock in seconds, as a double. -/
def readClock : IO Rat := do
  return Number.binary64 ((← IO.monoNanosNow : Nat) / 1000000000)

/-- A seed for the random bytes. -/
def readSeed : IO UInt64 := do
  return (← IO.getRandomBytes 8).toList.foldl (fun n b => 256 * n + b.toUInt64) 0

/-- Prints the lines of a trace that are not printed yet. -/
def printTrace (m : Machine) (printed : Nat) : IO Unit :=
  (m.trace.extract printed m.trace.size).forM fun line => IO.println line

/-- Runs a session on the real clock, printing its trace as it goes. -/
partial def runSession (p : Startup.Prepared) (s : Session) (printed : Nat) : IO UInt32 := do
  match p.onReading .binary64 .idle (← readClock) s with
  | .ok quit s =>
    printTrace s.machine printed
    if quit then return 0 else runSession p s s.machine.trace.size
  | .error e s =>
    printTrace s.machine printed
    IO.eprintln e.message
    return 1

/-- Starts the program with its options. -/
def launch (o : Options) : IO UInt32 := do
  IO.println banner
  let name := (o.filename.bind Given.value?).getD ""
  match Startup.prepare (← readFileSystem name) false (.seeded (← readSeed)) o with
  | .error e =>
    IO.eprintln e.message
    return 1
  | .ok p => runSession p (.start p.machine) 0

/-- A summary of the command line. -/
def usage : String :=
  "usage: chippy [-h] [-s START] [-c CYCLES] [-r RENDERER] [--scale SCALE] [-k KEYMAP]\n" ++
    "              [-t TIMER_RELOAD] [-d] filename"

end Chip8.Main

/-- The program. -/
def main (arguments : List String) : IO UInt32 := do
  match Chip8.CommandLine.parse arguments with
  | .ok o => Chip8.Main.launch o
  | .error .help =>
    IO.println Chip8.Main.usage
    return 0
  | .error (.refused message) =>
    IO.eprintln Chip8.Main.usage
    IO.eprintln ("chippy: error: " ++ message)
    return 2
