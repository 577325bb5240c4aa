import Chip8.Storage.FileSystem

/-!
# Directories

A working directory with all that is below it, and how a path is walked through it. A name on the
path must stand in a directory, whatever stands behind it; an empty name and a single dot stay where
they are, two dots go up. Above the working directory nothing is known, so no name is found there.

* `Place.go` is where a name leads;
* `Directory.ofFiles` puts each file at the place to which its path leads;
* `Directory.fileSystem` is the directory as a file system.
-/

namespace Chip8

/-- What stands at a path: a file with its bytes, or a directory. -/
inductive Entry
  | file (bytes : List UInt8)
  | directory
  deriving DecidableEq

/-- Where a walk has come to: below the working directory, the last name first, or above it. -/
inductive Place
  | below (names : List String)
  | above
  deriving DecidableEq

/-- An empty name, one dot or two: such a name leads to a directory that the walk already knows. -/
def isDots (name : String) : Bool := name = "" || name = "." || name = ".."

/-- Where a name leads. From above the working directory, no name leads back. -/
def Place.go (place : Place) (name : String) : Place :=
  if name = "" ∨ name = "." then place
  else
    match place with
    | .above => .above
    | .below names =>
      if name ≠ ".." then .below (name :: names)
      else
        match names with
        | [] => .above
        | _ :: names => .below names

/-- The entries below a working directory, each at its place. -/
structure Directory where
  entries : List (Place × Entry)

namespace Directory

/-- The names of a path. -/
def names (path : String) : List String := (path.toList.splitOn '/').map String.ofList

/-- Where a path begins: an absolute one at the root, which is above the working directory. -/
def origin (path : String) : Place := if path.toList.head? = some '/' then .above else .below []

/-- The place to which a path leads, whatever stands on its way. -/
def placeOf (path : String) : Place := (names path).foldl Place.go (origin path)

/-- A directory with these files; a path without bytes is a directory. Of several files at one
place, the last one stays. -/
def ofFiles (files : List (String × Option (List UInt8))) : Directory :=
  ⟨files.reverse.map fun (path, bytes) => (placeOf path, bytes.elim .directory .file)⟩

/-- What stands at a place, if anything does. -/
def entry? (d : Directory) : Place → Option Entry
  | .above | .below [] => some .directory
  | place => d.entries.lookup place

/-- The longest name in bytes. -/
def maxName : Nat := 255

/-- The longest path in bytes. -/
def maxPath : Nat := 4095

/-- Goes from a directory to a name in it. -/
def enter (d : Directory) (place : Place) (name : String) : Except FileError Place :=
  match d.entry? place with
  | none => .error .notFound
  | some (.file _) => .error .notDirectory
  | some .directory =>
    if isDots name then .ok (place.go name)
    else if maxName < name.utf8ByteSize then .error .nameTooLong
    else if place = .above ∨ d.entry? (place.go name) = none then .error .notFound
    else .ok (place.go name)

/-- The file at a path. -/
def find (d : Directory) (path : String) : Except FileError (List UInt8) := do
  if path = "" then throw .notFound
  if maxPath < path.utf8ByteSize then throw .nameTooLong
  match d.entry? (← (names path).foldlM d.enter (origin path)) with
  | some (.file bytes) => return bytes
  | some .directory => throw .isDirectory
  | none => throw .notFound

/-- The directory as a file system. -/
def fileSystem (d : Directory) : FileSystem := d.find

end Directory

end Chip8
