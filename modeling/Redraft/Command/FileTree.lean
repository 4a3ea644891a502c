import Redraft.Command.Disk
import Redraft.Entries
import Redraft.Name.File

/-!
# File trees

A disk that is held in memory: directories and files by their places. A path is
walked part by part from the working directory.
-/

namespace Redraft.Command

/-- The names on the way to a directory or a file, from the working directory. -/
abbrev Place := List String

/-- What a file holds: bytes, or a file as it was written. -/
inductive Content where
  | bytes (b : ByteArray)
  | row (r : Row)

/-- The bytes of a file, with a text for each identity. -/
def Content.toBytes (name : Identity → String) : Content → ByteArray
  | bytes b => b
  | row r => (r.text name 0).toUTF8

/-- Directories and files. -/
structure FileTree where
  directories : List Place := []
  files : Entries Place Content := []

/-- Where a path leads; a free place lies in a directory. -/
inductive Spot where
  | directory (place : Place)
  | file (place : Place)
  | free (place : Place)

/-- The most bytes that a name may have. -/
def maxNameBytes : Nat := 255

/-- The most bytes that a path may have. -/
def maxPathBytes : Nat := 4095

/-- The place of the topmost directory. -/
def topPlace : Place := ["/"]

/-- The directory above a place. -/
def Place.above (p : Place) : Place :=
  if p = topPlace then p else if p.all (· == "..") then p ++ [".."] else p.dropLast

namespace FileTree

/-- There is a file at a place. -/
def isFile (t : FileTree) (p : Place) : Bool := (t.files.get? p).isSome

/-- There is a directory at a place. -/
def isDirectory (t : FileTree) (p : Place) : Bool :=
  p.all (· == "..") || p = topPlace || t.directories.contains p

/-- The tree with a directory. -/
def addDirectory (t : FileTree) (p : Place) : FileTree :=
  if t.isDirectory p then t else { t with directories := t.directories ++ [p] }

/-- The tree with a file and the directories above it. -/
def addFile (t : FileTree) (path : String) (bytes : ByteArray) : FileTree :=
  let p := Name.pathParts path
  let t := (List.range p.length).foldl (fun t n => t.addDirectory (p.take n)) t
  { t with files := t.files.put p (.bytes bytes) }

/-! ## Paths -/

/-- The first place and the parts of a path, if it can be one. -/
def pathSteps (path : String) : Except DiskFault (Place × List String) :=
  if '\x00' ∈ path.toList then .error .notName
  else if path.isEmpty then .error .missing
  else if path.utf8ByteSize > maxPathBytes then .error .nameTooLong
  else .ok (if path.toList.head? = some '/' then topPlace else [], Name.steps path)

/-- Where the parts of a path lead from a directory. -/
def walk (t : FileTree) (p : Place) : List String → Except DiskFault Spot
  | [] => .ok (.directory p)
  | "" :: rest | "." :: rest => t.walk p rest
  | ".." :: rest => t.walk p.above rest
  | name :: rest =>
    let q := p ++ [name]
    if name.utf8ByteSize > maxNameBytes then .error .nameTooLong
    else if t.isFile q then if rest.isEmpty then .ok (.file q) else .error .notDirectory
    else if t.isDirectory q then t.walk q rest
    else if rest.all String.isEmpty then .ok (.free q) else .error .missing

/-- Makes the directories on a way that are missing. -/
def makeAlong (t : FileTree) (p : Place) : List String → Except DiskFault FileTree
  | [] => .ok t
  | "" :: rest | "." :: rest => t.makeAlong p rest
  | ".." :: rest => t.makeAlong p.above rest
  | name :: rest =>
    let q := p ++ [name]
    if name.utf8ByteSize > maxNameBytes then .error .nameTooLong
    else if t.isFile q then .error (if rest.all String.isEmpty then .occupied else .notDirectory)
    else (t.addDirectory q).makeAlong q rest

/-- Where a path leads. -/
def locate (t : FileTree) (path : String) : Except DiskFault Spot := do
  let (start, steps) ← pathSteps path
  t.walk start steps

/-! ## The operations of a disk -/

/-- Reads a file. -/
def read (t : FileTree) (name : Identity → String) (path : String) : Except DiskFault ByteArray := do
  match ← t.locate path with
  | .file p => ((t.files.get? p).map (Content.toBytes name)).elim (.error .missing) .ok
  | .directory _ => .error .isDirectory
  | .free _ => .error .missing

/-- Makes a directory, and the directories above it. -/
def makeDirectories (t : FileTree) (path : String) : Except DiskFault FileTree := do
  let (start, steps) ← pathSteps path
  t.makeAlong start steps

/-- Writes a file. -/
def write (t : FileTree) (path : String) (row : Row) : Except DiskFault FileTree := do
  match ← t.locate path with
  | .file p | .free p => return { t with files := t.files.put p (.row row) }
  | .directory _ => throw .isDirectory

/-- A change of the tree as a step that keeps the tree if there is a fault. -/
def change (f : FileTree → Except DiskFault FileTree) : StateM FileTree (Except DiskFault Unit) := do
  match f (← get) with
  | .ok t => set t; return .ok ()
  | .error fault => return .error fault

/-- The tree as a disk. -/
def disk (name : Identity → String) : Disk (StateM FileTree) where
  read path := return (← get).read name path
  makeDirectories path := change (·.makeDirectories path)
  write path row := change (·.write path row)

end FileTree

end Redraft.Command
