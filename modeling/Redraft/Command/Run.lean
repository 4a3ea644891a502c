import Redraft.Command.Arguments
import Redraft.Command.Disk
import Redraft.Eagle.Header
import Redraft.Project.Files

/-!
# Running the command

The command tests a file's header, or converts a document and writes the files
of the project. It tells what it did line by line.
-/

namespace Redraft.Command

/-- What a run leaves behind: a status, what it prints, and what it reports. -/
structure Outcome where
  status : Nat
  output : String
  report : Report := []

/-- The status of a run that was refused. -/
def Refusal.status : Refusal → Nat
  | usage => 2
  | help => 0

/-- The text of some lines. -/
def linesText (lines : List String) : String := String.join (lines.map (· ++ "\n"))

section
variable {m : Type → Type} [Monad m] (disk : Disk m)

/-! ## The header -/

/-- Tests whether a file begins as a document does; a file that cannot be read does not. -/
def checkHeader (path : String) : ExceptT Failure m Bool := do
  match ← disk.read path with
  | .ok bytes => return Eagle.hasHeader bytes
  | .error .notName => throw (.disk path .notName)
  | .error _ => return false

/-- What is told about the header of a file. -/
def headerOutcome (path : String) (found : Bool) : Outcome :=
  if found then ⟨0, linesText ["  " ++ path ++ ": EAGLE schematic"], []⟩
  else ⟨1, linesText ["  " ++ path ++ ": not an EAGLE XML file"], []⟩

/-! ## The document -/

/-- Reads the document in a file. -/
def readDocument (path : String) : ExceptT Failure m Eagle.Schematic := do
  match ← disk.read path with
  | .error .notName => throw (.disk path .notName)
  | .error fault => throw (.unreadable path fault)
  | .ok bytes => match Markup.readBytes bytes with
    | .ok root => Eagle.Schematic.ofElement root
    | .error .malformed => throw (.malformed (some path))
    | .error (.unknown name) => throw (.unknownEncoding name)
    | .error (.manyBytes name) => throw (.manyByteEncoding name)

/-- Reads a document and converts it. -/
def readProject (a : Arguments) : ExceptT Failure m Project := do
  let page ← Page.ofPaper a.paper
  convert (← readDocument disk a.input) a.project (Name.stem a.input) page

/-! ## The files -/

/-- Reads the library table of a directory; a directory without one has an empty table. -/
def readTable (path : String) : ExceptT Failure m LibraryTable := do
  match ← disk.read path with
  | .ok bytes => match LibraryTable.readBytes bytes with
    | .ok table => return table
    | .error fault => throw (.unreadableTable fault)
  | .error .missing => return {}
  | .error .isDirectory => throw (.unreadableTable .notFile)
  | .error fault => throw (.disk path fault)

/-- Writes a file in a directory and tells its path. -/
def writeFile (directory : String) (file : String × Row) : ExceptT Failure m String := do
  let path := joinPath directory file.1
  match ← disk.write path file.2 with
  | .ok () => return path
  | .error fault => throw (.disk path fault)

/-- Writes the files of a project and tells their paths. -/
def saveProject (directory : String) (p : Project) : ExceptT Failure m (List String) := do
  match ← disk.makeDirectories directory with
  | .ok () => pure ()
  | .error fault => throw (.disk directory fault)
  let written ← p.files.mapM (writeFile disk directory)
  let table ← readTable disk (joinPath directory tableFile)
  return written ++ [← writeFile disk directory (tableFile, (p.addTo table).fileRow)]

/-! ## What is told -/

/-- The line of an error. -/
def errorLine (text : String) : String := "  ERROR: " ++ text

/-- The line of a marker on a sheet. -/
def markerLine (sheet : String) (marker : Note) : String :=
  "  MARKER: " ++ marker.text ++ " at (" ++ lengthText marker.position.x ++ ", " ++
    lengthText marker.position.y ++ ") on '" ++ sheet ++ "'"

/-- The lines about a project whose files were written. -/
def savedLines (p : Project) (written : List String) : List String :=
  let errors := p.report.texts .error
  let warnings := p.report.texts .warning
  errors.map errorLine ++ p.markers.map (fun (sheet, marker) => markerLine sheet marker) ++
  ["", "  Wrote " ++ toString written.length ++ " files (" ++ toString errors.length ++ " errors, " ++
    toString warnings.length ++ " warnings)"] ++
  written.map ("    " ++ ·)

/-- Converts a document; one that cannot be imported is told as an error. -/
def convertFile (a : Arguments) : ExceptT Failure m Outcome := do
  match ← ExceptT.lift (readProject disk a).run with
  | .ok p =>
    let written ← saveProject disk a.directory p
    return ⟨0, linesText (savedLines p written), p.report⟩
  | .error failure =>
    if failure.isImport then return ⟨1, linesText [errorLine failure.message], []⟩ else throw failure

/-- Runs the command. -/
def run (a : Arguments) : ExceptT Failure m Outcome := do
  if a.check then return headerOutcome a.input (← checkHeader disk a.input) else convertFile disk a

end

end Redraft.Command
