/-!
# Names of files, libraries and symbols

Characters that a file or a library may not have in its name are replaced by
underscores. A path's stem is its last part without the extension.
-/

namespace Redraft.Name

/-- Characters that no file name may hold. -/
def fileReserved : List Char := ['\\', '/', ':', '"', '<', '>', '|']

/-- The text with each reserved character replaced. -/
def fileSafe (s : String) (replacement : String) : String :=
  String.join (s.toList.map fun c => if fileReserved.contains c then replacement else c.toString)

/-- Characters that no symbol or library name may hold. -/
def isSymbolReserved (c : Char) : Bool :=
  c.toNat < 0x20 || [':', '\\', '<', '>', '"', '/'].contains c

/-- The text as a symbol name. -/
def symbolSafe (s : String) : String :=
  String.ofList (s.toList.map fun c => if isSymbolReserved c then '_' else c)

/-- The text as a library name, which holds no spaces either. -/
def librarySafe (s : String) : String :=
  String.ofList (s.toList.map fun c => if isSymbolReserved c || c == ' ' then '_' else c)

/-- The symbol name of a device: both names joined, asterisks left out. -/
def symbolKey (deviceSet device : String) : String :=
  symbolSafe (String.ofList ((deviceSet ++ device).toList.filter (· != '*')))

/-- What is added to a project's name to name its symbol library. -/
def librarySuffix : String := "-eagle-import"

/-- The name of a project: its own one, unless that is empty, or that of the document. -/
def projectName (project : Option String) (stem : String) : String :=
  match project with
  | some p => if p.isEmpty then stem else p
  | none => stem

/-- The name of the symbol library of a project. -/
def libraryName (project : Option String) (stem : String) : String :=
  let base := projectName project stem
  librarySafe ((if base.isEmpty then "noname" else base) ++ librarySuffix)

/-- The text with one character exchanged for another. -/
def exchange (s : String) (old new : Char) : String :=
  String.ofList (s.toList.map fun c => if c = old then new else c)

/-- The name of a sheet: its description, or the stem and its number. -/
def sheetName (description : Option String) (stem : String) (index : Int) : String :=
  match description with
  | some d => if d.isEmpty then stem ++ "_" ++ toString index else exchange d '\n' '_'
  | none => stem ++ "_" ++ toString index

/-- The name of a sheet as the stem of a file name, which holds no spaces either. -/
def fileStem (name : String) : String := exchange (fileSafe name "_") ' ' '_'

/-- The name and the file name of a sheet. -/
def sheetNames (description : Option String) (stem : String) (index : Int) : String × String :=
  let name := sheetName description stem index
  (name, fileStem name ++ ".kicad_sch")

/-- The net that a pin name implies: the name up to an at sign. -/
def impliedNet (s : String) : String := String.ofList (s.toList.takeWhile (· != '@'))

/-! ## Paths -/

/-- The parts of a path between its slashes. -/
def steps (path : String) : List String := (path.toList.splitOn '/').map String.ofList

/-- The parts of a path that name something. -/
def pathParts (path : String) : List String :=
  (steps path).filter fun part => !part.isEmpty && part != "."

/-- A name without its extension; a dot at either end starts none. -/
def withoutExtension (name : String) : String :=
  let cs := name.toList
  let tail := cs.reverse.takeWhile (· != '.')
  let stem := cs.take (cs.length - tail.length - 1)
  if tail.length = cs.length || tail.isEmpty || stem.isEmpty then name else String.ofList stem

/-- The last part of a path without its extension. -/
def stem (path : String) : String :=
  match (pathParts path).getLast? with
  | some name => withoutExtension name
  | none => ""

end Redraft.Name
