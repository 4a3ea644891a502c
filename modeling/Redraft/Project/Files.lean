import Redraft.Project.Convert
import Redraft.File.Sheets
import Redraft.File.Table

/-!
# The files of a project

A project is saved as a file for each sheet, the root sheet first, and one for
all symbols. The library table of the directory gains a row.
-/

namespace Redraft

/-- The name of the file that holds the library table of a directory. -/
def tableFile : String := "sym-lib-table"

namespace Project

/-- The name of the file that holds the symbols. -/
def symbolsFile (p : Project) : String := p.library ++ ".kicad_sym"

/-- The names and the contents of the project's own files. -/
def files (p : Project) : List (String × Row) :=
  p.allSheets.map (fun s => (s.file, s.fileRow)) ++ [(p.symbolsFile, symbolFile p.symbols)]

/-- The table of the project's directory with the row of the project's library. -/
def addTo (p : Project) (table : LibraryTable) : LibraryTable := table.add p.library p.symbolsFile

end Project

end Redraft
