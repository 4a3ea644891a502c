import Redraft.Project.Blocks
import Redraft.Project.Tiling

/-!
# Converting a document

All libraries of a document make one symbol library. A single sheet is drawn on
the root sheet; several sheets get a block on it each. Units that no sheet draws
are added to the root sheet in the end.
-/

namespace Redraft

/-- A converted document. -/
structure Project where
  library : String
  root : Sheet
  sheets : List Sheet
  symbols : List Symbol
  report : Report

namespace Project

/-- All sheets, the root first. -/
def allSheets (p : Project) : List Sheet := p.root :: p.sheets

/-- The markers of all sheets, each with the name of its sheet. -/
def markers (p : Project) : List (String × Note) :=
  p.allSheets.flatMap fun s => s.markers.map fun m => (s.name, m)

end Project

/-- The symbol libraries of a document, with what their conversion reports. -/
def convertLibraries (document : Eagle.Schematic) : Except Failure (Entries String SymbolLibrary × Report) :=
  document.libraries.foldlM (fun (libraries, report) (name, library) => do
    let (converted, messages) ← SymbolLibrary.convert library
    return (libraries ++ [(name, converted)], report ++ messages)) ([], [])

/-- The symbols of all libraries; of those with one name the last one stands. -/
def mergeSymbols (libraries : Entries String SymbolLibrary) : List Symbol :=
  (libraries.foldl (fun (all : Entries String Symbol) (_, l) => all.putAll l.symbols) []).map (·.2)

/-- What the sheets of a document share, with the reports of its libraries. -/
def Context.ofDocument (document : Eagle.Schematic) (library project : String) :
    Except Failure (Context × Report) := do
  let (libraries, report) ← convertLibraries document
  return ({ document, libraries, library, project, netCounts := document.netCounts }, report)

/-- An empty sheet. -/
def Context.newSheet (c : Context) (name file : String) (path : SheetPath) (page : Page) : Sheet :=
  { name, file, path, page, library := c.library, project := c.project }

/-! ## Sheets -/

/-- A conversion on its way: the root sheet, the other sheets, the reports and
    the record of parts with several units. -/
structure Conversion where
  root : Sheet
  sheets : List Sheet := []
  report : Report := []
  units : UnitRecord := []

/-- Runs a drawing on a sheet; what lies on the desk afterwards counts. -/
def Conversion.draw (c : Conversion) (sheet : Sheet) (step : Drafting Unit) : Except Failure Desk :=
  match (step.run ⟨sheet, c.report, c.units⟩).run with
  | (.ok (), desk) => .ok desk
  | (.error failure, _) => .error failure

/-- Draws a sheet of several, the block of which is added to the root sheet. -/
def Conversion.addSheet (context : Context) (stem : String) (page : Page) (c : Conversion)
    (entry : Eagle.Sheet × Nat) : Except Failure Conversion := do
  let (sheet, i) := entry
  let (name, file) := Name.sheetNames sheet.description stem (i + 1 : Nat)
  let root := c.root.addBlock (blockPlace i) name file (i + 2)
  let desk ← c.draw (context.newSheet name file (.block (i + 1)) page) (drawSheet context sheet)
  return ⟨root, c.sheets ++ [desk.sheet], desk.report, desk.units⟩

/-- Draws all sheets: a single one on the root sheet, several behind blocks. -/
def Conversion.addSheets (context : Context) (stem : String) (page : Page) (c : Conversion) :
    Except Failure Conversion :=
  match context.document.sheets with
  | [] => .ok c
  | [sheet] => do
    let desk ← c.draw c.root (drawSheet context sheet)
    return { c with root := desk.sheet, report := desk.report, units := desk.units }
  | sheets => sheets.zipIdx.foldlM (addSheet context stem page) c

/-- The conversion with the missing units on the root sheet; none is on record any more. -/
def Conversion.addMissingUnits (c : Conversion) : Conversion :=
  { c with root := c.root.tile c.units, units := [] }

/-! ## The whole document -/

/-- Converts a document. `project` is the name to use for it, `stem` that of its file. -/
def convert (document : Eagle.Schematic) (project : Option String) (stem : String) (page : Page) :
    Except Failure Project := do
  let library := Name.libraryName project stem
  let (context, report) ← Context.ofDocument document library (Name.projectName project stem)
  let root := context.newSheet stem (stem ++ ".kicad_sch") .root page
  let drawn ← Conversion.addSheets context stem page { root, report }
  let c := drawn.addMissingUnits
  return {
    library
    root := c.root
    sheets := c.sheets
    symbols := mergeSymbols context.libraries
    report := c.report }

/-- Converts the text of a document on pages that start from a paper. -/
def convertText (text : String) (project : Option String) (file paper : String) : Except Failure Project := do
  let page ← Page.ofPaper paper
  convert (← Eagle.Schematic.read text) project (Name.stem file) page

end Redraft
