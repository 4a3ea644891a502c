import Redraft.Eagle.Schematic
import Redraft.Geometry.Box
import Redraft.Net.Tracker
import Redraft.Sheet.NetLabel
import Redraft.Symbol.Basic

/-!
# Sheets

A sheet is a page with placed symbols, lines, junctions, bus entries, notes,
labels and, on the root sheet, blocks that stand for other sheets. Items are
known by their number and are never taken out of their list; a line that is
removed is erased. Y points down.
-/

namespace Redraft
open Redraft.Eagle (LineKind)

/-- Where a sheet stands: it is the root, or it is behind one of the root's blocks. -/
inductive SheetPath where
  | root
  | block (number : Nat)
deriving DecidableEq, Repr, Inhabited

/-- A page: a paper by name, or a size of its own. -/
structure Page where
  paper : Option String
  size : Point
deriving DecidableEq, Repr

/-- The page of a paper. -/
def Page.ofPaper (paper : String) : Except Failure Page := (paperSize paper).map (⟨some paper, ·⟩)

/-- A line of a sheet; an erased one is not drawn. -/
structure Line where
  kind : LineKind
  start : Point
  stop : Point
  erased : Bool := false
deriving DecidableEq, Repr, Inhabited

/-- The segment that a line covers. -/
def Line.segment (l : Line) : Segment := ⟨l.start, l.stop⟩

/-- A diagonal that joins a wire to a bus. -/
structure BusEntry where
  position : Point
  size : Point
deriving DecidableEq, Repr

/-- A text on a sheet; a marker asks for something to be finished by hand. -/
structure Note where
  text : String
  position : Point
  angle : Int
  effects : Effects
  isMarker : Bool := false
deriving DecidableEq, Repr

/-- A block on the root sheet that stands for another sheet. -/
structure SheetBlock where
  position : Point
  name : Field Point
  file : Field Point
  page : Nat
deriving DecidableEq, Repr

/-- The sheet on which a symbol stands, and its number there. -/
structure SymbolId where
  path : SheetPath
  number : Nat
deriving DecidableEq, Repr

/-- A unit of a library symbol placed on a sheet. `pinOwner` is the symbol whose
    pins it stands for: itself, or the one it was made from. -/
structure PlacedSymbol where
  name : String
  placement : Placement
  unit : Nat
  fields : List (Field Point)
  pinNumbers : List String
  pinOwner : SymbolId
  reference : String
  path : SheetPath
deriving DecidableEq, Repr

/-- A sheet. `joints` holds each end of a line and each pin once. -/
structure Sheet where
  name : String
  file : String
  path : SheetPath
  library : String
  project : String
  page : Page
  embedded : List Symbol := []
  symbols : List PlacedSymbol := []
  lines : List Line := []
  junctions : List Point := []
  entries : List BusEntry := []
  notes : List Note := []
  labels : List NetLabel := []
  blocks : List SheetBlock := []
  tracker : Tracker := {}
  joints : List Point := []

namespace PlacedSymbol

/-- The pins of the placed unit with their sheet points. -/
def pinPoints (s : PlacedSymbol) (source : Symbol) : List (Pin × Point) :=
  (source.pins s.unit).map fun p => (p, s.placement.apply p.position)

/-- The sheet points that the extent of the placed unit is taken from. -/
def outline (s : PlacedSymbol) (source : Symbol) : List Point :=
  (source.outline s.unit).map s.placement.apply

end PlacedSymbol

namespace Sheet

/-! ## Looking -/

/-- The library symbol embedded under a name. -/
def symbol? (s : Sheet) (name : String) : Option Symbol := s.embedded.find? (·.name == name)

/-- The lines that are drawn. -/
def drawnLines (s : Sheet) : List Line := s.lines.filter (!·.erased)

/-- The numbers of the lines that pass a test. -/
def lineNumbers (s : Sheet) (p : Line → Bool) : List Nat :=
  (List.range s.lines.length).filter fun i => s.lines[i]?.any p

/-- The numbers of the wires. -/
def wires (s : Sheet) : List Nat := s.lineNumbers fun l => l.kind = .wire && !l.erased

/-- The numbers of the buses; an erased one still counts. -/
def buses (s : Sheet) : List Nat := s.lineNumbers fun l => l.kind = .bus

/-- The markers. -/
def markers (s : Sheet) : List Note := s.notes.filter (·.isMarker)

/-- The labels of one scope. -/
def labelsOf (s : Sheet) (scope : Scope) : List NetLabel := s.labels.filter (·.scope = scope)

/-- More than one line or pin ends at the point. -/
def isConnected (s : Sheet) (p : Point) : Bool := 1 < s.joints.count p

/-! ## Drawing -/

/-- The sheet with a library symbol embedded, unless one of its name is. -/
def embed (s : Sheet) (symbol : Symbol) : Sheet :=
  if (s.symbol? symbol.name).isSome then s else { s with embedded := s.embedded ++ [symbol] }

/-- The ends of a line, once each. -/
def lineEnds (start stop : Point) : List Point := if start = stop then [start] else [start, stop]

/-- The sheet with one more line. -/
def addLine (s : Sheet) (kind : LineKind) (start stop : Point) : Sheet :=
  { s with
    lines := s.lines ++ [{ kind, start, stop }]
    joints := s.joints ++ lineEnds start stop }

/-- The sheet with a line erased. -/
def eraseLine (s : Sheet) (number : Nat) : Sheet :=
  { s with lines := s.lines.modify number fun l => { l with erased := true } }

/-- The sheet with one more junction. -/
def addJunction (s : Sheet) (p : Point) : Sheet := { s with junctions := s.junctions ++ [p] }

/-- The sheet with one more label. -/
def addLabel (s : Sheet) (label : NetLabel) : Sheet := { s with labels := s.labels ++ [label] }

/-- The sheet with one more bus entry. -/
def addEntry (s : Sheet) (entry : BusEntry) : Sheet := { s with entries := s.entries ++ [entry] }

/-- The sheet with one more note. -/
def addNote (s : Sheet) (note : Note) : Sheet := { s with notes := s.notes ++ [note] }

/-- The sheet with a marker at a point. -/
def addMarker (s : Sheet) (p : Point) (message : String) : Sheet :=
  s.addNote { text := message, position := p, angle := 0, effects := .square textSize, isMarker := true }

/-- The sheet with one more placed symbol, whose pins are joints. -/
def addSymbol (s : Sheet) (symbol : PlacedSymbol) (source : Symbol) : Sheet :=
  { s with
    symbols := s.symbols ++ [symbol]
    joints := s.joints ++ (symbol.pinPoints source).map (·.2) }

/-- The sheet with the labels on a segment moved to a point. -/
def moveLabels (s : Sheet) (wire : Segment) (target : Point) : Sheet :=
  { s with labels := s.labels.map fun l => if wire.hits l.position then { l with position := target } else l }

/-- How far the texts of a block stand off its edge. -/
def blockGap : Int := mils 10

/-- A text of a block. -/
def blockField (key value : String) (id : Nat) (position : Point) (vertical : Vertical) : Field Point :=
  ⟨key, value, id, position, 0,
    { Effects.square textSize with justify := ⟨some .left, some vertical⟩ }⟩

/-- The sheet with one more block. -/
def addBlock (s : Sheet) (p : Point) (name file : String) (page : Nat) : Sheet :=
  { s with blocks := s.blocks ++ [{
      position := p
      name := blockField "Sheetname" name 0 ⟨p.x, p.y - blockGap⟩ .bottom
      file := blockField "Sheetfile" file 1 ⟨p.x, p.y + blockSize.y + blockGap⟩ .top
      page }] }

end Sheet

end Redraft
