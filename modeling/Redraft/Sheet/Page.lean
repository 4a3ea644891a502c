import Redraft.Sheet.Basic

/-!
# The page of a sheet

The page grows to the content with a margin and never shrinks; the content is
moved to its middle in grid steps.
-/

namespace Redraft
namespace Sheet

/-- The points of a placed symbol: where it stands, and the outline of its unit
    as the embedded symbol has it. -/
def symbolPoints (s : Sheet) (symbol : PlacedSymbol) : List Point :=
  symbol.placement.position :: match s.symbol? symbol.name with
    | some source => symbol.outline source
    | none => []

/-- All points that the extent of the sheet is taken from. -/
def points (s : Sheet) : List Point :=
  s.symbols.flatMap s.symbolPoints ++
  (s.drawnLines.flatMap fun l => [l.start, l.stop]) ++
  (s.entries.flatMap fun e => [e.position, e.position + e.size]) ++
  s.junctions ++ s.labels.map (·.position) ++ s.notes.map (·.position) ++
  s.blocks.flatMap fun b => [b.position, b.position + blockSize]

/-- The extent of the sheet's content. -/
def extent (s : Sheet) : Extent := Extent.ofPoints s.points

end Sheet

/-- A side of a page that is at least as long as a target, to the nearest mil. -/
def growSide (side target : Int) : Int := if side < target then toWholeMils target else side

/-- The page has room for content of the given extent. -/
def Page.hasRoom (p : Page) (e : Extent) : Bool :=
  e.width + pageMargin ≤ p.size.x && e.height + pageMargin ≤ p.size.y

/-- The page grown to content of the given extent. -/
def Page.fit (p : Page) (e : Extent) : Page :=
  if p.hasRoom e then p
  else ⟨none, growSide p.size.x (e.width + pageMargin), growSide p.size.y (e.height + pageMargin)⟩

/-- What brings content of the given extent to the middle of the page, in grid steps. -/
def Page.centering (p : Page) (e : Extent) : Point :=
  ⟨cutTo grid (p.size.x / 2 - e.center.x), cutTo grid (p.size.y / 2 - e.center.y)⟩

/-! ## Moving -/

/-- The field moved. -/
def Field.move (d : Point) (f : Field Point) : Field Point := { f with position := f.position + d }

/-- The symbol moved with its fields. -/
def PlacedSymbol.move (d : Point) (s : PlacedSymbol) : PlacedSymbol :=
  { s with
    placement := { s.placement with position := s.placement.position + d }
    fields := s.fields.map (·.move d) }

/-- The line moved; an erased one stays. -/
def Line.move (d : Point) (l : Line) : Line :=
  if l.erased then l else { l with start := l.start + d, stop := l.stop + d }

/-- The block moved with its texts. -/
def SheetBlock.move (d : Point) (b : SheetBlock) : SheetBlock :=
  { b with position := b.position + d, name := b.name.move d, file := b.file.move d }

/-- The sheet with all its items moved. -/
def Sheet.move (d : Point) (s : Sheet) : Sheet :=
  { s with
    symbols := s.symbols.map (·.move d)
    lines := s.lines.map (·.move d)
    junctions := s.junctions.map (· + d)
    entries := s.entries.map fun e => { e with position := e.position + d }
    notes := s.notes.map fun n => { n with position := n.position + d }
    labels := s.labels.map fun l => { l with position := l.position + d }
    blocks := s.blocks.map (·.move d) }

end Redraft
