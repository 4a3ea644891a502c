import Redraft.File.Symbols

/-!
# Written sheets

How a sheet is written: its page, the embedded symbols, and then its items kind
by kind.
-/

namespace Redraft

/-- A line with the thinnest stroke, and its identity. -/
def thinRows (style : String) (id : Identity) : List Row := [strokeRow (.whole 0) style, identityRow id]

/-- A colour that leaves the choice to the reader of the file. -/
def plainColor : Expr := .named "color" [.whole 0, .whole 0, .whole 0, .whole 0]

namespace Sheet

/-- The identity of an item of the sheet. -/
def identity (s : Sheet) (kind : ItemKind) (number : Nat) : Identity := .item s.path kind number

/-- The block of a junction. -/
def junctionRow (s : Sheet) (p : Point) (number : Nat) : Row :=
  .block [.word "junction", pointExpr "at" p, .named "diameter" [.whole 0], plainColor]
    [identityRow (s.identity .junction number)]

/-- The block of a bus entry. -/
def entryRow (s : Sheet) (e : BusEntry) (number : Nat) : Row :=
  .block [.word "bus_entry", pointExpr "at" e.position, pointExpr "size" e.size]
    (thinRows "default" (s.identity .entry number))

/-- The word for a kind of line, and its stroke style. -/
def lineWords : Eagle.LineKind → String × String
  | .wire => ("wire", "default")
  | .bus => ("bus", "default")
  | .notes => ("polyline", "solid")

/-- The block of a line. -/
def lineRow (s : Sheet) (l : Line) (number : Nat) : Row :=
  let (word, style) := lineWords l.kind
  .block [.word word, .named "pts" [pointExpr "xy" l.start, pointExpr "xy" l.stop]]
    (thinRows style (s.identity .line number))

/-- The length from which on the text of a note stands alone on its line. -/
def longNote : Nat := 50

/-- The block of a note. -/
def noteRow (s : Sheet) (n : Note) (number : Nat) : Row :=
  let place := placeExpr n.position n.angle
  let rest := [n.effects.row, identityRow (s.identity .note number)]
  if n.text.length < longNote then .block [.word "text", .quoted n.text, place] rest
  else .block [.word "text", .quoted n.text] (.line [place] :: rest)

/-- The block of a label. -/
def labelRow (s : Sheet) (l : NetLabel) (number : Nat) : Row :=
  let place := placeExpr l.position l.spin.angle
  let head := match l.scope with
    | .sheet => [.word "label", .quoted l.text, place]
    | .document => [.word "global_label", .quoted l.text, .named "shape" [.word "bidirectional"], place]
  .block head [.line [l.effects.expr], identityRow (s.identity .label number)]

/-- The block of the instances in a project. -/
def instancesRow (s : Sheet) (path : Row) : Row :=
  .block [.word "instances"] [.block [.word "project", .quoted s.project] [path]]

/-- The block of a placed symbol. -/
def symbolRow (s : Sheet) (p : PlacedSymbol) (number : Nat) : Row :=
  let mirror := match p.placement.flip with
    | .plain => []
    | .aboutY => [Expr.named "mirror" [.word "y"]]
    | .aboutX => [Expr.named "mirror" [.word "x"]]
  let unit := Expr.named "unit" [.whole p.unit]
  .block ([.word "symbol", .named "lib_id" [.quoted (qualified s.library p.name)],
      placeExpr p.placement.position p.placement.turn.degrees] ++ mirror ++ [unit])
    ([.line [.named "in_bom" [.word "yes"], .named "on_board" [.word "yes"]],
        identityRow (s.identity .symbol number)] ++
      p.fields.map (fun f => fieldRow f (placeExpr f.position f.angle)) ++
      p.pinNumbers.map (fun n => .named "pin" [.quoted n, .named "uuid" [.identity (.pin p.pinOwner n)]]) ++
      [s.instancesRow (.block [.word "path", .path p.path.identities]
        [.line [.named "reference" [.quoted p.reference], unit]])])

/-- The block of a sheet block. -/
def blockRow (s : Sheet) (b : SheetBlock) (number : Nat) : Row :=
  .block [.word "sheet", pointExpr "at" b.position, pointExpr "size" blockSize]
    [strokeRow (.whole 0) "solid", .named "fill" [plainColor], identityRow (.block number),
      fieldRow b.name (placeExpr b.name.position b.name.angle),
      fieldRow b.file (placeExpr b.file.position b.file.angle),
      s.instancesRow (.line [.named "path"
        [.path s.path.identities, .named "page" [.quoted (toString b.page)]]])]

/-! ## The whole sheet -/

/-- The row of a page. -/
def pageRow (p : Page) : Row :=
  match p.paper with
  | some name => .named "paper" [.quoted name]
  | none => .named "paper" [.quoted "User", .length p.size.x, .length p.size.y]

/-- The rows of the embedded symbols, with a blank one between each two. -/
def embeddedRows (s : Sheet) : List Row :=
  if s.embedded.isEmpty then [.named "lib_symbols" []]
  else
    let symbols := s.embedded.map fun e => e.row (qualified s.library e.name)
    [.blank, .block [.word "lib_symbols"] (symbols.intersperse .blank)]

/-- Some rows after a blank one, unless there are none. -/
def group (rows : List Row) : List Row := if rows.isEmpty then [] else .blank :: rows

/-- The rows of the items of one kind. -/
def rowsOf {α : Type} (items : List α) (keep : α → Bool) (row : α → Nat → Row) : List Row :=
  (items.zipIdx.filter fun (a, _) => keep a).map fun (a, i) => row a i

/-- The rows of the items that stand in groups. -/
def itemRows (s : Sheet) : List Row :=
  group (rowsOf s.junctions (fun _ => true) s.junctionRow) ++
  group (rowsOf s.entries (fun _ => true) s.entryRow) ++
  group (rowsOf s.lines (!·.erased) s.lineRow) ++
  group (rowsOf s.notes (fun _ => true) s.noteRow) ++
  group (rowsOf s.labels (·.scope = .sheet) s.labelRow) ++
  group (rowsOf s.labels (·.scope = .document) s.labelRow)

/-- The rows of the symbols and blocks, each after a blank one. -/
def spacedRows (s : Sheet) : List Row :=
  (rowsOf s.symbols (fun _ => true) s.symbolRow ++
    rowsOf s.blocks (fun _ => true) fun b i => s.blockRow b (i + 1)).flatMap fun r => [.blank, r]

/-- The file of the sheet. -/
def fileRow (s : Sheet) : Row :=
  .block (fileHead "kicad_sch" 20230121)
    ([.blank, identityRow (.sheet s.path), .blank, pageRow s.page] ++ s.embeddedRows ++ s.itemRows ++
      s.spacedRows ++ [.blank, .block [.word "sheet_instances"]
        [.named "path" [.quoted "/", .named "page" [.quoted "1"]]]])

end Sheet

end Redraft
