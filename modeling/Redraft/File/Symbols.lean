import Redraft.File.Expression

/-!
# Written symbols

How library symbols are written, alone in a library file and embedded in a
sheet.
-/

namespace Redraft

/-- The name under which the tool signs its files. -/
def generator : String := "eagle2kicad"

/-- The head of a file: its kind and version, and what made it. -/
def fileHead (kind : String) (version : Nat) : List Expr :=
  [.word kind, .named "version" [.whole version], .named "generator" [.word generator]]

/-- The row of a fill. -/
def fillRow (filled : Bool) : Row :=
  .named "fill" [.named "type" [.word (if filled then "outline" else "none")]]

/-- The block of a drawing. -/
def Graphic.row : Graphic → Row
  | polyline points stroke filled => .block [.word "polyline"]
      [.block [.word "pts"] (points.map fun p => .line [pointExpr "xy" p]),
        strokeRow stroke.expr "default", fillRow filled]
  | rectangle start stop => .block [.word "rectangle", pointExpr "start" start, pointExpr "end" stop]
      [strokeRow (.whole 0) "default", fillRow true]
  | circle center radius width =>
    .block [.word "circle", pointExpr "center" center, .named "radius" [.length radius]]
      [strokeRow (.length width) "default", fillRow false]
  | arc start middle stop width filled =>
    .block [.word "arc", pointExpr "start" start, pointExpr "mid" middle, pointExpr "end" stop]
      [strokeRow (.length width) "default", fillRow filled]
  | text words position angle effects =>
    .block [.word "text", .quoted words, placeExpr position angle] [effects.row]

/-- The effects of a text of a pin: one that is not shown has no size. -/
def pinEffects (shown : Bool) : Expr := (Effects.square (if shown then textSize else 0)).expr

/-- The block of a pin. -/
def Pin.row (p : Pin) : Row :=
  .block [.word "pin", .word p.kind.text, .word p.shape.text, placeExpr p.position p.turn.degrees,
      .named "length" [.length p.length]]
    [.named "name" [.quoted p.name, pinEffects p.showName],
      .named "number" [.quoted p.number, pinEffects p.showNumber]]

/-- The name of a unit. -/
def SymbolUnit.name (u : SymbolUnit) (symbol : String) : String := symbol ++ "_" ++ toString u.number ++ "_1"

/-- The block of a unit. -/
def SymbolUnit.row (symbol : String) (u : SymbolUnit) : Row :=
  .block [.word "symbol", .quoted (u.name symbol)] (u.graphics.map Graphic.row ++ u.pins.map Pin.row)

/-- Where a library field stands; one that was never placed has whole zeros. -/
def fieldPlace (f : Field (Option Point)) : Expr :=
  match f.position with
  | some p => placeExpr p f.angle
  | none => .named "at" [.whole 0, .whole 0, .whole f.angle]

/-- The block of a symbol under a given name. -/
def Symbol.row (id : String) (s : Symbol) : Row :=
  .block ([.word "symbol", .quoted id] ++ (if s.isPower then [Expr.named "power" []] else []) ++
      [.named "in_bom" [.word "yes"], .named "on_board" [.word "yes"]])
    (s.fields.map (fun f => fieldRow f (fieldPlace f)) ++ s.units.map (·.row s.name))

/-- The name of a symbol of a library. -/
def qualified (library symbol : String) : String := library ++ ":" ++ symbol

/-- A library file. -/
def symbolFile (symbols : List Symbol) : Row :=
  .block (fileHead "kicad_symbol_lib" 20220914) (symbols.map fun s => s.row s.name)

end Redraft
