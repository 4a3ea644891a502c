import Redraft.Sheet.Draw

/-!
# Tiling missing units

Units that no sheet draws are added to the root sheet, so that their supply pins
connect. They stand in rows below the content, each row ended when it reaches
the width of the page.
-/

namespace Redraft

/-- The extent of a unit placed at the origin. -/
def unitExtent (source : Symbol) (unit : Nat) : Extent :=
  Extent.ofPoints ((source.outline unit).map (Placement.apply ⟨Point.origin, .zero, .plain⟩))

/-- The library field that a field of a placed symbol is laid out by. -/
def layoutField? (source : Symbol) (key : String) : Option (Field (Option Point)) :=
  fieldOf? source.fields key <|> fieldOf? source.fields "Value"

/-- A field laid out as the library symbol has it, hidden as before. -/
def Field.layOut (source : Symbol) (placement : Placement) (f : Field Point) : Field Point :=
  match layoutField? source f.key with
  | some l =>
    let laid := l.place placement f.value
    { laid with key := f.key, id := f.id, effects := { laid.effects with hide := f.effects.hide } }
  | none => f

/-- A missing unit of a part: the first symbol placed for it with another unit,
    unturned, and with its fields laid out again. -/
def PartUnits.unitSymbol (p : PartUnits) (unit : Nat) (path : SheetPath) (position : Point) : PlacedSymbol :=
  let placement : Placement := ⟨position, .zero, .plain⟩
  let fields := p.symbol.fields.map (·.layOut p.source placement)
  { p.symbol with
    placement, unit, fields, path
    reference := ((fieldOf? fields "Reference").map (·.value)).getD "" }

/-! ## Rows -/

/-- Where the next unit goes: its left end, the height of its row, and the
    lowest unit so far. -/
structure Tiling where
  left : Int
  x : Int
  y : Int
  lowest : Int

/-- The tiling that starts at the bottom left of some content. -/
def Tiling.below (content : Extent) : Tiling :=
  { left := content.elim 0 (·.left)
    x := content.elim 0 (·.left)
    y := content.elim 0 (·.bottom)
    lowest := content.elim 0 (·.top) }

/-- The place of a unit of the given extent. -/
def Tiling.place (t : Tiling) (e : Extent) : Point := ⟨t.x, t.y + e.height⟩

/-- The tiling after a unit of the given extent, on a page of the given width. -/
def Tiling.next (t : Tiling) (e : Extent) (pageWidth : Int) : Tiling :=
  let x := t.x + e.width
  let lowest := max t.lowest (t.y + e.height)
  if pageWidth ≤ x then { t with x := t.left, y := lowest, lowest } else { t with x, lowest }

/-- The sheet with a missing unit of a part at a point. -/
def Sheet.addMissing (s : Sheet) (p : PartUnits) (unit : Nat) (position : Point) : Sheet :=
  let symbol := p.unitSymbol unit s.path position
  let s := s.embed p.source
  let s := { s with symbols := s.symbols ++ [symbol] }
  s.addImplied symbol p.source

/-- The missing units of all parts, in order. -/
def UnitRecord.missing (record : UnitRecord) : List (PartUnits × Nat) :=
  record.flatMap fun (_, part) => part.missing.map fun unit => (part, unit)

/-- The sheet with all missing units. -/
def Sheet.tile (s : Sheet) (record : UnitRecord) : Sheet :=
  let width := s.page.size.x
  (record.missing.foldl (fun (s, t) (part, unit) =>
    let e := unitExtent part.source unit
    (s.addMissing part unit (t.place e), t.next e width)) (s, Tiling.below s.extent)).1

end Redraft
