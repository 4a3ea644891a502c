import Redraft.Name.Bus
import Redraft.Sheet.BusJoin
import Redraft.Sheet.Implied
import Redraft.Sheet.Nets
import Redraft.Sheet.Page
import Redraft.Sheet.Plain

/-!
# Drawing a whole sheet

An EAGLE sheet is drawn in a fixed order: instances, buses, nets, corrected
labels, bus entries and plain items. Then the page is fitted, supply pins get
their labels, and everything is moved to the middle of the page.
-/

namespace Redraft

/-- Places an instance, if its part and symbol are found. -/
def placeInstance (c : Context) (i : Eagle.Instance) : Drafting Bool := do
  match c.resolve i with
  | .error cause =>
    Drafting.report [.error cause.message]
    return false
  | .ok resolved =>
    let (warnings, placement) ← Drafting.lift i.placement
    Drafting.report warnings
    Drafting.changeSheet (·.embed resolved.symbol)
    let s ← Drafting.sheet
    let symbol ← Drafting.lift (placeSymbol s.path s.symbols.length i resolved placement)
    Drafting.changeSheet (·.addSymbol symbol resolved.symbol)
    return true

/-- Draws a bus under its translated name. -/
def drawBus (c : Context) (n : Eagle.Net) : Drafting Unit := drawNet c (Name.bus n.name) true n

/-- Joins all wires to all buses and counts the entries. -/
def joinBuses : Drafting Nat := do
  let joined := (← Drafting.sheet).joinBuses
  Drafting.changeSheet fun _ => joined.sheet
  return joined.count

/-- Adds the labels that placed symbols imply, each from the symbol embedded under its name. -/
def drawAllImplied (symbols : List PlacedSymbol) : Drafting Unit :=
  symbols.forM fun symbol => do
    match (← Drafting.sheet).symbol? symbol.name with
    | some source => discard (drawImplied symbol source true)
    | none => return

/-- The warning about a marker of a sheet. -/
def markerWarning (sheet : String) (marker : Note) : Message :=
  .warning (marker.text ++ " at (" ++ lengthText marker.position.x ++ ", " ++
    lengthText marker.position.y ++ ") mm on sheet '" ++ sheet ++ "'")

/-- Reports all markers of the sheet. -/
def reportMarkers : Drafting Unit := do
  let s ← Drafting.sheet
  Drafting.report (s.markers.map (markerWarning s.name))

/-- Draws an EAGLE sheet. -/
def drawSheet (c : Context) (e : Eagle.Sheet) : Drafting Unit := do
  let before := (← Drafting.sheet).symbols.length
  e.instances.forM fun i => discard (placeInstance c i)
  e.buses.forM (drawBus c)
  e.nets.forM fun n => drawNet c n.name false n
  discard adjustLabels
  discard joinBuses
  e.plain.forM (drawPlain c)
  let content := (← Drafting.sheet).extent
  Drafting.changeSheet fun s => { s with page := s.page.fit content }
  drawAllImplied ((← Drafting.sheet).symbols.drop before)
  Drafting.changeSheet fun s => { s with joints := [] }.move (s.page.centering content)
  reportMarkers

end Redraft
