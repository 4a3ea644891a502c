import Redraft.Name.Overbar
import Redraft.Sheet.Desk

/-!
# Nets and buses

Each segment of a net becomes a group of wires with its labels. A net with more
than one group, here or on other sheets, needs a label on each of them: a group
without one gets a small label at the start of its first wire. Labels reach over
the whole document if the net is on more than one sheet.
-/

namespace Redraft

/-- The net is drawn more than once in the document. -/
def Context.spansSheets (c : Context) (net : String) : Bool := 1 < (c.netCounts.get? net).getD 0

/-- The ends of an EAGLE wire on the sheet. -/
def Eagle.Wire.onSheet (w : Eagle.Wire) : Redraft.Segment := ⟨w.start.flip, w.stop.flip⟩

/-- A label made for a wire without one. -/
def madeLabel (text : String) (position : Point) (scope : Scope) : NetLabel :=
  { text, position, spin := .left, size := madeLabelSize, scope }

/-- The scope of the label that a group without one needs, if it needs one: it
    does when its net is on other sheets or in other groups of this one. -/
def neededScope (spans : Bool) (groups : Nat) : Option Scope :=
  if spans then some .document else if 1 < groups then some .sheet else none

namespace Sheet

/-- The sheet with a wire of a group. -/
def addWire (c : Context) (group : Nat) (s : Sheet) (w : Eagle.Wire) : Sheet :=
  let s := s.addLine (c.document.lineKind w.layer) w.start.flip w.stop.flip
  { s with tracker := s.tracker.addWire group w.onSheet }

/-- The sheet with an explicit label of a group. -/
def addGroupLabel (s : Sheet) (group : Nat) (label : NetLabel) : Sheet :=
  { s.addLabel label with tracker := s.tracker.addLabel group s.labels.length }

/-- The sheet with the label that a group without one needs. -/
def addMadeLabel (s : Sheet) (text : String) (scope : Option Scope) (segment : Eagle.Segment) : Sheet :=
  match segment.labels, segment.wires, scope with
  | [], w :: _, some scope => s.addLabel (madeLabel text w.start.flip scope)
  | _, _, _ => s

end Sheet

/-- Draws an explicit label. -/
def drawLabel (text : String) (scope : Scope) (group : Nat) (l : Eagle.Label) : Drafting Unit := do
  let spin ← Drafting.lift (Spin.ofRotation l.rotation)
  let label := { text, position := l.position.flip, spin, size := scaleBy scope.scale l.size, scope }
  Drafting.changeSheet (·.addGroupLabel group label)

/-- Draws a segment of a net as a group; `groups` is how many the net has on this sheet. -/
def drawSegment (c : Context) (net : String) (isBus : Bool) (groups : Nat) (segment : Eagle.Segment) :
    Drafting Unit := do
  let group := (← Drafting.sheet).tracker.size
  let spans := c.spansSheets net
  Drafting.changeSheet fun s => { s with tracker := s.tracker.addGroup net isBus }
  Drafting.changeSheet fun s => segment.wires.foldl (Sheet.addWire c group) s
  Drafting.changeSheet fun s => segment.junctions.foldl (fun s j => s.addJunction j.position.flip) s
  segment.labels.forM (drawLabel (Name.label net) (if spans then .document else .sheet) group)
  Drafting.changeSheet (·.addMadeLabel (Name.label net) (neededScope spans groups) segment)

/-- Draws the segments of a net or bus under a name. -/
def drawNet (c : Context) (net : String) (isBus : Bool) (n : Eagle.Net) : Drafting Unit :=
  n.segments.forM (drawSegment c net isBus n.segments.length)

/-! ## Correcting labels -/

/-- The sheet with the labels at given positions. -/
def Sheet.placeLabels (s : Sheet) (positions : List Point) : Sheet :=
  { s with labels := s.labels.zipWith (fun l position => { l with position }) positions }

/-- Moves the labels onto their wires, ends the tracking and counts the moves. -/
def adjustLabels : Drafting Nat := do
  let s ← Drafting.sheet
  let (positions, moved) ← Drafting.lift (s.tracker.adjust (s.labels.map (·.position)))
  Drafting.changeSheet fun s => { s.placeLabels positions with tracker := s.tracker.clear }
  return moved

end Redraft
