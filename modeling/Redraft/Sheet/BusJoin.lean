import Redraft.Sheet.Basic

/-!
# Joining wires to buses

A wire that ends on a bus is drawn back by a grid step and joined to the bus by
an entry, a diagonal over one grid square. A wire perpendicular to the bus needs
a point of the bus beside the touching point, on the first side tried that has
one; if neither has one, a marker is left. A slanted wire gives up its own end.
-/

namespace Redraft

/-- One of the two ends of a line. -/
inductive LineEnd where
  | start
  | stop
deriving DecidableEq, Repr, Inhabited

namespace Line

/-- The point of an end. -/
def atEnd (l : Line) : LineEnd → Point
  | .start => l.start
  | .stop => l.stop

/-- The point of the other end. -/
def farEnd (l : Line) : LineEnd → Point
  | .start => l.stop
  | .stop => l.start

/-- The line with an end moved. -/
def moveEnd (l : Line) (e : LineEnd) (p : Point) : Line :=
  match e with
  | .start => { l with start := p }
  | .stop => { l with stop := p }

end Line

/-- The entry between two points, from the left one to the right one. -/
def BusEntry.between (a b : Point) : BusEntry := if b.x < a.x then ⟨b, a - b⟩ else ⟨a, b - a⟩

/-! ## Perpendicular wires -/

/-- How an end of a wire leaves its bus: the way the end is drawn back, and the
    ways along the bus that are tried in order, in grid steps. -/
structure Leaving where
  back : Point
  first : Point
  second : Point
deriving DecidableEq, Repr

/-- How a horizontal wire leaves a bus, by the end that touches and the side of its other end. -/
def leaveAcross (e : LineEnd) (toLeft : Bool) : Leaving :=
  match e, toLeft with
  | .start, true => ⟨⟨-1, 0⟩, ⟨0, -1⟩, ⟨0, 1⟩⟩
  | .start, false => ⟨⟨1, 0⟩, ⟨0, -1⟩, ⟨0, 1⟩⟩
  | .stop, true => ⟨⟨-1, 0⟩, ⟨0, 1⟩, ⟨0, -1⟩⟩
  | .stop, false => ⟨⟨1, 0⟩, ⟨0, -1⟩, ⟨0, 1⟩⟩

/-- How a vertical wire leaves a bus, by the side of its other end. -/
def leaveUpright (above : Bool) : Leaving :=
  ⟨⟨0, if above then -1 else 1⟩, ⟨-1, 0⟩, ⟨1, 0⟩⟩

/-- How an end of a wire leaves a bus. -/
def leaving (wire : Line) (bus : Segment) (e : LineEnd) : Leaving :=
  if wire.start.y = wire.stop.y then leaveAcross e ((wire.farEnd e).x < bus.a.x)
  else leaveUpright ((wire.farEnd e).y < bus.a.y)

/-- What is written where no entry fits. -/
def entryNeeded : String := "Bus Entry needed"

/-- A sheet on which wires are being joined, and how many entries that took. -/
structure Joining where
  sheet : Sheet
  count : Nat := 0

/-- The sheet with the labels on a wire carried to a point and one of its ends there. -/
def Sheet.drawBack (s : Sheet) (number : Nat) (wire : Line) (e : LineEnd) (target : Point) : Sheet :=
  let s := s.moveLabels wire.segment target
  { s with lines := s.lines.modify number (·.moveEnd e target) }

namespace Joining

/-- The line of a given number. -/
def line? (j : Joining) (number : Nat) : Option Line := j.sheet.lines[number]?

/-- Draws an entry. -/
def addEntry (j : Joining) (entry : BusEntry) : Joining := ⟨j.sheet.addEntry entry, j.count + 1⟩

/-- Joins an end of a perpendicular wire, if it touches the bus. -/
def joinPerpendicular (bus : Segment) (number : Nat) (j : Joining) (e : LineEnd) : Joining :=
  match j.line? number with
  | none => j
  | some wire =>
    let touch := wire.atEnd e
    if !bus.hits touch then j
    else
      let way := leaving wire bus e
      let target := touch + way.back.scale grid
      match [way.first, way.second].find? fun along => bus.hits (touch + along.scale grid) with
      | some along =>
        let j := j.addEntry (.between target (touch + along.scale grid))
        { j with sheet := j.sheet.drawBack number wire e target }
      | none => { j with sheet := j.sheet.addMarker touch entryNeeded }

/-! ## Slanted wires -/

/-- A grid step along one axis toward a displacement. -/
def stepToward (n : Int) : Int := if 0 < n then grid else -grid

/-- Joins an end of a slanted wire, if it touches the bus. A wire that the entry
    covers entirely is erased. -/
def joinSlanted (bus : Segment) (number : Nat) (j : Joining) (e : LineEnd) : Joining :=
  match j.line? number with
  | none => j
  | some wire =>
    let touch := wire.atEnd e
    if wire.erased || !bus.hits touch then j
    else
      let far := wire.farEnd e
      let target := touch + ⟨stepToward (far.x - touch.x), stepToward (far.y - touch.y)⟩
      let j := j.addEntry (.between touch target)
      { j with sheet :=
          if target = far then (j.sheet.moveLabels wire.segment target).eraseLine number
          else j.sheet.drawBack number wire e target }

/-! ## All wires and buses -/

/-- One of the segments is horizontal and the other one vertical. -/
def perpendicular (a b : Segment) : Bool :=
  (a.isHorizontal && b.isVertical) || (a.isVertical && b.isHorizontal)

/-- Joins both ends of a wire to a bus. -/
def joinWire (bus : Segment) (j : Joining) (number : Nat) : Joining :=
  match j.line? number with
  | none => j
  | some wire =>
    let w := wire.segment
    if w.a = w.b then j
    else if perpendicular w bus then [LineEnd.start, .stop].foldl (joinPerpendicular bus number) j
    else if w.isHorizontal || w.isVertical then j
    else [LineEnd.start, .stop].foldl (joinSlanted bus number) j

/-- Joins all wires to a bus. -/
def joinBus (j : Joining) (number : Nat) : Joining :=
  match j.line? number with
  | none => j
  | some line =>
    let bus := line.segment
    if bus.a = bus.b then j else j.sheet.wires.foldl (joinWire bus) j

end Joining

/-- Joins all wires to all buses. -/
def Sheet.joinBuses (s : Sheet) : Joining := s.buses.foldl Joining.joinBus ⟨s, 0⟩

end Redraft
