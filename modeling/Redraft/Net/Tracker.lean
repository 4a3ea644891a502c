import Redraft.Geometry.Crossing
import Redraft.Net.LabelWalk

/-!
# Wires and labels of nets

While a sheet is drawn, each connected group of wires is kept with its labels,
and every point where a wire crosses a wire of another net is noted. At the end
the labels are moved onto wires of their own group, off those crossings.
-/

namespace Redraft

/-- A connected group of wires of a net or bus; a label is known by its number. -/
structure NetGroup where
  net : String
  isBus : Bool
  wires : List Segment := []
  labels : List Nat := []
deriving DecidableEq, Repr

/-- The first wire of the group that a point touches. -/
def NetGroup.wireAt? (g : NetGroup) (p : Point) : Option Segment := g.wires.find? (·.touches p)

/-- The groups made so far, those from `first` on being tracked, and the
    crossings among the tracked ones, sorted. -/
structure Tracker where
  groups : List NetGroup := []
  first : Nat := 0
  crossings : List Point := []
deriving DecidableEq, Repr

namespace Tracker

/-- The groups that are tracked. -/
def tracked (t : Tracker) : List NetGroup := t.groups.drop t.first

/-- The number of the next group. -/
def size (t : Tracker) : Nat := t.groups.length

/-- The group of a given number. -/
def group? (t : Tracker) (group : Nat) : Option NetGroup := t.groups[group]?

/-- The tracker with one more group. -/
def addGroup (t : Tracker) (net : String) (isBus : Bool) : Tracker :=
  { t with groups := t.groups ++ [{ net, isBus }] }

/-- A sorted list with one more point, after those equal to it. -/
def insertPoint (p : Point) : List Point → List Point
  | [] => [p]
  | q :: qs => if p.before q then p :: q :: qs else q :: insertPoint p qs

/-- Where a wire of a net crosses the wires of other nets. -/
def crossingsOf (net : String) (wire : Segment) (groups : List NetGroup) : List Point :=
  (groups.filter (·.net != net)).flatMap fun g => g.wires.filterMap fun other => wire.crossing other true

/-- The tracker with one more wire in a group. -/
def addWire (t : Tracker) (group : Nat) (wire : Segment) : Tracker :=
  match t.group? group with
  | none => t
  | some g =>
    { t with
      groups := t.groups.modify group fun g => { g with wires := g.wires ++ [wire] }
      crossings := (crossingsOf g.net wire t.tracked).foldl (fun ps p => insertPoint p ps) t.crossings }

/-- The tracker with one more label in a group. -/
def addLabel (t : Tracker) (group label : Nat) : Tracker :=
  { t with groups := t.groups.modify group fun g => { g with labels := g.labels ++ [label] } }

/-- The point is a crossing. -/
def isCrossing (t : Tracker) (p : Point) : Bool := t.crossings.contains p

/-- The tracker with no group tracked; the groups keep their numbers. -/
def clear (t : Tracker) : Tracker := { t with first := t.size, crossings := [] }

/-! ## Labels -/

/-- Where a label of a group moves to, if it moves: one that touches a wire off
    the crossings stays, and so does one without a wire or a free place. -/
def newPlace (t : Tracker) (g : NetGroup) (p : Point) : Except Failure (Option Point) :=
  let search := fun (origin : Point) (wire : Segment) =>
    freePlace origin wire t.isCrossing labelStep maxLabelTrials
  match g.wireAt? p with
  | some wire => if t.isCrossing p then search p wire else .ok none
  | none => match nearestFoothold p g.wires with
    | some foothold => search foothold.place foothold.wire
    | none => .ok none

/-- The positions of all labels after those of a group have moved, and how many did. -/
def adjustGroup (t : Tracker) (state : List Point × Nat) (g : NetGroup) : Except Failure (List Point × Nat) :=
  g.labels.foldlM (fun (ps, moved) label => do
    match ← t.newPlace g (ps[label]?.getD Point.origin) with
    | some p => return (ps.set label p, moved + 1)
    | none => return (ps, moved)) state

/-- The positions of all labels after the tracked ones have moved, and how many did. -/
def adjust (t : Tracker) (labels : List Point) : Except Failure (List Point × Nat) :=
  t.tracked.foldlM t.adjustGroup (labels, 0)

end Tracker

end Redraft
