import Redraft.Geometry.Segment
import Redraft.Units

/-!
# Walks along a wire

A label looks for a place on its wire by probing the origin, one step forward,
one step back, two steps forward, and so on. A direction ends at its first probe
off the wire.
-/

namespace Redraft

/-- A place on a wire, and the wire. -/
structure Foothold where
  place : Point
  wire : Segment

/-- The start, middle and end of each segment. -/
def footholds (wires : List Segment) : List Foothold :=
  wires.flatMap fun s => [⟨s.a, s⟩, ⟨s.center, s⟩, ⟨s.b, s⟩]

/-- The distance between two points. -/
def Point.distance (p q : Point) : Float := Number.hypotInt (p.x - q.x) (p.y - q.y)

/-- The nearer of two places; the earlier one if they are equally far. -/
def nearer (p : Point) (best : Option Foothold) (next : Foothold) : Option Foothold :=
  match best with
  | none => some next
  | some b => if p.distance next.place < p.distance b.place then some next else some b

/-- The start, middle or end of a segment that is nearest to a point. -/
def nearestFoothold (p : Point) (wires : List Segment) : Option Foothold :=
  (footholds wires).foldl (nearer p) none

/-! ## Probes -/

/-- The probe of a given number: odd ones lie forward, even ones back. -/
def probe (origin step : Point) (n : Nat) : Point :=
  let shift := step.scale ((n + 1) / 2 : Nat)
  if n % 2 = 1 then origin + shift else origin - shift

/-- Which directions of a walk go on. -/
structure Directions where
  forward : Bool := true
  back : Bool := true
deriving DecidableEq, Repr

namespace Directions

/-- The direction of a probe goes on. -/
def admits (d : Directions) (n : Nat) : Bool := if n % 2 = 1 then d.forward else d.back

/-- The directions without that of a probe. -/
def close (d : Directions) (n : Nat) : Directions :=
  if n % 2 = 1 then { d with forward := false } else { d with back := false }

/-- Some direction goes on. -/
def any (d : Directions) : Bool := d.forward || d.back

end Directions

/-- Walks on from a probe with the given number of probes left. -/
def walkFrom (inside blocked : Point → Bool) (origin step : Point) :
    Directions → Nat → Nat → Option Point
  | _, _, 0 => none
  | d, n, left + 1 =>
    if !d.any then none
    else if !d.admits n then walkFrom inside blocked origin step d (n + 1) left
    else
      let p := probe origin step n
      if !inside p then walkFrom inside blocked origin step (d.close n) (n + 1) left
      else if blocked p then walkFrom inside blocked origin step d (n + 1) left
      else some p

/-- The first probe inside and not blocked. -/
def walk (inside blocked : Point → Bool) (origin step : Point) (trials : Nat) : Option Point :=
  walkFrom inside blocked origin step {} 0 trials

/-- The first free place for a label on a segment, walking from an origin with a
    step of the given length. -/
def freePlace (origin : Point) (wire : Segment) (blocked : Point → Bool) (step : Int) (trials : Nat) :
    Except Failure (Option Point) := do
  let step ← (wire.direction.resize step).mapError .notFinite
  return walk wire.touches blocked origin step trials

end Redraft
