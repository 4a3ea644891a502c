import Redraft.Alignment

/-!
# Labels of nets

A label names the net of the wire it touches, on its own sheet or in the whole
document. Its spin says to which side its text runs.
-/

namespace Redraft
open Redraft.Number

/-- The side to which the text of a label runs. -/
inductive Spin where
  | left
  | up
  | right
  | down
deriving DecidableEq, Repr, Inhabited

namespace Spin

/-- The angle of a label's text. -/
def angle : Spin → Int
  | right => 0
  | up => 90
  | left => 180
  | down => 270

/-- The spin with left and right exchanged. -/
def mirror : Spin → Spin
  | left => right
  | right => left
  | s => s

/-- The spin after a number of quarter turns, starting at the left. -/
def ofQuarters (n : Int) : Spin :=
  match n % 4 with
  | 0 => left
  | 1 => up
  | 2 => right
  | _ => down

/-- The number of quarter turns of a spin. -/
def quarters : Spin → Nat
  | left => 0
  | up => 1
  | right => 2
  | down => 3

/-- The spin that a rotation of a label means; a label without one runs to the right. -/
def ofRotation (rotation : Option Eagle.Rotation) : Except Failure Spin :=
  match rotation with
  | none => .ok right
  | some r => do
    let spin := ofQuarters (← (round (r.degrees / 90.0)).mapError .notFinite)
    return if r.mirrored then spin.mirror else spin

theorem ofQuarters_quarters (s : Spin) : ofQuarters s.quarters = s := by
  cases s <;> rfl

theorem mirror_mirror (s : Spin) : s.mirror.mirror = s := by
  cases s <;> rfl

end Spin

/-- How far the name of a label reaches. -/
inductive Scope where
  | sheet
  | document
deriving DecidableEq, Repr, Inhabited

/-- A label of a net. -/
structure NetLabel where
  text : String
  position : Point
  spin : Spin
  size : Int
  scope : Scope
deriving DecidableEq, Repr

/-- The effects of a label's text: it ends at its point when it runs to the left or down. -/
def NetLabel.effects (l : NetLabel) : Effects :=
  let side : Horizontal := match l.spin with
    | .left | .down => .right
    | .right | .up => .left
  { Effects.square l.size with justify := { horizontal := some side } }

/-- What the text size of a label is scaled by. -/
def Scope.scale : Scope → Float
  | sheet => 0.85
  | document => 0.75

end Redraft
