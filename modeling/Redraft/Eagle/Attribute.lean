import Redraft.Eagle.Rotation
import Redraft.Markup.Element
import Redraft.Text.Case
import Redraft.Units

/-!
# Attributes of elements

Attributes are read by type: texts, real and whole numbers, flags, rotations,
and coordinates, which are millimetres turned into internal units.
-/

namespace Redraft.Eagle
open Redraft.Number
open Redraft.Markup (Element)

/-- The nine points by which a text is anchored, and any other code. -/
inductive Anchor where
  | center
  | centerLeft
  | topCenter
  | topLeft
  | topRight
  | centerRight
  | bottomCenter
  | bottomLeft
  | bottomRight
  | other (code : Int)
deriving DecidableEq, Repr

namespace Anchor

/-- The number of an anchor. -/
def code : Anchor → Int
  | center => 0
  | centerLeft => 1
  | topCenter => 2
  | topLeft => 3
  | topRight => 4
  | centerRight => -1
  | bottomCenter => -2
  | bottomLeft => -4
  | bottomRight => -3
  | other code => code

/-- The anchor with a given number. -/
def ofCode (n : Int) : Anchor :=
  match [center, centerLeft, topCenter, topLeft, topRight, centerRight, bottomCenter, bottomLeft,
      bottomRight].find? (·.code == n) with
  | some a => a
  | none => other n

/-- The anchor with a given name; an unknown name is bottom left. -/
def ofName (s : String) : Anchor :=
  match s with
  | "center" => center
  | "center-right" => centerRight
  | "top-left" => topLeft
  | "top-center" => topCenter
  | "top-right" => topRight
  | "bottom-center" => bottomCenter
  | "bottom-right" => bottomRight
  | "center-left" => centerLeft
  | _ => bottomLeft

end Anchor

/-! ## Reading one attribute -/

/-- An attribute that has to be there. -/
def required (e : Element) (name : String) : Except Failure String :=
  match e.attribute? name with
  | some value => .ok value
  | none => .error (.missingAttribute e.tag name)

/-- A real number, if the attribute is there. -/
def real? (e : Element) (name : String) : Except Failure (Option Float) :=
  match e.attribute? name with
  | none => .ok none
  | some value => match readReal value with
    | some x => .ok (some x)
    | none => .error (.notReal e.tag name value)

/-- A coordinate, if the attribute is there. -/
def length? (e : Element) (name : String) : Except Failure (Option Int) := do
  match ← real? e name with
  | some x => return some (← ofMillimetres x)
  | none => return none

/-- A coordinate that has to be there. -/
def length (e : Element) (name : String) : Except Failure Int := do
  match ← length? e name with
  | some n => return n
  | none => throw (.missingAttribute e.tag name)

/-- A coordinate, zero if it is missing. -/
def lengthOrZero (e : Element) (name : String) : Except Failure Int := do
  return (← length? e name).getD 0

/-- Two coordinates that have to be there. -/
def pointAt (e : Element) (x y : String) : Except Failure Point := do
  return ⟨← length e x, ← length e y⟩

/-- A whole number, if the attribute is there. -/
def whole? (e : Element) (name : String) : Except Failure (Option Int) :=
  match e.attribute? name with
  | none => .ok none
  | some value => match readWhole value with
    | some n => .ok (some n)
    | none => .error (.notWhole e.tag name value)

/-- A whole number, zero if it is missing. -/
def wholeOrZero (e : Element) (name : String) : Except Failure Int := do
  return (← whole? e name).getD 0

/-- A flag, with its value if it is missing. -/
def flag (e : Element) (name : String) (missing : Bool) : Bool :=
  match e.attribute? name with
  | some value => ["yes", "true", "1"].contains (Text.lower value)
  | none => missing

/-- A rotation, if the attribute is there. -/
def rotation? (e : Element) : Except Failure (Option Rotation) :=
  match e.attribute? "rot" with
  | some value => (Rotation.read value).map some
  | none => .ok none

/-- An anchor, if the attribute is there. -/
def anchor? (e : Element) : Option Anchor := (e.attribute? "align").map Anchor.ofName

end Redraft.Eagle
