import Redraft.Failure
import Redraft.Number.Numeral

/-!
# Rotations

A rotation is written `R90`, `MR180` for a mirrored one, and with a leading `S`
for text that keeps its orientation.
-/

namespace Redraft.Eagle
open Redraft.Number

/-- The rotation of an object. -/
structure Rotation where
  degrees : Float := 0.0
  mirrored : Bool := false
  spin : Bool := false

namespace Rotation

/-- A leading letter, and the rest. -/
def takeLetter (letter : Char) : List Char → Bool × List Char
  | c :: cs => if c = letter then (true, cs) else (false, c :: cs)
  | [] => (false, [])

/-- A sign, digits, and perhaps a point with more digits. -/
def isAngle (cs : List Char) : Bool :=
  let digits := (splitSign cs).2
  let rest := digits.dropWhile Text.isDecimalDigit
  digits.length != rest.length &&
    (match rest with
      | [] => true
      | c :: more => c == '.' && more.all Text.isDecimalDigit)

/-- Reads a rotation from a text without blanks around it. -/
def read? (cs : List Char) : Option Rotation := do
  let (spin, cs) := takeLetter 'S' cs
  let (mirrored, cs) := takeLetter 'M' cs
  match cs with
  | 'R' :: angle => if isAngle angle then return ⟨← readReal (String.ofList angle), mirrored, spin⟩ else none
  | _ => none

/-- Reads a rotation; an empty text is none at all. -/
def read (s : String) : Except Failure Rotation :=
  if s.isEmpty then .ok {}
  else match read? (Text.trim s.toList) with
    | some r => .ok r
    | none => .error (.badRotation s)

/-- The whole degrees, cut toward zero. -/
def wholeDegrees (r : Rotation) : Except Failure Int := (truncate r.degrees).mapError .notFinite

end Rotation

/-- The whole degrees of a rotation that may be missing. -/
def wholeDegreesOf (r : Option Rotation) : Except Failure Int :=
  match r with
  | some r => r.wholeDegrees
  | none => .ok 0

end Redraft.Eagle
