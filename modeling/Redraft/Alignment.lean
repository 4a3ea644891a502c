import Redraft.Eagle.Drawing

/-!
# Alignment of text

An EAGLE text hangs from one of nine anchors. The anchor seen on the sheet
depends on the text's rotation relative to its owner and on mirroring; both
permute the anchors. The result is a text angle and a justification, in which a
centred axis is left out.
-/

namespace Redraft
open Redraft.Number
open Redraft.Eagle (Anchor)

/-- The side of a text that sits at its anchor, along the text. -/
inductive Horizontal where
  | left
  | right
deriving DecidableEq, Repr

/-- The side of a text that sits at its anchor, across the text. -/
inductive Vertical where
  | top
  | bottom
deriving DecidableEq, Repr

/-- The word for a side. -/
def Horizontal.text : Horizontal → String
  | left => "left"
  | right => "right"

/-- The word for a side. -/
def Vertical.text : Vertical → String
  | top => "top"
  | bottom => "bottom"

/-- How a text is justified; a centred axis has no side. -/
structure Justification where
  horizontal : Option Horizontal := none
  vertical : Option Vertical := none
deriving DecidableEq, Repr

/-- The angle of a text and its justification. -/
structure Alignment where
  angle : Int
  justify : Justification
deriving DecidableEq, Repr

/-! ## Permutations of anchors -/

namespace Eagle.Anchor

/-- The anchor on the opposite side of the text. -/
def opposite : Anchor → Anchor
  | center => center
  | centerLeft => centerRight
  | topCenter => bottomCenter
  | topLeft => bottomRight
  | topRight => bottomLeft
  | centerRight => centerLeft
  | bottomCenter => topCenter
  | bottomLeft => topRight
  | bottomRight => topLeft
  | other code => other (-code)

/-- The anchor with left and right exchanged. -/
def mirrorHorizontal : Anchor → Anchor
  | bottomRight => bottomLeft
  | bottomLeft => bottomRight
  | topLeft => topRight
  | topRight => topLeft
  | centerLeft => centerRight
  | centerRight => centerLeft
  | a => a

/-- The corner with top and bottom exchanged. -/
def mirrorVertical : Anchor → Anchor
  | bottomRight => topRight
  | bottomLeft => topLeft
  | topLeft => bottomLeft
  | topRight => bottomRight
  | a => a

/-- The anchor after a rotation relative to the owner, and the angle of the text. -/
def rotate (a : Anchor) (relative : Int) : Anchor × Int :=
  if relative = 90 then (a, 90)
  else if relative = 180 then (a.opposite, 0)
  else if relative = 270 then (a.opposite, 90)
  else (a, 0)

/-- The anchor of a mirrored text that stands at an absolute angle. -/
def mirror (a : Anchor) (absolute : Int) : Anchor :=
  if absolute = 90 ∨ absolute = 270 then a.mirrorVertical
  else if absolute = 0 ∨ absolute = 180 then a.mirrorHorizontal
  else a

/-- The justification that an anchor means; an unknown one is bottom right. -/
def justification : Anchor → Justification
  | center => ⟨none, none⟩
  | centerLeft => ⟨some .left, none⟩
  | centerRight => ⟨some .right, none⟩
  | topCenter => ⟨none, some .top⟩
  | topLeft => ⟨some .left, some .top⟩
  | topRight => ⟨some .right, some .top⟩
  | bottomCenter => ⟨none, some .bottom⟩
  | bottomLeft => ⟨some .left, some .bottom⟩
  | bottomRight => ⟨some .right, some .bottom⟩
  | other _ => ⟨some .right, some .bottom⟩

theorem opposite_opposite (a : Anchor) : a.opposite.opposite = a := by
  cases a <;> simp [opposite]

end Eagle.Anchor

/-- The alignment of a text: its anchor, bottom left if it has none, rotated and mirrored. -/
def alignText (anchor : Option Anchor) (relative : Int) (mirrored : Bool) (absolute : Int) : Alignment :=
  let (a, angle) := (anchor.getD .bottomLeft).rotate relative
  ⟨angle, (if mirrored then a.mirror absolute else a).justification⟩

/-! ## Size and weight -/

/-- A whole number times a binary factor, rounded. -/
def scaleBy (factor : Float) (n : Int) : Int :=
  match round (ofInt n * factor) with
  | .ok m => m
  | .error _ => n

/-- The width and height of a text: proportional text is narrower than it is
    tall, text in the fixed font is wider, other fonts are square. -/
def textExtent (size : Int) (font : Option String) : Int × Int :=
  match font with
  | none => (scaleBy 0.85 size, size)
  | some "fixed" => (size, scaleBy 0.80 size)
  | some _ => (size, size)

/-- How a text is drawn. -/
structure Effects where
  width : Int
  height : Int
  bold : Bool := false
  justify : Justification := {}
  hide : Bool := false
deriving DecidableEq, Repr

/-- The effects of a square text. -/
def Effects.square (size : Int) : Effects := ⟨size, size, false, {}, false⟩

/-- The size, weight and alignment of an EAGLE text. -/
structure TextStyle where
  width : Int
  height : Int
  bold : Bool
  alignment : Alignment

/-- The effects of a text in this style. -/
def TextStyle.effects (s : TextStyle) : Effects :=
  ⟨s.width, s.height, s.bold, s.alignment.justify, false⟩

/-- The style of a text with the given size, font, weight, rotation and anchor. -/
def textStyle (size : Option Int) (font : Option String) (ratio : Option Int)
    (rotation : Option Eagle.Rotation) (anchor : Option Anchor) (absolute : Int) :
    Except Failure TextStyle := do
  let (width, height) := textExtent (size.getD 0) font
  let relative ← Eagle.wholeDegreesOf rotation
  return ⟨width, height, ratio.any (12 < ·),
    alignText anchor relative (rotation.any (·.mirrored)) absolute⟩

/-- The style of a text item. -/
def Eagle.Text.style (t : Eagle.Text) (absolute : Int) : Except Failure TextStyle :=
  textStyle (some t.size) t.font t.ratio t.rotation t.anchor absolute

/-- The style of an attribute. -/
def Eagle.Attribute.style (a : Eagle.Attribute) (absolute : Int) : Except Failure TextStyle :=
  textStyle a.size a.font a.ratio a.rotation a.anchor absolute

end Redraft
