import Redraft.Eagle.Attribute

/-!
# Drawing items

The items that symbols and sheets are drawn with. Y points up. A tag that is
no drawing item is passed over.
-/

namespace Redraft.Eagle
open Redraft.Markup (Element)

/-- A line, or an arc of `curve` degrees over its chord. -/
structure Wire where
  start : Point
  stop : Point
  width : Int
  layer : Int
  curve : Option Float

/-- A dot that joins wires. -/
structure Junction where
  position : Point

/-- The label of a net. -/
structure Label where
  position : Point
  size : Int
  layer : Int
  rotation : Option Rotation
  crossReference : Bool

/-- A text. -/
structure Text where
  text : String
  position : Point
  size : Int
  layer : Int
  font : Option String
  ratio : Option Int
  rotation : Option Rotation
  anchor : Option Anchor

/-- An attribute of a part as it is shown. -/
structure Attribute where
  name : String
  value : Option String
  x : Option Int
  y : Option Int
  size : Option Int
  layer : Option Int
  font : Option String
  ratio : Option Int
  rotation : Option Rotation
  display : Option String
  anchor : Option Anchor

/-- A pin of a symbol. -/
structure Pin where
  name : String
  position : Point
  visible : Option String
  length : Option String
  direction : Option String
  function : Option String
  rotation : Option Rotation

/-- A circle. -/
structure Circle where
  center : Point
  radius : Int
  width : Int
  layer : Int

/-- A filled rectangle. -/
structure Rectangle where
  start : Point
  stop : Point
  layer : Int
  rotation : Option Rotation

/-- A filled polygon. -/
structure Polygon where
  width : Int
  layer : Int
  vertices : List Point

/-- A frame with rows and columns along its borders. -/
structure Frame where
  start : Point
  stop : Point
  columns : Int
  rows : Int
  layer : Int
  left : Bool
  top : Bool
  right : Bool
  bottom : Bool

/-- A drawing item. -/
inductive Item where
  | wire (w : Wire)
  | junction (j : Junction)
  | label (l : Label)
  | text (t : Text)
  | pin (p : Pin)
  | circle (c : Circle)
  | rectangle (r : Rectangle)
  | polygon (p : Polygon)
  | frame (f : Frame)

/-! ## Reading -/

/-- Reads a wire. -/
def Wire.read (e : Element) : Except Failure Wire := do
  return ⟨← pointAt e "x1" "y1", ← pointAt e "x2" "y2", ← lengthOrZero e "width",
    ← wholeOrZero e "layer", ← real? e "curve"⟩

/-- Reads a junction. -/
def Junction.read (e : Element) : Except Failure Junction := do
  return ⟨← pointAt e "x" "y"⟩

/-- Reads a label. -/
def Label.read (e : Element) : Except Failure Label := do
  return ⟨← pointAt e "x" "y", ← Eagle.length e "size", ← wholeOrZero e "layer", ← rotation? e,
    flag e "xref" false⟩

/-- Reads a text. -/
def Text.read (e : Element) : Except Failure Text := do
  return ⟨e.text, ← pointAt e "x" "y", ← Eagle.length e "size", ← wholeOrZero e "layer",
    e.attribute? "font", ← whole? e "ratio", ← rotation? e, anchor? e⟩

/-- Reads an attribute. -/
def Attribute.read (e : Element) : Except Failure Attribute := do
  let display := match e.attribute? "display" with
    | some s => if s.isEmpty then none else some (Redraft.Text.lower s)
    | none => none
  return ⟨← required e "name", e.attribute? "value", ← length? e "x", ← length? e "y",
    ← length? e "size", ← whole? e "layer", e.attribute? "font", ← whole? e "ratio",
    ← rotation? e, display, anchor? e⟩

/-- Reads a pin. -/
def Pin.read (e : Element) : Except Failure Pin := do
  return ⟨← required e "name", ← pointAt e "x" "y", e.attribute? "visible", e.attribute? "length",
    e.attribute? "direction", e.attribute? "function", ← rotation? e⟩

/-- Reads a circle. -/
def Circle.read (e : Element) : Except Failure Circle := do
  return ⟨← pointAt e "x" "y", ← Eagle.length e "radius", ← lengthOrZero e "width",
    ← wholeOrZero e "layer"⟩

/-- Reads a rectangle. -/
def Rectangle.read (e : Element) : Except Failure Rectangle := do
  return ⟨← pointAt e "x1" "y1", ← pointAt e "x2" "y2", ← wholeOrZero e "layer", ← rotation? e⟩

/-- Reads a polygon. -/
def Polygon.read (e : Element) : Except Failure Polygon := do
  let vertices ← (e.named "vertex").mapM fun v => pointAt v "x" "y"
  return ⟨← lengthOrZero e "width", ← wholeOrZero e "layer", vertices⟩

/-- Reads a frame. -/
def Frame.read (e : Element) : Except Failure Frame := do
  return ⟨← pointAt e "x1" "y1", ← pointAt e "x2" "y2", ← wholeOrZero e "columns",
    ← wholeOrZero e "rows", ← wholeOrZero e "layer", flag e "border-left" true,
    flag e "border-top" true, flag e "border-right" true, flag e "border-bottom" true⟩

/-- Reads a drawing item, if the element is one. -/
def Item.read? (e : Element) : Except Failure (Option Item) :=
  match e.tag with
  | "wire" => (Wire.read e).map (some ∘ .wire)
  | "junction" => (Junction.read e).map (some ∘ .junction)
  | "label" => (Label.read e).map (some ∘ .label)
  | "text" => (Text.read e).map (some ∘ .text)
  | "pin" => (Pin.read e).map (some ∘ .pin)
  | "circle" => (Circle.read e).map (some ∘ .circle)
  | "rectangle" => (Rectangle.read e).map (some ∘ .rectangle)
  | "polygon" => (Polygon.read e).map (some ∘ .polygon)
  | "frame" => (Frame.read e).map (some ∘ .frame)
  | _ => .ok none

/-- Reads the drawing items among some elements. -/
def Item.readAll (es : List Element) : Except Failure (List Item) := do
  return (← es.mapM Item.read?).filterMap id

end Redraft.Eagle
