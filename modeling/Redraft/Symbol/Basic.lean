import Redraft.Alignment
import Redraft.Geometry.Turn

/-!
# Symbols

A library symbol has fields and units; a unit has graphics and pins. Y points
up. The outline of a unit is the list of points that its extent is taken from.
-/

namespace Redraft

/-- A named value shown beside a symbol; `position` is where it stands. -/
structure Field (position : Type) where
  key : String
  value : String
  id : Nat
  position : position
  angle : Int
  effects : Effects
deriving DecidableEq, Repr

/-- The first field with a given key. -/
def fieldOf? {α : Type} (fields : List (Field α)) (key : String) : Option (Field α) :=
  fields.find? (·.key == key)

/-- The fields with the first one of a given key changed. -/
def changeField {α : Type} (key : String) (f : Field α → Field α) : List (Field α) → List (Field α)
  | [] => []
  | field :: rest => if field.key == key then f field :: rest else field :: changeField key f rest

/-- The field with its text hidden. -/
def Field.hidden {α : Type} (field : Field α) : Field α :=
  { field with effects := { field.effects with hide := true } }

/-- The fields with the first one of a given key hidden. -/
def hideField {α : Type} (key : String) (fields : List (Field α)) : List (Field α) :=
  changeField key Field.hidden fields

/-- The pen of a line: the thinnest one, or one of a given width. -/
inductive Stroke where
  | hairline
  | pen (width : Int)
deriving DecidableEq, Repr

/-- The width of a pen. -/
def Stroke.width : Stroke → Int
  | hairline => 0
  | pen width => width

/-- A drawing of a unit. -/
inductive Graphic where
  | polyline (points : List Point) (stroke : Stroke) (filled : Bool)
  | rectangle (start stop : Point)
  | circle (center : Point) (radius width : Int)
  | arc (start middle stop : Point) (width : Int) (filled : Bool)
  | text (text : String) (position : Point) (angle : Int) (effects : Effects)
deriving DecidableEq, Repr

/-- What a pin does electrically. -/
inductive PinKind where
  | powerIn
  | passive
  | output
  | input
  | noConnect
  | bidirectional
  | openCollector
  | triState
deriving DecidableEq, Repr

/-- The word for a kind of pin. -/
def PinKind.text : PinKind → String
  | powerIn => "power_in"
  | passive => "passive"
  | output => "output"
  | input => "input"
  | noConnect => "no_connect"
  | bidirectional => "bidirectional"
  | openCollector => "open_collector"
  | triState => "tri_state"

/-- How a pin is drawn. -/
inductive PinShape where
  | line
  | inverted
  | clock
  | invertedClock
deriving DecidableEq, Repr

/-- The word for a shape of pin. -/
def PinShape.text : PinShape → String
  | line => "line"
  | inverted => "inverted"
  | clock => "clock"
  | invertedClock => "inverted_clock"

/-- A pin of a unit. -/
structure Pin where
  kind : PinKind
  shape : PinShape
  position : Point
  turn : Turn
  length : Int
  name : String
  showName : Bool
  number : String
  showNumber : Bool
deriving DecidableEq, Repr

/-- A unit of a symbol. -/
structure SymbolUnit where
  number : Nat
  graphics : List Graphic
  pins : List Pin
deriving DecidableEq, Repr

/-- A library symbol. A field that was never placed has no position. -/
structure Symbol where
  name : String
  isPower : Bool
  fields : List (Field (Option Point))
  units : List SymbolUnit
deriving DecidableEq, Repr

/-! ## Outlines -/

/-- The points that the extent of a graphic is taken from. -/
def Graphic.outline : Graphic → List Point
  | polyline points _ _ => points
  | rectangle start stop => [start, stop]
  | circle c r _ => [⟨c.x - r, c.y - r⟩, ⟨c.x + r, c.y + r⟩]
  | arc start middle stop _ _ => [start, middle, stop]
  | text _ position _ _ => [position]

/-- The end of a pin at the body of the symbol. -/
def Pin.inner (p : Pin) : Point := p.position + (p.turn.apply ⟨p.length, 0⟩).flip

/-- The points that the extent of a unit is taken from. -/
def SymbolUnit.outline (u : SymbolUnit) : List Point :=
  u.graphics.flatMap Graphic.outline ++ u.pins.flatMap fun p => [p.position, p.inner]

namespace Symbol

/-- The units that are drawn for a unit number; zero stands for every unit. -/
def drawn (s : Symbol) (unit : Nat) : List SymbolUnit :=
  s.units.filter fun u => unit == 0 || u.number == 0 || u.number == unit

/-- The greatest unit number, at least one. -/
def unitCount (s : Symbol) : Nat := (s.units.map (·.number)).foldl max 1

/-- The points that the extent of a drawn unit is taken from. -/
def outline (s : Symbol) (unit : Nat) : List Point := (s.drawn unit).flatMap (·.outline)

/-- The pins of a drawn unit. -/
def pins (s : Symbol) (unit : Nat) : List Pin := (s.drawn unit).flatMap (·.pins)

end Symbol

end Redraft
