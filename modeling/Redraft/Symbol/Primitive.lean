import Redraft.Geometry.Arc
import Redraft.Name.Overbar
import Redraft.Report
import Redraft.Symbol.Basic

/-!
# Drawing items as graphics and pins

Every drawing item of an EAGLE symbol has its counterpart in a library symbol:
curved wires become arcs, frames become lines and legends, pins keep their
name, length and function.
-/

namespace Redraft
open Redraft.Number

/-- A rounded binary coordinate. -/
def wholeCoordinate (x : Float) : Except Failure Int := (round x).mapError .notFinite

/-- The graphic of a circle. -/
def Eagle.Circle.graphic (c : Eagle.Circle) : Graphic := .circle c.center c.radius c.width

/-- The graphic of a rectangle. -/
def Eagle.Rectangle.graphic (r : Eagle.Rectangle) : Graphic := .rectangle r.start r.stop

/-- The points of a closed line: the first one again at the end, unless it is there. -/
def closeLine (points : List Point) : List Point :=
  match points.head?, points.getLast? with
  | some first, some last => if first = last then points else points ++ [first]
  | _, _ => points

/-- The graphic of a polygon. -/
def Eagle.Polygon.graphic (p : Eagle.Polygon) : Graphic :=
  .polyline (closeLine p.vertices) (.pen p.width) true

/-! ## Wires -/

/-- The stroke width of an arc that is drawn filled. -/
def thinStroke : Int := 1

/-- The rounded point of two coordinates. -/
def wholePoint (p : Float × Float) : Except Failure Point := do
  return ⟨← wholeCoordinate p.1, ← wholeCoordinate p.2⟩

/-- A point as it is seen from a center. -/
def fromCenter (center : Float × Float) (p : Point) : Float × Float := (ofInt p.x - center.1, ofInt p.y - center.2)

/-- A point pushed outward from a center. -/
def pushOut (center : Float × Float) (scale : Float) (p : Point) : Float × Float :=
  let (dx, dy) := fromCenter center p
  (center.1 + dx * scale, center.2 + dy * scale)

/-- The middle of the arc about a center that begins at a point and sweeps so many degrees. -/
def arcMiddle (center start : Float × Float) (curve : Float) : Float × Float :=
  let dx := start.1 - center.1
  let dy := start.2 - center.2
  let radius := hypot dx dy
  let angle := atan2 dy dx + radians curve / 2.0
  (center.1 + radius * cos angle, center.2 + radius * sin angle)

/-- The arc about a center from a point, with its ends as they are drawn; they change places if it is swept clockwise. -/
def arcFrom (center start : Float × Float) (curve : Float) (begun ended : Except Failure Point) (width : Int)
    (filled : Bool) : Except Failure Graphic := do
  let first ← (if curve < 0.0 then ended else begun)
  let middle ← wholePoint (arcMiddle center start curve)
  let last ← (if curve < 0.0 then begun else ended)
  return .arc first middle last width filled

/-- The arc of a wire that sweeps `curve` degrees. An arc with a pen wider than
    its diameter is drawn filled, its ends pushed outward from the centre. -/
def arcGraphic (w : Eagle.Wire) (curve : Float) : Except Failure Graphic := do
  let center ← arcCenter w.start w.stop (.real curve)
  let (dx, dy) := fromCenter center w.start
  let diameter := 2.0 * hypot dx dy
  let reach := ofInt (w.width * 2)
  if diameter < reach then
    let scale ← divide reach diameter
    let start := pushOut center scale w.start
    arcFrom center start curve (wholePoint start) (wholePoint (pushOut center scale w.stop)) thinStroke true
  else
    arcFrom center (ofInt w.start.x, ofInt w.start.y) curve (.ok w.start) (.ok w.stop) w.width false

/-- The graphic of a wire; one without length has none. -/
def Eagle.Wire.graphic? (w : Eagle.Wire) : Except Failure (Option Graphic) :=
  if w.start = w.stop then .ok none
  else
    let straight := Graphic.polyline [w.start, w.stop] (.pen w.width) false
    match w.curve with
    | none => .ok (some straight)
    | some curve => if curve == 0.0 then .ok (some straight) else (arcGraphic w curve).map some

/-! ## Texts -/

/-- A text on one line: line ends become underscores, an empty text a tilde. -/
def oneLine (s : String) : String :=
  let line := s.map fun c => if c = '\n' ∨ c = '\r' then '_' else c
  if line.isEmpty then "~~" else line

/-- The graphic of a text; its angle is in tenths of a degree. -/
def Eagle.Text.graphic (t : Eagle.Text) : Except Failure Graphic := do
  let style ← t.style 0
  return .text (oneLine t.text) t.position (style.alignment.angle * 10) style.effects

/-! ## Pins -/

/-- The kind of pin that a direction means. -/
def pinKind (direction : Option String) : PinKind :=
  match Text.lower (direction.getD "") with
  | "sup" | "pwr" => .powerIn
  | "pas" => .passive
  | "out" => .output
  | "in" => .input
  | "nc" => .noConnect
  | "oc" => .openCollector
  | "hiz" => .triState
  | _ => .bidirectional

/-- The pin is of a supply symbol. -/
def Eagle.Pin.isSupply (p : Eagle.Pin) : Bool := Text.lower (p.direction.getD "") == "sup"

/-- The shape of pin that a function means. -/
def pinShape (function : Option String) : PinShape :=
  match function with
  | some "dot" => .inverted
  | some "clk" => .clock
  | some "dotclk" => .invertedClock
  | _ => .line

/-- The length of a pin that a name means. -/
def pinLength (name : Option String) : Int :=
  match name with
  | some "point" => 0
  | some "short" => mils 100
  | some "middle" => mils 200
  | _ => mils 300

/-- The number of a pin before it is connected to a pad. -/
def unnumbered : String := "0"

/-- The pin, and a warning if its rotation is not a right angle. -/
def Eagle.Pin.draw (p : Eagle.Pin) : Except Failure (Report × Redraft.Pin) := do
  let degrees ← Eagle.wholeDegreesOf p.rotation
  let turn := Turn.ofDegrees? degrees
  let warnings := if turn.isSome then [] else [Message.warning
    ("Unhandled orientation (" ++ toString degrees ++ " degrees) of pin '" ++ p.name ++ "', using 0")]
  return (warnings, {
    kind := pinKind p.direction
    shape := pinShape p.function
    position := p.position
    turn := turn.getD .zero
    length := Redraft.pinLength p.length
    name := p.name
    showName := p.visible != some "off" && p.visible != some "pad"
    number := unnumbered
    showNumber := p.visible != some "off" && p.visible != some "pin" })

/-! ## Frames -/

/-- The depth of a frame's border. -/
def frameBorder : Int := mils 150

/-- The effects of a legend in a frame's border. -/
def legendEffects : Effects := ⟨mils 90, mils 100, false, {}, false⟩

/-- A thin line through some points. -/
def thinLine (points : List Point) : Graphic := .polyline points .hairline false

/-- A legend at a point. -/
def legend (text : String) (position : Point) : Graphic := .text text position 0 legendEffects

/-- The letter of a row: `A` for the first one. -/
def rowLetter (i : Nat) : String := (Char.ofNat ('A'.toNat + i)).toString

/-- Positions at equal distances: `base + step * i` for each `i`, rounded. -/
def spaced (base step : Float) (indices : List Nat) : Except Failure (List Int) :=
  indices.mapM fun (i : Nat) => wholeCoordinate (base + step * ofInt i)

/-- The left or right border of a frame: a line, the lines between the rows, and their letters. -/
def rowBorder (low high : Point) (rows : Nat) (strip inner outer : Int) : Except Failure (List Graphic) := do
  if 0x10FFFF < 'A'.toNat + (rows - 1) then throw .beyondAlphabet
  let step := ofRatio (high.y - low.y) rows
  let cuts ← spaced (ofInt low.y) step (List.range' 1 (rows - 1))
  let centers ← (List.range rows).mapM fun (i : Nat) =>
    wholeCoordinate (ofInt high.y - step / 2.0 - step * ofInt i)
  return thinLine [⟨strip, low.y + frameBorder⟩, ⟨strip, high.y - frameBorder⟩] ::
    cuts.map (fun y => thinLine [⟨inner, y⟩, ⟨outer, y⟩]) ++
    centers.zipIdx.map fun (y, i) => legend (rowLetter i) ⟨inner + frameBorder / 2, y⟩

/-- The top or bottom border of a frame: a line, the lines between the columns, and their numbers. -/
def columnBorder (low high : Point) (columns : Nat) (strip inner outer : Int) :
    Except Failure (List Graphic) := do
  let step := ofRatio (high.x - low.x) columns
  let cuts ← spaced (ofInt low.x) step (List.range' 1 (columns - 1))
  let centers ← spaced (ofInt low.x + step / 2.0) step (List.range columns)
  return thinLine [⟨high.x - frameBorder, strip⟩, ⟨low.x + frameBorder, strip⟩] ::
    cuts.map (fun x => thinLine [⟨x, inner⟩, ⟨x, outer⟩]) ++
    centers.zipIdx.map fun (x, i) => legend (toString (i + 1)) ⟨x, inner + frameBorder / 2⟩

/-- The outline of a frame and its borders. -/
def Eagle.Frame.graphics (f : Eagle.Frame) : Except Failure (List Graphic) := do
  let low : Point := ⟨min f.start.x f.stop.x, min f.start.y f.stop.y⟩
  let high : Point := ⟨max f.start.x f.stop.x, max f.start.y f.stop.y⟩
  let b := frameBorder
  let rows := (max f.rows 1).toNat
  let columns := (max f.columns 1).toNat
  let outline := thinLine [low, ⟨high.x, low.y⟩, high, ⟨low.x, high.y⟩, low]
  let left ← if f.left then rowBorder low high rows (low.x + b) low.x (low.x + b) else pure []
  let right ← if f.right then rowBorder low high rows (high.x - b) (high.x - b) high.x else pure []
  let top ← if f.top then columnBorder low high columns (high.y - b) (high.y - b) high.y else pure []
  let bottom ← if f.bottom then columnBorder low high columns (low.y + b) low.y (low.y + b) else pure []
  return outline :: (left ++ right ++ top ++ bottom)

end Redraft
