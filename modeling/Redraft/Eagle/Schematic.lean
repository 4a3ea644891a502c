import Redraft.Eagle.Library
import Redraft.Markup.Document

/-!
# Schematics

A schematic has layers, libraries, parts and sheets. A sheet places instances
of the parts' gates and draws nets and buses as segments, each a connected
group of wires.
-/

namespace Redraft.Eagle
open Redraft.Markup (Element)

/-- A layer: its number and name. -/
structure Layer where
  number : Int
  name : String
  visible : Bool

/-- A part: a device with a name and values of its own. -/
structure Part where
  name : String
  library : String
  deviceSet : String
  device : String
  value : Option String
  technology : Option String
  attributes : Entries String String
  variants : Entries String String

/-- A gate of a part placed on a sheet. -/
structure Instance where
  part : String
  gate : String
  position : Point
  smashed : Bool
  rotation : Option Rotation
  attributes : List Attribute
  variants : Entries String String

/-- A connected group of wires with its junctions and labels. -/
structure Segment where
  wires : List Wire
  junctions : List Junction
  labels : List Label

/-- A net or a bus. -/
structure Net where
  name : String
  segments : List Segment

/-- A sheet. -/
structure Sheet where
  description : Option String
  plain : List Item
  instances : List Instance
  buses : List Net
  nets : List Net

/-- A schematic. -/
structure Schematic where
  version : String := ""
  layers : Entries Int String := []
  libraries : Entries String Library := []
  parts : Entries String Part := []
  sheets : List Sheet := []

/-- What lines of a layer stand for. -/
inductive LineKind where
  | wire
  | bus
  | notes
deriving DecidableEq, Repr, Inhabited

/-- The kind of lines on a layer: only the layers of nets and buses connect. -/
def Schematic.lineKind (s : Schematic) (layer : Int) : LineKind :=
  match s.layers.get? layer with
  | some "Nets" => .wire
  | some "Busses" => .bus
  | _ => .notes

/-- The part of a given name, in any case. -/
def Schematic.part? (s : Schematic) (name : String) : Option Part :=
  s.parts.get? (Redraft.Text.upper name)

/-- How many nets of each name the sheets have. -/
def Schematic.netCounts (s : Schematic) : Entries String Nat :=
  (s.sheets.flatMap (·.nets)).foldl
    (fun counts n => counts.put n.name ((counts.get? n.name).getD 0 + 1)) []

/-! ## Reading -/

/-- Reads a layer. -/
def Layer.read (e : Element) : Except Failure Layer := do
  return ⟨← wholeOrZero e "number", textOrEmpty e "name", flag e "visible" true⟩

/-- The values of the named children with a given tag. -/
def namedValues (e : Element) (tag : String) : Entries String String :=
  Entries.ofList ((e.named tag).filterMap fun child =>
    let name := textOrEmpty child "name"
    if name.isEmpty then none else some (name, textOrEmpty child "value"))

/-- Reads a part. -/
def Part.read (e : Element) : Except Failure Part := do
  return ⟨← required e "name", ← required e "library", ← required e "deviceset",
    textOrEmpty e "device", e.attribute? "value", e.attribute? "technology",
    namedValues e "attribute", namedValues e "variant"⟩

/-- Reads an instance. -/
def Instance.read (e : Element) : Except Failure Instance := do
  return ⟨← required e "part", ← required e "gate", ← pointAt e "x" "y", flag e "smashed" false,
    ← rotation? e, ← (e.named "attribute").mapM Attribute.read, namedValues e "variant"⟩

/-- Reads a segment. -/
def Segment.read (e : Element) : Except Failure Segment := do
  return ⟨← (e.named "wire").mapM Wire.read, ← (e.named "junction").mapM Junction.read,
    ← (e.named "label").mapM Label.read⟩

/-- Reads a net or a bus. -/
def Net.read (e : Element) : Except Failure Net := do
  return ⟨textOrEmpty e "name", ← (e.named "segment").mapM Segment.read⟩

/-- Reads a sheet. -/
def Sheet.read (e : Element) : Except Failure Sheet := do
  let plain ← match e.first? "plain" with
    | some p => Item.readAll p.children
    | none => pure []
  return ⟨(e.first? "description").bind (·.text?), plain,
    ← (e.grandchildren "instances" "instance").mapM Instance.read,
    ← (e.grandchildren "busses" "bus").mapM Net.read,
    ← (e.grandchildren "nets" "net").mapM Net.read⟩

/-- Reads a schematic from the root element of a document. -/
def Schematic.ofElement (root : Element) : Except Failure Schematic := do
  if root.tag != "eagle" then throw (.wrongRoot root.tag)
  let some drawing := root.first? "drawing" | throw .noDrawing
  let some schematic := drawing.first? "schematic" | throw .notSchematic
  let layers ← (drawing.grandchildren "layers" "layer").mapM Layer.read
  let libraries ← (schematic.grandchildren "libraries" "library").mapM Library.read
  let parts ← (schematic.grandchildren "parts" "part").mapM Part.read
  let sheets ← (schematic.grandchildren "sheets" "sheet").mapM Sheet.read
  return ⟨textOrEmpty root "version", Entries.ofList (layers.map fun l => (l.number, l.name)),
    Entries.ofList (libraries.map fun l => (l.name, l)),
    Entries.ofList (parts.map fun p => (Redraft.Text.upper p.name, p)), sheets⟩

/-- Reads a schematic from the text of a document. -/
def Schematic.read (text : String) : Except Failure Schematic :=
  match Markup.read? text with
  | some root => Schematic.ofElement root
  | none => .error (.malformed none)

end Redraft.Eagle
