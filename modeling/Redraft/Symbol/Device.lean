import Redraft.Eagle.Library
import Redraft.Name.File
import Redraft.Symbol.Primitive
import Redraft.Text.Blank

/-!
# Devices as symbols

A device becomes a symbol with one unit for each gate of its device set. Its
pins are numbered after the pads they are connected to; a pin on several pads
appears once for each, and a pin without a pad is dropped. Without any
connections the pins are numbered in order.
-/

namespace Redraft

/-- What a unit's drawing has come to. -/
structure UnitDrawing where
  fields : List (Field (Option Point))
  graphics : List Graphic := []
  pins : List Pin := []
  pinCount : Nat := 0
  hasName : Bool := false
  hasValue : Bool := false
  isSupply : Bool := false
  report : Report := []

namespace UnitDrawing

/-- The drawing with more graphics. -/
def addGraphics (d : UnitDrawing) (gs : List Graphic) : UnitDrawing :=
  { d with graphics := d.graphics ++ gs }

/-- The drawing with a field where a text stands that holds its place. -/
def placeField (d : UnitDrawing) (key : String) (t : Eagle.Text) : Except Failure UnitDrawing := do
  let style ← t.style 0
  return { d with fields := changeField key (fun f => { f with
    position := some t.position, angle := style.alignment.angle, effects := style.effects }) d.fields }

/-- The pins for the pads that a pin of a gate is connected to. -/
def padPins (pin : Pin) (connect : Eagle.Connect) : List Pin :=
  let pads := Text.words connect.pads
  pads.map fun pad => { pin with
    name := Name.label pin.name
    showNumber := pin.showNumber && pads.length ≤ 1
    number := pad }

/-- The pins that a symbol's pin becomes in a gate of a device; `count` is its place among the pins. -/
def numberedPins (device : Eagle.Device) (gate : String) (count : Nat) (pin : Pin) : List Pin :=
  if device.connects.isEmpty then [{ pin with number := toString count }]
  else match device.connects.find? fun c => c.gate == gate && c.pin == pin.name with
    | some connect => padPins pin connect
    | none => []

/-- The drawing with one more pin. -/
def addPin (device : Eagle.Device) (gate : String) (d : UnitDrawing) (p : Eagle.Pin) :
    Except Failure UnitDrawing := do
  let (warnings, pin) ← p.draw
  return { d with
    pinCount := d.pinCount + 1
    isSupply := d.isSupply || p.isSupply
    pins := d.pins ++ numberedPins device gate (d.pinCount + 1) pin
    report := d.report ++ warnings }

/-- The drawing with one more item. -/
def addItem (device : Eagle.Device) (gate : String) (d : UnitDrawing) :
    Eagle.Item → Except Failure UnitDrawing
  | .circle c => .ok (d.addGraphics [c.graphic])
  | .pin p => d.addPin device gate p
  | .polygon p => .ok (d.addGraphics [p.graphic])
  | .rectangle r => .ok (d.addGraphics [r.graphic])
  | .text t =>
    let placeholder := Text.upper (Text.trimmed t.text)
    if placeholder = ">NAME" then do
      return { ← d.placeField "Reference" t with hasName := true }
    else if placeholder = ">VALUE" then do
      return { ← d.placeField "Value" t with hasValue := true }
    else do return d.addGraphics [← t.graphic]
  | .wire w => do return d.addGraphics (← w.graphic?).toList
  | .frame f => do return d.addGraphics (← f.graphics)
  | .junction _ | .label _ => .ok d

/-- The drawing of all items of a symbol; fields without a place in it are hidden. -/
def ofItems (device : Eagle.Device) (gate : String) (fields : List (Field (Option Point)))
    (items : List Eagle.Item) : Except Failure UnitDrawing := do
  let d ← items.foldlM (addItem device gate) { fields }
  let fields := if d.hasName then d.fields else hideField "Reference" d.fields
  return { d with fields := if d.hasValue then fields else hideField "Value" fields }

/-- The unit is a single supply pin. -/
def isPower (d : UnitDrawing) : Bool := d.isSupply && d.pinCount == 1

end UnitDrawing

/-! ## Symbols -/

/-- A field that has not been placed. -/
def unplacedField (key value : String) (id : Nat) (hide : Bool) : Field (Option Point) :=
  ⟨key, value, id, none, 0, { Effects.square textSize with hide }⟩

/-- The fields that a device's symbol starts with. A part without a package has
    a reference that starts with a number sign. -/
def deviceFields (name refPrefix : String) (device : Eagle.Device) : List (Field (Option Point)) :=
  let reference := if refPrefix.isEmpty || device.hasPackage then refPrefix else "#" ++ refPrefix
  [unplacedField "Reference" reference 0 refPrefix.isEmpty,
    unplacedField "Value" name 1 false,
    unplacedField "Footprint" "" 2 true,
    unplacedField "Datasheet" "" 3 true]

/-- A symbol as far as its gates are drawn. -/
structure SymbolDrawing where
  fields : List (Field (Option Point))
  units : List SymbolUnit := []
  isPower : Bool := false
  report : Report := []

/-- The drawing with one more gate. A gate whose symbol is missing ends the
    drawing; what it has reported so far stands. -/
def drawGates (library : Eagle.Library) (deviceSet : Eagle.DeviceSet) (device : Eagle.Device) :
    SymbolDrawing → List Eagle.Gate → Except Failure (SymbolDrawing × Option Failure)
  | d, [] => .ok (d, none)
  | d, gate :: gates =>
    match library.symbols.get? gate.symbol with
    | none => .ok (d, some (.missingSymbol library.name deviceSet.name gate.name gate.symbol))
    | some symbol => do
      let u ← UnitDrawing.ofItems device gate.name d.fields symbol.items
      drawGates library deviceSet device
        { fields := u.fields
          units := d.units ++ [⟨d.units.length + 1, u.graphics, u.pins⟩]
          isPower := u.isPower
          report := d.report ++ u.report } gates

/-- A device's symbol and the units of its gates, or why it cannot be drawn,
    with what was reported on the way. -/
structure DeviceResult where
  report : Report
  symbol : Except Failure Symbol

/-- The symbol of a device. -/
def drawDevice (library : Eagle.Library) (deviceSet : Eagle.DeviceSet) (device : Eagle.Device) :
    Except Failure DeviceResult := do
  let name := Name.symbolKey deviceSet.name device.name
  let (d, missing) ← drawGates library deviceSet device
    { fields := deviceFields name deviceSet.refPrefix device } deviceSet.gates
  match missing with
  | some failure => return ⟨d.report, .error failure⟩
  | none =>
    let isPower := deviceSet.gates.length == 1 && d.isPower
    let fields := if isPower then hideField "Reference" d.fields else d.fields
    return ⟨d.report, .ok ⟨name, isPower, fields, d.units⟩⟩

/-- The key under which the unit of a device's gate is found. -/
def gateKey (deviceSet device gate : String) : String := deviceSet ++ device ++ gate

/-- The units of a device's gates. -/
def gateUnits (deviceSet : Eagle.DeviceSet) (device : Eagle.Device) : Entries String Nat :=
  Entries.ofList (deviceSet.gates.zipIdx.map fun (gate, i) =>
    (gateKey deviceSet.name device.name gate.name, i + 1))

end Redraft
