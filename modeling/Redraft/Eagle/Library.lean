import Redraft.Eagle.Drawing
import Redraft.Entries

/-!
# Libraries

A library holds symbols and device sets. A device set has gates, each drawn by
a symbol, and devices, which connect the gates' pins to the pads of a package.
-/

namespace Redraft.Eagle
open Redraft.Markup (Element)

/-- The pads, separated by blanks, that a pin of a gate is connected to. -/
structure Connect where
  gate : String
  pin : String
  pads : String

/-- A device: a package and its connections. -/
structure Device where
  name : String
  package : Option String
  connects : List Connect

/-- A gate, drawn by a symbol. -/
structure Gate where
  name : String
  symbol : String
  position : Point

/-- A device set: gates and the devices that hold them. -/
structure DeviceSet where
  name : String
  refPrefix : String
  gates : List Gate
  devices : List Device

/-- A symbol: a name and drawing items. -/
structure Symbol where
  name : String
  items : List Item

/-- A library. -/
structure Library where
  name : String
  symbols : Entries String Symbol
  deviceSets : List DeviceSet

/-- The device has a package; an empty name is none. -/
def Device.hasPackage (d : Device) : Bool := d.package.any (!·.isEmpty)

/-- A text attribute, empty if it is missing. -/
def textOrEmpty (e : Element) (name : String) : String := (e.attribute? name).getD ""

/-- Reads a connection. -/
def Connect.read (e : Element) : Except Failure Connect := do
  return ⟨← required e "gate", ← required e "pin", ← required e "pad"⟩

/-- Reads a device. -/
def Device.read (e : Element) : Except Failure Device := do
  let connects ← (e.grandchildren "connects" "connect").mapM Connect.read
  return ⟨textOrEmpty e "name", e.attribute? "package", connects⟩

/-- Reads a gate. -/
def Gate.read (e : Element) : Except Failure Gate := do
  return ⟨← required e "name", ← required e "symbol", ← lengthOrZero e "x", ← lengthOrZero e "y"⟩

/-- Reads a device set. -/
def DeviceSet.read (e : Element) : Except Failure DeviceSet := do
  return ⟨← required e "name", textOrEmpty e "prefix",
    ← (e.grandchildren "gates" "gate").mapM Gate.read,
    ← (e.grandchildren "devices" "device").mapM Device.read⟩

/-- Reads a symbol. -/
def Symbol.read (e : Element) : Except Failure Symbol := do
  let items ← Item.readAll e.children
  return ⟨← required e "name", items⟩

/-- Reads a library. -/
def Library.read (e : Element) : Except Failure Library := do
  let symbols ← (e.grandchildren "symbols" "symbol").mapM Symbol.read
  let deviceSets ← (e.grandchildren "devicesets" "deviceset").mapM DeviceSet.read
  return ⟨textOrEmpty e "name", Entries.ofList (symbols.map fun s => (s.name, s)), deviceSets⟩

end Redraft.Eagle
