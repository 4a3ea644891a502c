import Redraft.Symbol.Device

/-!
# Symbol libraries

A library's devices become symbols. A device that cannot be drawn is reported
and left out; the rest of the library stands. The library also knows the unit
of each gate and the package of each symbol.
-/

namespace Redraft

/-- The symbols of a library, with the units of gates and the packages. -/
structure SymbolLibrary where
  name : String
  source : Entries String Eagle.Symbol := []
  gateUnits : Entries String Nat := []
  packages : Entries String String := []
  symbols : Entries String Symbol := []

namespace SymbolLibrary

/-- The unit of a gate of a device. -/
def unit? (l : SymbolLibrary) (deviceSet device gate : String) : Option Nat :=
  l.gateUnits.get? (gateKey deviceSet device gate)

/-- The package of the device that a symbol was drawn for. -/
def package? (l : SymbolLibrary) (symbol : String) : Option String := l.packages.get? symbol

/-- The symbol of a given name. -/
def symbol? (l : SymbolLibrary) (name : String) : Option Symbol := l.symbols.get? name

/-- The library with the symbol of one more device. -/
def addDevice (l : SymbolLibrary) (deviceSet : Eagle.DeviceSet) (device : Eagle.Device)
    (symbol : Symbol) : SymbolLibrary :=
  { l with
    gateUnits := l.gateUnits.putAll (Redraft.gateUnits deviceSet device)
    packages := match device.package with
      | some package => if package.isEmpty then l.packages else l.packages.put symbol.name package
      | none => l.packages
    symbols := l.symbols.put symbol.name symbol }

/-- The library after one more device, with what that reports. -/
def convertDevice (library : Eagle.Library) (deviceSet : Eagle.DeviceSet)
    (l : SymbolLibrary × Report) (device : Eagle.Device) : Except Failure (SymbolLibrary × Report) := do
  if (Name.symbolKey deviceSet.name device.name).isEmpty then
    return (l.1, l.2 ++ [.error ("Library '" ++ library.name ++ "': device set without a name")])
  else
    let result ← drawDevice library deviceSet device
    match result.symbol with
    | .ok symbol => return (l.1.addDevice deviceSet device symbol, l.2 ++ result.report)
    | .error failure => return (l.1, l.2 ++ result.report ++ [.error failure.message])

/-- The devices of a library, each with its device set, in order. -/
def devices (library : Eagle.Library) : List (Eagle.DeviceSet × Eagle.Device) :=
  library.deviceSets.flatMap fun s => s.devices.map fun d => (s, d)

/-- The symbol library of an EAGLE library, with what its conversion reports. -/
def convert (library : Eagle.Library) : Except Failure (SymbolLibrary × Report) :=
  (devices library).foldlM (fun l (s, d) => convertDevice library s l d)
    ({ name := library.name, source := library.symbols }, [])

end SymbolLibrary

end Redraft
