import Redraft.Name.Token
import Redraft.Sheet.Basic
import Redraft.Symbol.Library
import Redraft.Text.Digit

/-!
# Instances of parts

An instance on an EAGLE sheet names a part and a gate. It becomes a unit of the
symbol of the part's device. The fields stand where the library symbol has
them, unless the instance has attributes that place them elsewhere; attributes
and variants of the part become hidden fields.
-/

namespace Redraft

/-- What all sheets of a document share. -/
structure Context where
  document : Eagle.Schematic := {}
  libraries : Entries String SymbolLibrary := []
  library : String
  project : String
  netCounts : Entries String Nat := []

/-- Why an instance cannot be placed. -/
inductive Unplaced where
  | unknownPart (name : String)
  | unknownSymbol (name : String)
deriving DecidableEq, Repr

/-- The wording of why an instance cannot be placed. -/
def Unplaced.message : Unplaced → String
  | unknownPart name => "Error parsing Eagle file. Could not find '" ++ name ++
      "' instance but it is referenced in the schematic."
  | unknownSymbol name => "Could not find '" ++ Name.unescape name ++ "' in the imported library."

/-- What an instance stands for: its part, the symbol and unit of its gate, and
    the package, empty if there is none. -/
structure Resolved where
  part : Eagle.Part
  symbol : Symbol
  unit : Nat
  package : String

/-- Finds what an instance stands for. -/
def Context.resolve (c : Context) (i : Eagle.Instance) : Except Unplaced Resolved :=
  match c.document.part? i.part with
  | none => .error (.unknownPart i.part)
  | some part =>
    let name := Name.symbolKey part.deviceSet part.device
    let found := do
      let library ← c.libraries.get? part.library
      let symbol ← library.symbol? name
      let unit ← library.unit? part.deviceSet part.device i.gate
      return { part, symbol, unit, package := (library.package? name).getD "" : Resolved }
    match found with
    | some r => .ok r
    | none => .error (.unknownSymbol name)

/-! ## Placement -/

/-- How an instance stands, and a warning if its rotation is not a right angle. -/
def Eagle.Instance.placement (i : Eagle.Instance) : Except Failure (Report × Placement) := do
  let degrees ← Eagle.wholeDegreesOf i.rotation
  let turn := Turn.ofDegrees? degrees
  let warnings := if turn.isSome then [] else [Message.warning
    ("Unhandled orientation (" ++ toString degrees ++ " degrees) of '" ++ i.part ++ "', using 0")]
  let flip := if i.rotation.any (·.mirrored) then Flip.aboutY else Flip.plain
  return (warnings, ⟨i.position.flip, turn.getD .zero, flip⟩)

/-- The reference of an instance: with a number sign if its part has no package,
    and never all digits. -/
def reference (part package : String) : String :=
  let name := if package.isEmpty then "#" ++ part else part
  if Text.allDigits name then "UNK" ++ name else name

/-! ## Fields -/

/-- A field of a placed symbol where the library symbol has it. -/
def Field.place (f : Field (Option Point)) (placement : Placement) (value : String) : Field Point :=
  { f with value, position := placement.apply (f.position.getD Point.origin) }

/-- The fields of a placed symbol before any attribute is looked at. -/
def libraryFields (r : Resolved) (ref : String) (placement : Placement) : List (Field Point) :=
  r.symbol.fields.map fun f => f.place placement <|
    if f.key = "Reference" then ref
    else if f.key = "Value" then r.part.value.getD r.symbol.name
    else if f.key = "Footprint" then r.package
    else f.value

/-- The fields with hidden ones for some values, each where the value field stands. -/
def addHidden (fields : List (Field Point)) (values : List (String × String)) : List (Field Point) :=
  match fieldOf? fields "Value" with
  | some template => fields ++ values.map fun (key, value) => { template.hidden with key, value }
  | none => fields

/-- The keys of the fields for some variants. -/
def variantFields (variants : Entries String String) : List (String × String) :=
  variants.map fun (name, value) => ("VARIANT_" ++ name, value)

/-- The key of the field that an attribute of an instance is about. -/
def fieldKey (name : String) : String :=
  match Text.lower name with
  | "name" => "Reference"
  | "value" => "Value"
  | _ => name

/-- An attribute of an instance is about the reference or the value. -/
def isNamed (name : String) : Bool := ["name", "value"].contains (Text.lower name)

/-- The alignment that an attribute of an instance means. -/
def attributeAlignment (i : Eagle.Instance) (a : Eagle.Attribute) : Except Failure Alignment := do
  let absolute ← Eagle.wholeDegreesOf a.rotation
  let turned ← Eagle.wholeDegreesOf i.rotation
  let mirrored := a.rotation.any (·.mirrored) != i.rotation.any (·.mirrored)
  return alignText a.anchor ((absolute - turned + 360) % 360) mirrored absolute

/-- The field with the place, visibility and alignment of an attribute. -/
def Field.applyAttribute (a : Eagle.Attribute) (alignment : Alignment) (f : Field Point) : Field Point :=
  let position := match a.x, a.y with
    | some x, some y => ⟨x, -y⟩
    | _, _ => f.position
  let hide := f.effects.hide || a.display == some "off" || a.display == some "name" || !isNamed a.name
  { f with position, angle := alignment.angle, effects := { f.effects with hide, justify := alignment.justify } }

/-- The fields with an attribute applied to the one it is about, if it is there. -/
def applyAttribute (i : Eagle.Instance) (fields : List (Field Point)) (a : Eagle.Attribute) :
    Except Failure (List (Field Point)) := do
  let key := fieldKey a.name
  if (fieldOf? fields key).isNone then return fields
  let alignment ← attributeAlignment i a
  return changeField key (Field.applyAttribute a alignment) fields

/-- The instance has an attribute for the reference or the value. -/
def Eagle.Instance.hasNamed (i : Eagle.Instance) (name : String) : Bool :=
  i.attributes.any fun a => Text.lower a.name == name

/-- The fields that a smashed instance shows: none without a place of its own. -/
def smash (i : Eagle.Instance) (fields : List (Field Point)) : List (Field Point) :=
  if !i.smashed then fields
  else
    let fields := if i.hasNamed "value" then fields else hideField "Value" fields
    if i.hasNamed "name" then fields else hideField "Reference" fields

/-- The fields numbered in order. -/
def numberFields (fields : List (Field Point)) : List (Field Point) :=
  fields.zipIdx.map fun (f, id) => { f with id }

/-- The fields of a placed instance. -/
def instanceFields (i : Eagle.Instance) (r : Resolved) (ref : String) (placement : Placement) :
    Except Failure (List (Field Point)) := do
  let fields := addHidden (libraryFields r ref placement) (r.part.attributes ++ variantFields r.part.variants)
  let fields ← i.attributes.foldlM (applyAttribute i) fields
  return numberFields (smash i (addHidden fields (variantFields i.variants)))

/-! ## The placed symbol -/

/-- The numbers of all pins of a symbol, once each, in order. -/
def Symbol.pinNumbers (s : Symbol) : List String := ((s.pins 0).map (·.number)).eraseDups

/-- The symbol that an instance becomes on a sheet with the given path and count of symbols. -/
def placeSymbol (path : SheetPath) (number : Nat) (i : Eagle.Instance) (r : Resolved)
    (placement : Placement) : Except Failure PlacedSymbol := do
  let ref := reference i.part r.package
  return {
    name := r.symbol.name
    placement
    unit := r.unit
    fields := ← instanceFields i r ref placement
    pinNumbers := r.symbol.pinNumbers
    pinOwner := ⟨path, number⟩
    reference := ref
    path }

end Redraft
