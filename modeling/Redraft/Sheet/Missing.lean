import Redraft.Entries
import Redraft.Sheet.Basic

/-!
# Units that no sheet draws

A part of several units is recorded under its reference as soon as one of them
is placed. A unit that no sheet draws is missing in the end.
-/

namespace Redraft

/-- A part of several units: the first symbol placed for it, the library symbol,
    the units drawn, and how many units there are. -/
structure PartUnits where
  symbol : PlacedSymbol
  source : Symbol
  drawn : List Nat
  total : Nat

namespace PartUnits

/-- The unit is still to be drawn. -/
def needs (p : PartUnits) (unit : Nat) : Bool := 1 ≤ unit && unit ≤ p.total && !p.drawn.contains unit

/-- All units that are known of. -/
def known (p : PartUnits) : List Nat :=
  List.range' 1 p.total ++ ((p.drawn.filter (p.total < ·)).eraseDups).mergeSort (· ≤ ·)

/-- The units still to be drawn, in order. -/
def missing (p : PartUnits) : List Nat := (List.range' 1 p.total).filter p.needs

/-- The part with one more unit drawn, from a symbol of `total` units. -/
def draw (p : PartUnits) (unit total : Nat) : PartUnits :=
  { p with drawn := unit :: p.drawn, total := max p.total total }

end PartUnits

/-- The value of a field, empty if there is none. -/
def PlacedSymbol.fieldValue (s : PlacedSymbol) (key : String) : String :=
  ((fieldOf? s.fields key).map (·.value)).getD ""

/-- The parts of several units, by their references. -/
abbrev UnitRecord := Entries String PartUnits

/-- The record with one more symbol placed. -/
def UnitRecord.place (record : UnitRecord) (symbol : PlacedSymbol) (source : Symbol) : UnitRecord :=
  if source.isPower || source.unitCount ≤ 1 then record
  else
    let ref := symbol.fieldValue "Reference"
    let part := (record.get? ref).getD ⟨symbol, source, [], 0⟩
    record.put ref (part.draw symbol.unit source.unitCount)

end Redraft
