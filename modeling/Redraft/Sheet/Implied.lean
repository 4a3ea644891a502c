import Redraft.Name.File
import Redraft.Name.Token
import Redraft.Sheet.Desk

/-!
# Implied nets

A supply pin that nothing is connected to joins the net its name implies: it
gets a label that reaches over the whole document.
-/

namespace Redraft

/-- The text of the label that a supply pin implies. -/
def impliedText (pin : Pin) : String := Name.escapeIn .netName (Name.impliedNet pin.name)

/-- The label of a supply pin at a point. -/
def impliedLabel (pin : Pin) (position : Point) : NetLabel :=
  { text := impliedText pin, position, spin := .left, size := madeLabelSize, scope := .document }

namespace Sheet

/-- The labels for the supply pins of a placed symbol that nothing is connected
    to; a supply symbol has none. -/
def impliedLabels (s : Sheet) (symbol : PlacedSymbol) (source : Symbol) : List NetLabel :=
  if source.isPower then []
  else (symbol.pinPoints source).filterMap fun (pin, p) =>
    if pin.kind = .powerIn && !s.isConnected p then some (impliedLabel pin p) else none

/-- The sheet with the labels that a placed symbol implies. -/
def addImplied (s : Sheet) (symbol : PlacedSymbol) (source : Symbol) : Sheet :=
  { s with labels := s.labels ++ s.impliedLabels symbol source }

end Sheet

/-- Adds the labels that a placed symbol implies, records its unit if wanted, and
    counts the labels. -/
def drawImplied (symbol : PlacedSymbol) (source : Symbol) (record : Bool) : Drafting Nat := do
  let count := ((← Drafting.sheet).impliedLabels symbol source).length
  Drafting.changeSheet (·.addImplied symbol source)
  if record then modify fun d => { d with units := d.units.place symbol source }
  return count

end Redraft
