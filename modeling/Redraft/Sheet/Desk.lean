import Redraft.Report
import Redraft.Sheet.Instance
import Redraft.Sheet.Missing

/-!
# The desk

A sheet is drawn at a desk, where the reports and the record of parts with
several units lie beside it. A failure leaves everything as it is at that point.
-/

namespace Redraft

/-- What lies on the desk. -/
structure Desk where
  sheet : Sheet
  report : Report := []
  units : UnitRecord := []

/-- A step of drawing that may fail. -/
abbrev Drafting := ExceptT Failure (StateM Desk)

namespace Drafting

/-- Changes the sheet. -/
def changeSheet (f : Sheet → Sheet) : Drafting Unit := modify fun d => { d with sheet := f d.sheet }

/-- Reports some messages. -/
def report (messages : Report) : Drafting Unit := modify fun d => { d with report := d.report ++ messages }

/-- The sheet as it is. -/
def sheet : Drafting Sheet := return (← get).sheet

/-- The value of something that may fail. -/
def lift {α : Type} (x : Except Failure α) : Drafting α := ExceptT.mk (pure x)

end Drafting

end Redraft
