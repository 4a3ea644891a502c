import Redraft.Failure

/-!
# Reports

Problems that do not stop a conversion are collected in the order in which they
are found.
-/

namespace Redraft

/-- How grave a message is. -/
inductive Severity where
  | info
  | warning
  | error
deriving DecidableEq, Repr

namespace Severity

/-- The name of a severity. -/
def name : Severity → String
  | info => "info"
  | warning => "warning"
  | error => "error"

/-- The severity of a given name. -/
def ofName (s : String) : Except Failure Severity :=
  match s with
  | "info" => .ok info
  | "warning" => .ok warning
  | "error" => .ok error
  | _ => .error (.unknownSeverity s)

/-- The rank of a severity in a log. -/
def rank : Severity → Nat
  | info => 20
  | warning => 30
  | error => 40

end Severity

/-- A message with its severity. -/
structure Message where
  severity : Severity
  text : String
deriving DecidableEq, Repr

/-- The messages so far, in order. -/
abbrev Report := List Message

namespace Report

/-- The texts of one severity. -/
def texts (r : Report) (severity : Severity) : List String :=
  (r.filter (·.severity = severity)).map (·.text)

/-- Some message is an error. -/
def hasErrors (r : Report) : Bool := r.any (·.severity = .error)

end Report

/-- A message of a possible problem. -/
def Message.warning (text : String) : Message := ⟨.warning, text⟩

/-- A message of something that was left out. -/
def Message.error (text : String) : Message := ⟨.error, text⟩

end Redraft
