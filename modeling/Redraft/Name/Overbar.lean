/-!
# Overbars

A signal name marks an overbar by toggles: `!` or `~` starts it and ends it.
The written form opens an overbar with `~{` and closes it with `}`. A doubled
toggle is a plain tilde, a tilde before `{` is written already, and a space or
a closing bracket ends a running overbar.
-/

namespace Redraft.Name

/-- Characters that end a running overbar before they are written. -/
def endsOverbar (c : Char) : Bool := c == ' ' || c == '}' || c == ')'

/-- The written form of a text, with an overbar running or not. -/
def overbarFrom : Bool → List Char → List Char
  | running, [] => if running then ['}'] else []
  | running, '~' :: '~' :: cs => '~' :: overbarFrom running cs
  | running, '~' :: '{' :: cs => '~' :: '{' :: overbarFrom running cs
  | running, '~' :: cs => (if running then ['}'] else ['~', '{']) ++ overbarFrom (!running) cs
  | running, c :: cs =>
    if running && endsOverbar c then '}' :: c :: overbarFrom false cs
    else c :: overbarFrom running cs

/-- The written form of a text with `~` toggles; a lone tilde stays. -/
def overbarChars (cs : List Char) : List Char :=
  if cs = ['~'] then cs else overbarFrom false cs

/-- A `!` toggle as a `~` toggle. -/
def toggle (c : Char) : Char := if c = '!' then '~' else c

/-- The written form of a text with `!` or `~` toggles. -/
def labelChars (cs : List Char) : List Char := overbarChars (cs.map toggle)

/-- The written form of a text with `~` toggles. -/
def overbar (s : String) : String := String.ofList (overbarChars s.toList)

/-- The label text of a net or pin name. -/
def label (s : String) : String := String.ofList (labelChars s.toList)

end Redraft.Name
