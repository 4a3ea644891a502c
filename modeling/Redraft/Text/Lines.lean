/-!
# Lines of text

A line ends at a line feed, a carriage return, both in this order, or at one
of the other vertical separators; the end of the text ends its last line.
-/

namespace Redraft.Text

/-- Code points that end a line. -/
def lineEnds : List Nat := [0x0A, 0x0B, 0x0C, 0x0D, 0x1C, 0x1D, 0x1E, 0x85, 0x2028, 0x2029]

/-- A character that ends a line. -/
def isLineEnd (c : Char) : Bool := lineEnds.contains c.toNat

/-- Splits off lines; `line` is the current one reversed. -/
def linesFrom : List Char → List Char → List (List Char)
  | line, [] => if line.isEmpty then [] else [line.reverse]
  | line, '\r' :: '\n' :: cs => line.reverse :: linesFrom [] cs
  | line, c :: cs => if isLineEnd c then line.reverse :: linesFrom [] cs else linesFrom (c :: line) cs

/-- The lines of a text, without their ends. -/
def lines (s : String) : List String := (linesFrom [] s.toList).map String.ofList

/-- Reads carriage returns, alone or before a line feed, as line feeds; the
    characters done so far are reversed. -/
def unifyFrom : List Char → List Char → List Char
  | done, [] => done.reverse
  | done, '\r' :: '\n' :: cs => unifyFrom ('\n' :: done) cs
  | done, c :: cs => unifyFrom ((if c = '\r' then '\n' else c) :: done) cs

/-- The text with every line ended by a line feed. -/
def unifyLineEnds (cs : List Char) : List Char := unifyFrom [] cs

end Redraft.Text
