/-!
# Paper

The paper sizes a page can start from.
-/

namespace Redraft

/-- The name, width and height of each paper, in tenths of a millimetre. -/
def papers : List (String × Int × Int) := [
  ("A", 2794, 2159), ("A0", 11890, 8410), ("A1", 8410, 5940), ("A2", 5940, 4200),
  ("A3", 4200, 2970), ("A4", 2970, 2100), ("A5", 2100, 1480), ("B", 4318, 2794),
  ("C", 5588, 4318), ("D", 8636, 5588), ("E", 11176, 8636)]

/-- The names of the papers, in order. -/
def paperNames : List String := papers.map (·.1)

/-- The paper that is used unless another one is named. -/
def defaultPaper : String := "A4"

end Redraft
