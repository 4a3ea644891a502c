import Redraft.Markup.Encoding
import Redraft.Text.Blank
import Redraft.Text.Lines

/-!
# The header of a file

A file looks like an EAGLE document if its first three lines begin as such a
document does.
-/

namespace Redraft.Eagle

/-- How the first lines of a document begin. -/
def headerLines : List String := ["<?xml", "<!DOCTYPE eagle SYSTEM", "<eagle version"]

/-- The first line of a text, and the rest. -/
def splitLine (cs : List Char) : List Char × List Char :=
  (cs.takeWhile (· != '\n'), (cs.dropWhile (· != '\n')).drop 1)

/-- The lines of a text begin, after blanks, with the given texts. -/
def beginsWith : List String → List Char → Bool
  | [], _ => true
  | start :: starts, cs =>
    let (line, rest) := splitLine cs
    start.toList.isPrefixOf (Redraft.Text.trimStart line) && beginsWith starts rest

/-- The bytes look like an EAGLE document. -/
def hasHeader (bytes : ByteArray) : Bool :=
  beginsWith headerLines (Redraft.Text.unifyLineEnds (Markup.tolerant bytes).toList)

end Redraft.Eagle
