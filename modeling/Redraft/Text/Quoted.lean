import Redraft.Text.Printable

/-!
# Quoted text in messages

A text in a message stands between single quotes, or between double quotes
when it holds a single quote and no double one. Backslashes, the quote itself
and unprintable characters are escaped, so a message stays on one line.
-/

namespace Redraft.Text

/-- The hexadecimal digits of a number, padded with zeros on the left. -/
def hexPadded (width n : Nat) : String :=
  let digits := Nat.toDigits 16 n
  "".pushn '0' (width - digits.length) ++ String.ofList digits

/-- One character between quotes `mark`. -/
def quotedChar (mark c : Char) : String :=
  if c = mark ∨ c = '\\' then String.ofList ['\\', c]
  else if c = '\t' then "\\t"
  else if c = '\n' then "\\n"
  else if c = '\r' then "\\r"
  else if isPrintable c then c.toString
  else if c.toNat < 0x100 then "\\x" ++ hexPadded 2 c.toNat
  else if c.toNat < 0x10000 then "\\u" ++ hexPadded 4 c.toNat
  else "\\U" ++ hexPadded 8 c.toNat

/-- A text with the quotes that messages put around it. -/
def quoted (s : String) : String :=
  let cs := s.toList
  let mark := if cs.contains '\'' && !cs.contains '"' then '"' else '\''
  mark.toString ++ String.join (cs.map (quotedChar mark)) ++ mark.toString

end Redraft.Text
