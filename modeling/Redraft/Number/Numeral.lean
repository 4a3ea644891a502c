import Redraft.Number.Binary
import Redraft.Text.Blank
import Redraft.Text.Digit

/-!
# Reading numerals

A numeral may have blanks around it, a sign, decimal digits of any script and
single underscores between digits. A whole numeral is digits only; a real one
may have a point, an exponent, or be a word for infinity or an undefined value.
-/

namespace Redraft.Number
open Redraft.Text

/-- A digit of any script becomes the ASCII digit of the same value. -/
def plainDigit (c : Char) : Char :=
  match digitValue? c with
  | some v => Char.ofNat ('0'.toNat + v)
  | none => c

/-- Drops single underscores between digits; any other underscore is refused. -/
def joinDigits : Char → List Char → Option (List Char)
  | last, [] => if last = '_' then none else some []
  | last, c :: cs =>
    if c = '_' then
      if last.isDigit then joinDigits '_' cs else none
    else if last = '_' && !c.isDigit then none
    else (joinDigits c cs).map (c :: ·)

/-- The characters of a numeral: no blanks around, plain digits, no underscores. -/
def numeralChars (s : String) : Option (List Char) :=
  joinDigits ' ' ((trim s.toList).map plainDigit)

/-- The number written by decimal digits, most significant first. -/
def digitsValue (ds : List Char) : Nat :=
  ds.foldl (fun n d => 10 * n + (d.toNat - '0'.toNat)) 0

/-- A leading sign and the rest. -/
def splitSign : List Char → Bool × List Char
  | '-' :: cs => (true, cs)
  | '+' :: cs => (false, cs)
  | cs => (false, cs)

/-- The longest whole numeral that is read. -/
def maxWholeDigits : Nat := 4300

/-- Reads a whole number. -/
def readWhole (s : String) : Option Int := do
  let (negative, ds) := splitSign (← numeralChars s)
  if ds.isEmpty || !ds.all Char.isDigit || maxWholeDigits < ds.length then none
  else
    let n : Int := digitsValue ds
    some (if negative then -n else n)

/-- The binary number nearest to `± digits * 10 ^ place`; places far out of range are not expanded. -/
def ofDecimal (negative : Bool) (ds : List Char) (place : Int) : Float :=
  let ds := ds.dropWhile (· == '0')
  let lead := (ds.length : Int) + place
  if ds.isEmpty || lead < -400 then ofSignedRatio negative 0 1
  else if 400 < lead then ofSignedRatio negative (tenTo 400) 1
  else ofSignedRatio negative (digitsValue ds * tenTo place.toNat) (tenTo (-place).toNat)

/-- An optional exponent that takes up the rest. -/
def readExponent : List Char → Option Int
  | [] => some 0
  | c :: cs =>
    if c = 'e' ∨ c = 'E' then
      let (negative, ds) := splitSign cs
      if ds.isEmpty || !ds.all Char.isDigit then none
      else
        let n : Int := digitsValue ds
        some (if negative then -n else n)
    else none

/-- Reads a real number as the nearest binary one. -/
def readReal (s : String) : Option Float := do
  let (negative, cs) := splitSign (← numeralChars s)
  let word := String.ofList (cs.map Char.toLower)
  if word = "inf" ∨ word = "infinity" then some (ofSignedRatio negative (tenTo 400) 1)
  else if word = "nan" then some (Float.ofBits (UInt64.ofNat (4095 * twoTo 51)))
  else
    let whole := cs.takeWhile Char.isDigit
    let rest := cs.dropWhile Char.isDigit
    let (fraction, rest) := match rest with
      | '.' :: tail => (tail.takeWhile Char.isDigit, tail.dropWhile Char.isDigit)
      | _ => ([], rest)
    if whole.isEmpty && fraction.isEmpty then none
    else
      let exponent ← readExponent rest
      some (ofDecimal negative (whole ++ fraction) (exponent - fraction.length))

end Redraft.Number
