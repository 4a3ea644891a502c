import Redraft.Text.Blank
import Redraft.Text.Digit

/-!
# Bus names

A bus is a vector, `D[0..7]`, or a list of members separated by commas. A
vector keeps its name; a list becomes a group in braces, each member closing
its own overbar.
-/

namespace Redraft.Name
open Redraft.Text

/-- A character of a vector's base name. -/
def isBaseChar (c : Char) : Bool := !("[]\x7b\x7d".toList.contains c || isBlank c)

/-- A nonempty run of digits of any script, and the rest. -/
def splitIndex (cs : List Char) : Option (List Char) :=
  if (cs.takeWhile isDecimalDigit).isEmpty then none else some (cs.dropWhile isDecimalDigit)

/-- Two indices with two dots between and a closing bracket, at the end of the
    name or of its only line. -/
def isRange (cs : List Char) : Bool :=
  match splitIndex cs with
  | some ('.' :: '.' :: rest) =>
    match splitIndex rest with
    | some [']'] | some [']', '\n'] => true
    | _ => false
  | _ => false

/-- The name is a vector: a base name and a range in brackets. -/
def isVectorChars (cs : List Char) : Bool :=
  match cs.dropWhile isBaseChar with
  | '[' :: rest => isRange rest
  | _ => false

/-- The pieces of a text between the given separators. -/
def splitAtChar (mark : Char) : List Char → List (List Char)
  | [] => [[]]
  | c :: cs =>
    if c = mark then [] :: splitAtChar mark cs
    else match splitAtChar mark cs with
      | piece :: pieces => (c :: piece) :: pieces
      | [] => [[c]]

/-- A member with its overbar closed: an odd count of toggles gains one. -/
def closeMember (cs : List Char) : List Char :=
  if cs.count '!' % 2 = 1 then cs ++ ['!'] else cs

/-- The nonempty members of a list of names. -/
def members (cs : List Char) : List (List Char) :=
  (splitAtChar ',' cs).filter (!·.isEmpty)

/-- The bus name as vector or group. -/
def busChars (cs : List Char) : List Char :=
  if isVectorChars cs then cs
  else ['\x7b'] ++ [' '].intercalate ((members cs).map closeMember) ++ ['\x7d']

/-- The name is a vector. -/
def isVector (s : String) : Bool := isVectorChars s.toList

/-- The bus name as vector or group. -/
def bus (s : String) : String := String.ofList (busChars s.toList)

end Redraft.Name
