import Redraft.Number.Quantity
import Redraft.Geometry.Point
import Redraft.Paper
import Redraft.Text.Quoted

/-!
# Failures

Everything that can stop a conversion, as a cause with the data its message
needs. `Failure.message` is the only place where the wording stands.
-/

namespace Redraft
open Redraft.Number

/-- Why a path could not be used. -/
inductive DiskFault where
  | missing
  | isDirectory
  | notDirectory
  | occupied
  | nameTooLong
  | notName
  | other (number : Nat) (words : String)
deriving DecidableEq, Repr

/-- The number and the words that the system gives a fault. -/
def DiskFault.text : DiskFault → String
  | missing => "[Errno 2] No such file or directory"
  | isDirectory => "[Errno 21] Is a directory"
  | notDirectory => "[Errno 20] Not a directory"
  | occupied => "[Errno 17] File exists"
  | nameTooLong => "[Errno 36] File name too long"
  | notName => "embedded null byte"
  | other number words => "[Errno " ++ toString number ++ "] " ++ words

/-- Why a library table cannot be read or written again. -/
inductive TableFault where
  | notFile
  | notUnicode
  | unbalanced
  | incomplete
  | notTable
  | notList
  | notText
deriving DecidableEq, Repr

/-- The wording of a fault of a library table. -/
def TableFault.text : TableFault → String
  | notFile => "it is not a file"
  | notUnicode => "it is no text"
  | unbalanced => "its brackets do not match"
  | incomplete => "a part is missing"
  | notTable => "it holds something else"
  | notList => "a row is a number"
  | notText => "a value is not a text"

/-- What stops a conversion. -/
inductive Failure where
  | malformed (path : Option String)
  | unreadable (path : String) (fault : DiskFault)
  | wrongRoot (tag : String)
  | noDrawing
  | notSchematic
  | missingAttribute (tag name : String)
  | notReal (tag name value : String)
  | notWhole (tag name value : String)
  | badRotation (text : String)
  | missingSymbol (library deviceSet gate symbol : String)
  | notFinite (cause : NotFinite)
  | divisionByZero
  | outOfDomain
  | beyondAlphabet
  | noArcCenter (start stop : Point) (angle : Quantity)
  | unknownPaper (name : String)
  | unknownSeverity (name : String)
  | unknownContext (name : String)
  | unknownEncoding (name : String)
  | manyByteEncoding (name : String)
  | disk (path : String) (fault : DiskFault)
  | unreadableTable (fault : TableFault)

/-- A point in a message. -/
def Point.text (p : Point) : String := "(" ++ toString p.x ++ ", " ++ toString p.y ++ ")"

/-- A fault at a path in a message. -/
def DiskFault.at (fault : DiskFault) (path : String) : String :=
  fault.text ++ ": " ++ Text.quoted path

namespace Failure

/-- The wording of a failure. -/
def message : Failure → String
  | malformed none => "Malformed EAGLE XML"
  | malformed (some path) => "Malformed EAGLE XML in " ++ path
  | unreadable path fault => "Cannot read " ++ path ++ ": " ++ fault.at path
  | wrongRoot tag => "Not an EAGLE document: root element is <" ++ tag ++ ">"
  | noDrawing => "EAGLE document has no <drawing> element"
  | notSchematic => "EAGLE document is not a schematic"
  | missingAttribute tag name => "<" ++ tag ++ "> is missing required attribute '" ++ name ++ "'"
  | notReal tag name value =>
    "<" ++ tag ++ "> attribute '" ++ name ++ "' is not a number: " ++ Text.quoted value
  | notWhole tag name value =>
    "<" ++ tag ++ "> attribute '" ++ name ++ "' is not an integer: " ++ Text.quoted value
  | badRotation text => "Invalid rotation: " ++ Text.quoted text
  | missingSymbol library deviceSet gate symbol =>
    "Library '" ++ library ++ "': gate '" ++ gate ++ "' of device set '" ++ deviceSet ++
      "' uses unknown symbol '" ++ symbol ++ "'"
  | notFinite .undefined => "an undefined number has no whole part"
  | notFinite .infinite => "an infinite number has no whole part"
  | divisionByZero => "division by zero"
  | outOfDomain => "the angle has no tangent"
  | beyondAlphabet => "no letter for a row of the frame"
  | noArcCenter start stop angle =>
    "Cannot compute arc centre for chord " ++ start.text ++ "-" ++ stop.text ++
      " with angle " ++ angle.text
  | unknownPaper name =>
    "Unknown paper size: " ++ name ++ ". Available: " ++ ", ".intercalate paperNames
  | unknownSeverity name => "Unknown severity: " ++ name
  | unknownContext name => "Unknown escape context: " ++ name
  | unknownEncoding name => "unknown encoding: " ++ name
  | manyByteEncoding name => "encoding with several bytes for a character: " ++ name
  | disk path fault => fault.at path
  | unreadableTable fault => "the library table cannot be read: " ++ fault.text

/-- The failure says that the document cannot be imported. -/
def isImport : Failure → Bool
  | malformed _ | unreadable .. | wrongRoot _ | noDrawing | notSchematic | missingAttribute ..
  | notReal .. | notWhole .. | badRotation _ | missingSymbol .. => true
  | _ => false

end Failure

end Redraft
