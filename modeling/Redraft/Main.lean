import Redraft.Command.Run
import Std.Data.HashMap

/-!
# The program

The command runs on the disk of the computer. Each identity is written as a
random number that the run draws for it once.
-/

namespace Redraft.Command

/-! ## Identities -/

/-- The octets of a random identity, marked as such by the bits of its version and variant. -/
def markRandom (octets : List UInt8) : List UInt8 :=
  octets.zipIdx.map fun (b, i) =>
    if i = 6 then (b &&& 0x0F) ||| 0x40 else if i = 8 then (b &&& 0x3F) ||| 0x80 else b

/-- An identity in hexadecimal digits, in five groups. -/
def identityText (octets : List UInt8) : String :=
  let digits := octets.map fun b => Text.hexPadded 2 b.toNat
  let group := fun (first count : Nat) => String.join ((digits.drop first).take count)
  "-".intercalate [group 0 4, group 4 2, group 6 2, group 8 2, group 10 6]

/-- The texts of the identities that were written so far. -/
abbrev IdentityTexts := Std.HashMap Identity String

/-- Draws texts for the identities that have none. -/
def drawTexts (texts : IO.Ref IdentityTexts) (ids : List Identity) : IO IdentityTexts := do
  for id in ids do
    unless (← texts.get).contains id do
      let octets ← IO.getRandomBytes 16
      texts.modify (·.insert id (identityText (markRandom octets.toList)))
  texts.get

/-! ## The disk -/

/-- The number that the system gives to the fault of a file in the place of a directory. -/
def notDirectoryNumber : UInt32 := 20

/-- The fault behind an error. -/
def faultOf : IO.Error → DiskFault
  | .noFileOrDirectory .. => .missing
  | .alreadyExists .. => .occupied
  | .inappropriateType _ number _ => if number = notDirectoryNumber then .notDirectory else .isDirectory
  | .otherError number words => .other number.toNat words
  | .resourceExhausted _ number words => .other number.toNat words
  | .invalidArgument _ number words => .other number.toNat words
  | .permissionDenied _ number words => .other number.toNat words
  | e => .other 0 (toString e)

/-- Does something on the disk; an error becomes a fault. -/
def attempt {α : Type} (action : IO α) : IO (Except DiskFault α) := do
  try return .ok (← action) catch e => return .error (faultOf e)

/-- The disk of the computer. -/
def computerDisk (texts : IO.Ref IdentityTexts) : Disk IO where
  read path := attempt (IO.FS.readBinFile path)
  makeDirectories path := attempt (IO.FS.createDirAll path)
  write path row := attempt do
    let known ← drawTexts texts row.identities
    IO.FS.writeFile path (row.text (fun id => known.getD id "") 0)

/-! ## The command line -/

/-- How the command is used. -/
def usageText : String :=
  "usage: " ++ generator ++ " [-h] [-o DIRECTORY] [--project-name NAME] [--paper PAPER] [-v] [--check] input"

/-- Tells what a run reported; information only if it was asked for. -/
def tellReport (verbose : Bool) (report : Report) : IO Unit := do
  for message in report do
    if verbose || message.severity ≠ .info then
      IO.eprintln (message.severity.name ++ ": " ++ message.text)

/-- Runs the command on a command line and gives its status. -/
def runOnComputer (texts : List String) : IO Nat := do
  match Arguments.read texts with
  | .error refusal =>
    if refusal = .help then IO.println usageText else IO.eprintln usageText
    return refusal.status
  | .ok arguments =>
    match ← (run (computerDisk (← IO.mkRef ∅)) arguments).run with
    | .ok outcome =>
      tellReport arguments.verbose outcome.report
      IO.print outcome.output
      return outcome.status
    | .error failure =>
      IO.eprintln failure.message
      return 1

end Redraft.Command

/-- The program. -/
def main (texts : List String) : IO UInt32 := do
  return (← Redraft.Command.runOnComputer texts).toUInt32
