import Redraft.Text.Digit

/-!
# Switches

What a single argument of the command line is. A long switch may be cut short as
long as one spelling remains; a value may follow an equals sign; letters of short
switches may stand together behind one dash.
-/

namespace Redraft.Command

/-- The switches of the command. -/
inductive Switch where
  | help
  | directory
  | project
  | paper
  | verbose
  | check
deriving DecidableEq, Repr

namespace Switch

/-- The spellings of all switches. -/
def spellings : List (String × Switch) := [
  ("-h", help), ("--help", help), ("-o", directory), ("--output-dir", directory),
  ("--project-name", project), ("--paper", paper), ("-v", verbose), ("--verbose", verbose),
  ("--check", check)]

/-- The switch of a spelling. -/
def ofSpelling? (s : String) : Option Switch := spellings.lookup s

/-- The switch of a single letter. -/
def ofLetter? (c : Char) : Option Switch := ofSpelling? (String.ofList ['-', c])

/-- The switches that have a spelling which starts like this. -/
def startingWith (cs : List Char) : List Switch :=
  (spellings.filter fun (spelling, _) => cs.isPrefixOf spelling.toList).map (·.2)

/-- The switch is followed by a value. -/
def takesValue : Switch → Bool
  | directory | project | paper => true
  | help | verbose | check => false

end Switch

/-- Why no conversion is started: the arguments are wrong, or help was asked for. -/
inductive Refusal where
  | usage
  | help
deriving DecidableEq, Repr

/-! ## Arguments by kind -/

/-- What an argument is: a short switch may have more characters right behind it. -/
inductive Argument where
  | operand (text : String)
  | separator
  | plain (switch : Switch)
  | assigned (switch : Switch) (value : String)
  | cluster (switch : Switch) (rest : List Char)
  | unknown
deriving DecidableEq, Repr

/-- Digits, or digits around a point, the last of them followed by a line feed at most. -/
def isUnsignedNumber (cs : List Char) : Bool :=
  let body := if cs.getLast? == some '\n' then cs.dropLast else cs
  let rest := body.dropWhile Text.isDecimalDigit
  match rest with
  | [] => !body.isEmpty
  | '.' :: places => !places.isEmpty && places.all Text.isDecimalDigit
  | _ => false

/-- The text up to the first equals sign, and the text behind it if there is one. -/
def splitAssignment (cs : List Char) : List Char × Option String :=
  match cs.dropWhile (· != '=') with
  | _ :: value => (cs.takeWhile (· != '='), some (String.ofList value))
  | [] => (cs, none)

/-- A switch, with a value if one was assigned. -/
def Argument.ofSwitch (s : Switch) : Option String → Argument
  | some value => assigned s value
  | none => plain s

/-- An argument that starts with a dash and names no switch. -/
def Argument.other (cs : List Char) : Argument :=
  if isUnsignedNumber cs.tail || cs.contains ' ' then operand (String.ofList cs) else unknown

/-- An argument with two dashes that is no full spelling; it must not fit several switches. -/
def Argument.ofLong (cs : List Char) : Except Refusal Argument :=
  let (start, value) := splitAssignment cs
  match Switch.startingWith start with
  | [] => .ok (other cs)
  | [s] => .ok (ofSwitch s value)
  | _ => .error .usage

/-- An argument with one dash that is no full spelling. -/
def Argument.ofShort (cs : List Char) (letter : Char) (rest : List Char) : Argument :=
  match Switch.ofLetter? letter with
  | some s => cluster s rest
  | none => other cs

/-- What an argument is, if no separator stands before it. -/
def Argument.read (text : String) : Except Refusal Argument :=
  let (start, value) := splitAssignment text.toList
  match Switch.ofSpelling? text, Switch.ofSpelling? (String.ofList start), text.toList with
  | _, _, ['-', '-'] => .ok separator
  | some s, _, _ => .ok (plain s)
  | none, some s, _ => .ok (ofSwitch s value)
  | none, none, '-' :: '-' :: rest => ofLong ('-' :: '-' :: rest)
  | none, none, '-' :: letter :: rest => .ok (ofShort ('-' :: letter :: rest) letter rest)
  | none, none, _ => .ok (operand text)

/-- What all arguments are: behind a separator stand operands only. -/
def Argument.readAll : List String → Except Refusal (List Argument)
  | [] => .ok []
  | text :: rest => do
    let a ← read text
    if a = separator then return a :: rest.map operand
    return a :: (← readAll rest)

/-! ## Letters behind one dash -/

/-- Switches without values, and then one that may have a value; the last is
    missing if a letter is unknown. -/
structure Cluster where
  flags : List Switch
  last : Option (Switch × Option String)
deriving Repr

/-- The cluster with one more flag in front. -/
def Cluster.cons (s : Switch) (c : Cluster) : Cluster := ⟨s :: c.flags, c.last⟩

/-- Reads the characters right behind a short switch: its value, or more letters. -/
def Cluster.read (s : Switch) : List Char → Except Refusal Cluster
  | [] => .ok ⟨[], some (s, none)⟩
  | c :: cs =>
    if s.takesValue then .ok ⟨[], some (s, some (String.ofList (c :: cs)))⟩
    else if c = '-' then .error .usage
    else match Switch.ofLetter? c with
      | none => .ok ⟨[s], none⟩
      | some next => match cs with
        | '=' :: value =>
          if next.takesValue then .ok ⟨[s], some (next, some (String.ofList value))⟩
          else .error .usage
        | cs => (Cluster.read next cs).map (Cluster.cons s)

end Redraft.Command
