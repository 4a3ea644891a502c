import Redraft.Markup.Name

/-!
# Scanning

The small parts of markup: blanks, names, quoted literals and references. Each
scanner takes what begins at the text and gives it with the rest, or `none`
when the text is malformed there.
-/

namespace Redraft.Markup

/-- The text after its leading blanks. -/
def skipSpace (cs : List Char) : List Char := cs.dropWhile isSpace

/-- The text begins with a blank. -/
def spaceAhead (cs : List Char) : Bool := cs.head?.any isSpace

/-- The rest after a fixed start. -/
def after? (start : String) (cs : List Char) : Option (List Char) :=
  if start.toList.isPrefixOf cs then some (cs.drop start.length) else none

/-- A name without a colon. -/
def scanName : List Char → Option (String × List Char)
  | c :: cs =>
    if isNameStart c then
      some (String.ofList (c :: cs.takeWhile isNameChar), cs.dropWhile isNameChar)
    else none
  | [] => none

/-- The part of a name before its colon, empty without one, and the local part. -/
structure QName where
  space : String
  localPart : String
deriving DecidableEq, Repr

/-- The name as it is written. -/
def QName.text (q : QName) : String :=
  if q.space.isEmpty then q.localPart else q.space ++ ":" ++ q.localPart

/-- A name that may have two parts joined by a colon. -/
def scanQName (cs : List Char) : Option (QName × List Char) := do
  let (first, rest) ← scanName cs
  match rest with
  | ':' :: tail =>
    let (second, rest) ← scanName tail
    return (⟨first, second⟩, rest)
  | _ => return (⟨"", first⟩, rest)

/-- The text between two equal quotes. -/
def scanLiteral : List Char → Option (List Char × List Char)
  | quote :: cs =>
    if quote = '"' ∨ quote = '\'' then
      match cs.dropWhile (· != quote) with
      | _ :: rest => some (cs.takeWhile (· != quote), rest)
      | [] => none
    else none
  | [] => none

/-- The text up to an end mark, and the rest after the mark. -/
def splitAt? (mark : List Char) : List Char → List Char → Option (List Char × List Char)
  | _, [] => none
  | taken, c :: cs =>
    if mark.isPrefixOf (c :: cs) then some (taken.reverse, (c :: cs).drop mark.length)
    else splitAt? mark (c :: taken) cs

/-! ## References -/

/-- A reference: to a character by its number, or to an entity by its name. -/
inductive Reference where
  | char (c : Char)
  | entity (name : String)
deriving DecidableEq, Repr

/-- The legal character with a given code point. -/
def charOfCode (n : Nat) : Option Char :=
  if h : n.isValidChar then
    let c := Char.ofNatAux n h
    if isLegal c then some c else none
  else none

/-- The value of a hexadecimal digit. -/
def hexValue? (c : Char) : Option Nat :=
  if c.isDigit then some (c.toNat - '0'.toNat)
  else if 'a' ≤ c ∧ c ≤ 'f' then some (c.toNat - 'a'.toNat + 10)
  else if 'A' ≤ c ∧ c ≤ 'F' then some (c.toNat - 'A'.toNat + 10)
  else none

/-- The number written by digits of a base. -/
def codeOf (base : Nat) (digits : List Char) : Option Nat :=
  if digits.isEmpty then none
  else digits.foldlM (fun n c => do
    let v ← hexValue? c
    if v < base ∧ n < 0x110000 then some (base * n + v) else none) 0

/-- What follows an ampersand. -/
def scanReference : List Char → Option (Reference × List Char)
  | '#' :: 'x' :: cs => do
    let (digits, rest) ← splitAt? [';'] [] cs
    return (.char (← charOfCode (← codeOf 16 digits)), rest)
  | '#' :: cs => do
    let (digits, rest) ← splitAt? [';'] [] cs
    return (.char (← charOfCode (← codeOf 10 digits)), rest)
  | cs => do
    let (name, rest) ← scanName cs
    return (.entity name, ← after? ";" rest)

/-- The characters that need no declaration. -/
def predefined : List (String × Char) :=
  [("lt", '<'), ("gt", '>'), ("amp", '&'), ("quot", '"'), ("apos", '\'')]

/-! ## Comments and processing instructions -/

/-- The rest after a comment whose opening mark is taken. -/
def skipComment (cs : List Char) : Option (List Char) := do
  let (_, rest) ← splitAt? ['-', '-'] [] cs
  after? ">" rest

/-- The rest after a processing instruction whose opening mark is taken. -/
def skipInstruction (cs : List Char) : Option (List Char) := do
  let (target, rest) ← scanName cs
  if target.map Char.toLower == "xml" then none
  else if spaceAhead rest then (splitAt? ['?', '>'] [] rest).map (·.2)
  else after? "?>" rest

/-- The rest after blanks, comments and processing instructions. -/
def skipMisc : Nat → List Char → Option (List Char)
  | 0, _ => none
  | fuel + 1, cs =>
    match skipSpace cs with
    | '<' :: '!' :: '-' :: '-' :: rest => do skipMisc fuel (← skipComment rest)
    | '<' :: '?' :: rest => do skipMisc fuel (← skipInstruction rest)
    | rest => some rest

end Redraft.Markup
