import Redraft.Markup.Entity

/-!
# Declarations

The internal part of a document type: entities, default attributes, and the
declarations that only have to be well-formed. Every declaration is cut into
tokens first, and its form is a pattern of tokens.
-/

namespace Redraft.Markup

/-! ## Tokens of a declaration -/

/-- A token of a declaration; `mark` is what follows a name or a bracket directly. -/
inductive Token where
  | name (q : QName) (mark : Option Char)
  | word (text : String)
  | keyword (text : String)
  | literal (text : List Char)
  | open
  | close (mark : Option Char)
  | bar
  | comma
  | percent
  | bracket
  | finish
deriving DecidableEq, Repr

/-- The text may end a token: blanks and the given characters follow, or nothing. -/
def endsToken (marks : List Char) : List Char → Bool
  | [] => false
  | c :: _ => isSpace c || marks.contains c

/-- A token followed by what may follow it. -/
def closed (marks : List Char) (t : Token) (rest : List Char) : Option (Token × List Char) :=
  if endsToken marks rest then some (t, rest) else none

/-- A name, a name with a repetition mark, or a word that is not a name. -/
def scanWord (cs : List Char) : Option (Token × List Char) :=
  let isWordChar := fun c => isNameChar c || c == ':'
  let ends := ['>', ')', ',', '|', '[', '%']
  let word := cs.takeWhile isWordChar
  let rest := cs.dropWhile isWordChar
  if word.isEmpty then none
  else match scanQName cs with
    | some (q, tail) =>
      if tail.length = rest.length then
        match tail with
        | c :: after =>
          if c = '?' ∨ c = '*' ∨ c = '+' then some (.name q (some c), after)
          else closed ends (.name q none) tail
        | [] => none
      else closed ends (.word (String.ofList word)) rest
    | none => closed ends (.word (String.ofList word)) rest

/-- The next token of a declaration. -/
def scanToken (cs : List Char) : Option (Token × List Char) :=
  match cs with
  | '"' :: _ | '\'' :: _ => do
    let (text, rest) ← scanLiteral cs
    closed ['>', '%', '['] (.literal text) rest
  | '#' :: tail => do
    let (word, rest) ← scanName tail
    closed ['>', ')', '%', '|'] (.keyword word) rest
  | '(' :: rest => some (.open, rest)
  | ')' :: c :: rest =>
    if c = '?' ∨ c = '*' ∨ c = '+' then some (.close (some c), rest)
    else closed ['>', ',', '|', ')'] (.close none) (c :: rest)
  | '|' :: rest => some (.bar, rest)
  | ',' :: rest => some (.comma, rest)
  | '%' :: rest => if spaceAhead rest then some (.percent, rest) else none
  | '[' :: rest => some (.bracket, rest)
  | '>' :: rest => some (.finish, rest)
  | _ => scanWord cs

/-- The tokens up to the end of a declaration or to an opening bracket. -/
def scanTokens : Nat → List Char → Option (List Token × List Char)
  | 0, _ => none
  | fuel + 1, cs => do
    let (t, rest) ← scanToken (skipSpace cs)
    match t with
    | .finish | .bracket => return ([t], rest)
    | _ =>
      let (ts, rest) ← scanTokens fuel rest
      return (t :: ts, rest)

/-! ## Forms of declarations -/

/-- A character of a public identifier. -/
def isPublicChar (c : Char) : Bool :=
  c.isAlphanum || " \r\n-'()+,./:=?;!*#@$_%".toList.contains c

/-- The tokens name an external text; what is left of them. -/
def externalId : List Token → Option (List Token)
  | .name ⟨"", "SYSTEM"⟩ none :: .literal _ :: rest => some rest
  | .name ⟨"", "PUBLIC"⟩ none :: .literal identifier :: .literal _ :: rest =>
    if identifier.all isPublicChar then some rest else none
  | _ => none

/-- An entity's text with its character references replaced. -/
def entityText : Nat → List Char → List Char → Option (List Char)
  | 0, _, _ => none
  | _ + 1, done, [] => some done.reverse
  | fuel + 1, done, c :: cs =>
    if c = '%' then none
    else if c = '&' then do
      let (r, rest) ← scanReference cs
      match r with
      | .char c => entityText fuel (c :: done) rest
      | .entity name => entityText fuel (';' :: (name.toList.reverse ++ '&' :: done)) rest
    else entityText fuel (c :: done) cs

/-- The declarations after an entity declaration. -/
def declareEntity (d : Declarations) (ts : List Token) : Option Declarations :=
  let value := fun text => if d.active then entityText (text.length + 1) [] text else some []
  match ts with
  | [.name ⟨"", name⟩ none, .literal text, .finish] => do
    return d.declare name (.internal (← value text))
  | [.percent, .name ⟨"", _⟩ none, .literal text, .finish] => do
    let _ ← value text
    return d
  | .percent :: .name ⟨"", _⟩ none :: rest => do
    if (← externalId rest) == [.finish] then some d else none
  | .name ⟨"", name⟩ none :: rest => do
    match ← externalId rest with
    | [.finish] => return d.declare name .external
    | [.name ⟨"", "NDATA"⟩ none, .name ⟨"", _⟩ none, .finish] => return d.declare name .external
    | _ => none
  | _ => none

/-- The types of an attribute that are single words. -/
def tokenizedTypes : List String :=
  ["ID", "IDREF", "IDREFS", "ENTITY", "ENTITIES", "NMTOKEN", "NMTOKENS"]

/-- What is left after the values of an enumerated type. -/
def enumerated (namesOnly : Bool) : List Token → Option (List Token)
  | t :: .bar :: rest => if isValue t then enumerated namesOnly rest else none
  | t :: .close none :: rest => if isValue t then some rest else none
  | _ => none
where
  isValue : Token → Bool
    | .name q none => !namesOnly || q.space.isEmpty
    | .word _ => !namesOnly
    | _ => false

/-- Whether the type of an attribute is tokenized, and what is left after it. -/
def attributeType : List Token → Option (Bool × List Token)
  | .name ⟨"", "NOTATION"⟩ none :: .open :: rest => do return (true, ← enumerated true rest)
  | .name ⟨"", type⟩ none :: rest =>
    if type = "CDATA" then some (false, rest)
    else if tokenizedTypes.contains type then some (true, rest)
    else none
  | .open :: rest => do return (true, ← enumerated false rest)
  | _ => none

/-- The default of an attribute, and what is left after it. -/
def attributeDefault : List Token → Option (Option (List Char) × List Token)
  | .keyword "REQUIRED" :: rest | .keyword "IMPLIED" :: rest => some (none, rest)
  | .keyword "FIXED" :: .literal value :: rest | .literal value :: rest => some (some value, rest)
  | _ => none

/-- The attributes declared for an element, their default values as the document means them. -/
def attributeList (d : Declarations) (element : QName) : Nat → List Token → Option (List DeclaredAttribute)
  | _, [.finish] => some []
  | fuel + 1, .name name none :: ts => do
    let (tokenized, ts) ← attributeType ts
    let (value, ts) ← attributeDefault ts
    let value ← if d.active then value.mapM (attributeValue d tokenized) else some none
    return ⟨element, name, tokenized, value⟩ :: (← attributeList d element fuel ts)
  | _, _ => none

/-- Connectors of the open groups of a content model, innermost first. -/
abbrev Groups := List (Option Token)

/-- A content model of nested groups; `item` tells that a name or group is due. -/
def contentGroups : Groups → Bool → List Token → Bool
  | [], false, [.finish] => true
  | groups, true, .open :: ts => contentGroups (none :: groups) true ts
  | groups, true, .name _ _ :: ts => contentGroups groups false ts
  | _ :: groups, false, .close _ :: ts => contentGroups groups false ts
  | group :: groups, false, t :: ts =>
    (t == .bar || t == .comma) && (group == none || group == some t) &&
      contentGroups (some t :: groups) true ts
  | _, _, _ => false

/-- Names after bars up to the bracket that ends a mixed content model. -/
def mixedNames : List Token → Bool
  | [.close (some '*'), .finish] => true
  | .bar :: .name _ none :: rest => mixedNames rest
  | _ => false

/-- The tokens describe the content of an element. -/
def isContentModel : List Token → Bool
  | [.name ⟨"", "EMPTY"⟩ none, .finish] | [.name ⟨"", "ANY"⟩ none, .finish] => true
  | [.open, .keyword "PCDATA", .close none, .finish] => true
  | .open :: .keyword "PCDATA" :: rest => mixedNames rest
  | .open :: rest => contentGroups [none] true rest
  | _ => false

/-- The tokens declare a notation. -/
def isNotation : List Token → Bool
  | [.name ⟨"", _⟩ none, .name ⟨"", "PUBLIC"⟩ none, .literal identifier, .finish] =>
    identifier.all isPublicChar
  | .name ⟨"", _⟩ none :: rest => externalId rest == some [.finish]
  | _ => false

/-- The declarations after one more of the given kind. -/
def Declarations.add (d : Declarations) (kind : String) (ts : List Token) : Option Declarations :=
  match kind, ts with
  | "ENTITY", ts => declareEntity d ts
  | "ATTLIST", .name element none :: ts => do
    let more ← attributeList d element ts.length ts
    return if d.active then { d with attributes := d.attributes ++ more } else d
  | "ELEMENT", .name _ none :: ts => if isContentModel ts then some d else none
  | "NOTATION", ts => if isNotation ts then some d else none
  | _, _ => none

/-- Declarations up to the closing bracket of the internal part. A reference to
    a parameter entity makes all that follows it unsure, so it is left out. -/
def internalSubset : Nat → Declarations → List Char → Option (Declarations × List Char)
  | 0, _, _ => none
  | fuel + 1, d, cs =>
    match skipSpace cs with
    | ']' :: rest => some (d, rest)
    | '<' :: '!' :: '-' :: '-' :: rest => do internalSubset fuel d (← skipComment rest)
    | '<' :: '?' :: rest => do internalSubset fuel d (← skipInstruction rest)
    | '%' :: rest => do
      let (_, rest) ← scanName rest
      let rest ← after? ";" rest
      internalSubset fuel { d with external := true, active := d.standalone } rest
    | '<' :: '!' :: rest => do
      let (kind, rest) ← scanName rest
      if !spaceAhead rest then none
      else
        let (ts, rest) ← scanTokens (rest.length + 1) rest
        internalSubset fuel (← d.add kind ts) rest
    | _ => none

/-- A document type declaration whose opening mark is taken. -/
def scanDocumentType (d : Declarations) (cs : List Char) : Option (Declarations × List Char) := do
  if !spaceAhead cs then none
  else
    let (ts, rest) ← scanTokens (cs.length + 1) cs
    let (external, last) ← match ts with
      | [.name _ none, last] => some (false, [last])
      | .name _ none :: more => (externalId more).map fun last => (true, last)
      | _ => none
    let d := { d with external := d.external || external }
    match last with
    | [.finish] => return (d, rest)
    | [.bracket] =>
      let (d, rest) ← internalSubset (rest.length + 1) d rest
      return (d, ← after? ">" (skipSpace rest))
    | _ => none

end Redraft.Markup
