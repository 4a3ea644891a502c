import Redraft.Markup.Element
import Redraft.Markup.StartTag
import Redraft.Text.Lines

/-!
# Documents

A document is an optional declaration, comments and instructions, an optional
document type, and one root element. Content is read by a machine with a stack
of open elements; an entity is read as content of its own that has to end at
the element where it began.
-/

namespace Redraft.Markup

/-! ## Content -/

/-- An element that is open: its name as written, what is known of it, and the scope inside. -/
structure Frame where
  name : List Char
  element : Element
  scope : Scope

/-- Character data counts only before the first child. -/
def Frame.addText (f : Frame) (cs : List Char) : Frame :=
  if f.element.children.isEmpty then
    { f with element := { f.element with text := f.element.text ++ String.ofList cs } }
  else f

/-- The element with one more child; children are kept in reverse until it ends. -/
def Frame.addChild (f : Frame) (e : Element) : Frame :=
  { f with element := { f.element with children := e :: f.element.children } }

/-- The finished element. -/
def Frame.finish (f : Frame) : Element :=
  { f.element with children := f.element.children.reverse }

/-- The frame of a start tag. -/
def openFrame (d : Declarations) (scope : Scope) (raw : RawTag) : Option Frame := do
  let r ← resolveTag d scope raw
  return ⟨raw.name.text.toList, ⟨r.tag, r.attributes, "", []⟩, r.scope⟩

/-- Where the machine stops: at the end of the text, or after the end of its first element. -/
inductive Stop where
  | exhausted (f : Frame)
  | ended (e : Element) (rest : List Char)

/-- Character data that needs no closer look. -/
def isPlain (c : Char) : Bool := c != '<' && c != '&' && c != ']'

/-- Reads content into the innermost open element `f`, with the outer ones below
    it; `entity` reads the text of an entity into a frame. -/
def content (d : Declarations) (entity : String → Frame → Option Frame) :
    Nat → Frame → List Frame → List Char → Option Stop
  | 0, _, _, _ => none
  | fuel + 1, f, outer, cs =>
    match cs with
    | [] => if outer.isEmpty then some (.exhausted f) else none
    | '<' :: '/' :: rest =>
      let name := rest.takeWhile fun c => !isSpace c && c != '>'
      if name != f.name then none
      else match after? ">" (skipSpace (rest.drop name.length)), outer with
        | some rest, [] => some (.ended f.finish rest)
        | some rest, g :: outer => content d entity fuel (g.addChild f.finish) outer rest
        | none, _ => none
    | '<' :: '!' :: '-' :: '-' :: rest =>
      match skipComment rest with
      | some rest => content d entity fuel f outer rest
      | none => none
    | '<' :: '!' :: rest =>
      match (after? "[CDATA[" rest).bind (splitAt? [']', ']', '>'] []) with
      | some (text, rest) => content d entity fuel (f.addText text) outer rest
      | none => none
    | '<' :: '?' :: rest =>
      match skipInstruction rest with
      | some rest => content d entity fuel f outer rest
      | none => none
    | '<' :: rest =>
      match scanStartTag rest with
      | some (raw, rest) =>
        match openFrame d f.scope raw with
        | some g =>
          if raw.empty then content d entity fuel (f.addChild g.finish) outer rest
          else content d entity fuel g (f :: outer) rest
        | none => none
      | none => none
    | '&' :: rest =>
      match scanReference rest with
      | some (.char c, rest) => content d entity fuel (f.addText [c]) outer rest
      | some (.entity name, rest) =>
        match entity name f with
        | some f => content d entity fuel f outer rest
        | none => none
      | none => none
    | ']' :: ']' :: '>' :: _ => none
    | ']' :: rest => content d entity fuel (f.addText [']']) outer rest
    | c :: rest =>
      let run := c :: rest.takeWhile isPlain
      content d entity fuel (f.addText run) outer (rest.dropWhile isPlain)

/-- Reads the text of an entity into a frame; `depth` bounds how deep entities nest. -/
def entityContent (d : Declarations) : Nat → String → Frame → Option Frame
  | 0, _, _ => none
  | depth + 1, name, f =>
    match predefined.lookup name with
    | some c => some (f.addText [c])
    | none => match d.entities.lookup name with
      | some (.internal text) =>
        match content d (entityContent d depth) (text.length + 1) f [] text with
        | some (.exhausted f) => some f
        | _ => none
      | _ => none

/-! ## The document -/

/-- A character of a value in the document's declaration. -/
def isDeclarationChar (c : Char) : Bool := c.isAlphanum || c == '.' || c == '-' || c == '_'

/-- The named values in the document's declaration, in order. -/
def declarationValues : Nat → List Char → Option (List (String × String))
  | 0, _ => none
  | fuel + 1, cs =>
    let ahead := skipSpace cs
    if ahead.isEmpty then some []
    else if !spaceAhead cs then none
    else do
      let isNamePart := fun c => c != '=' && !isSpace c
      let name := ahead.takeWhile isNamePart
      let rest ← after? "=" (skipSpace (ahead.dropWhile isNamePart))
      let (value, rest) ← scanLiteral (skipSpace rest)
      if value.all isDeclarationChar then
        return (String.ofList name, String.ofList value) :: (← declarationValues fuel rest)
      else none

/-- What the document's declaration says: the encoding it names, and whether it stands alone. -/
structure Header where
  encoding : Option String := none
  standalone : Bool := false

/-- The rest of a declaration after version and encoding. -/
def standaloneHeader (encoding : Option String) : List (String × String) → Option Header
  | [] => some ⟨encoding, false⟩
  | [("standalone", "yes")] => some ⟨encoding, true⟩
  | [("standalone", "no")] => some ⟨encoding, false⟩
  | _ => none

/-- The header that a declaration's values mean. -/
def headerOf : List (String × String) → Option Header
  | ("version", _) :: ("encoding", name) :: rest =>
    if name.toList.head?.any Char.isAlpha then standaloneHeader (some name) rest else none
  | ("version", _) :: rest => standaloneHeader none rest
  | _ => none

/-- The document's declaration, if the text begins with one, and the rest. -/
def scanHeader (cs : List Char) : Option (Header × List Char) :=
  match after? "<?xml" cs with
  | some rest =>
    if spaceAhead rest then do
      let (inside, rest) ← splitAt? ['?', '>'] [] rest
      return (← headerOf (← declarationValues (inside.length + 1) inside), rest)
    else some ({}, cs)
  | none => some ({}, cs)

/-- The declarations before the root element, and the text from its start tag on. -/
def scanProlog (d : Declarations) (cs : List Char) : Option (Declarations × List Char) := do
  let rest ← skipMisc (cs.length + 1) cs
  match after? "<!DOCTYPE" rest with
  | some rest => do
    let (d, rest) ← scanDocumentType d rest
    return (d, ← skipMisc (rest.length + 1) rest)
  | none => return (d, rest)

/-- The root element of a document. -/
def readChars (cs : List Char) : Option Element := do
  let (header, rest) ← scanHeader cs
  let (d, rest) ← scanProlog { standalone := header.standalone } rest
  let (raw, rest) ← scanStartTag (← after? "<" rest)
  let frame ← openFrame d [] raw
  let (root, rest) ← if raw.empty then some (frame.finish, rest)
    else match content d (entityContent d (d.entities.length + 1)) (rest.length + 1) frame [] rest with
      | some (.ended root rest) => some (root, rest)
      | _ => none
  if (← skipMisc (rest.length + 1) rest).isEmpty then some root else none

/-- The characters of a document: no leading byte order mark, line ends unified. -/
def documentChars (s : String) : List Char :=
  let cs := s.toList
  Text.unifyLineEnds (if cs.head? = some '\uFEFF' then cs.drop 1 else cs)

/-- Reads a document, or `none` if it is malformed. -/
def read? (s : String) : Option Element :=
  let cs := documentChars s
  if cs.all isLegal then readChars cs else none

end Redraft.Markup
