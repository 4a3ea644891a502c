import Redraft.Markup.Scan

/-!
# Entities and attribute values

What a document declares before its root element, and how the references in an
attribute's value are replaced by means of it. External parts are not read, so
a document with one may refer to entities that are not known here.
-/

namespace Redraft.Markup

/-- What an entity stands for. -/
inductive Entity where
  | internal (text : List Char)
  | external
deriving DecidableEq, Repr

/-- An attribute declared for an element; a tokenized value has its blanks joined. -/
structure DeclaredAttribute where
  element : QName
  name : QName
  tokenized : Bool
  value : Option String
deriving Repr

/-- Everything declared before the root element. -/
structure Declarations where
  entities : List (String × Entity) := []
  attributes : List DeclaredAttribute := []
  external : Bool := false
  standalone : Bool := false
  active : Bool := true

/-- Every entity that a document may refer to is declared in the document. -/
def Declarations.complete (d : Declarations) : Bool := !d.external || d.standalone

/-- The entities with one more, unless its name is taken. -/
def Declarations.declare (d : Declarations) (name : String) (e : Entity) : Declarations :=
  if !d.active || (d.entities.lookup name).isSome || (predefined.lookup name).isSome then d
  else { d with entities := d.entities ++ [(name, e)] }

/-! ## Attribute values -/

/-- A value with its references replaced; `inner` gives the text of an entity.
    The characters done so far are reversed. -/
def expandValue (inner : String → Option (List Char)) : Nat → List Char → List Char → Option (List Char)
  | 0, _, _ => none
  | _ + 1, done, [] => some done.reverse
  | fuel + 1, done, c :: cs =>
    if c = '<' then none
    else if c = '&' then do
      let (r, rest) ← scanReference cs
      match r with
      | .char c => expandValue inner fuel (c :: done) rest
      | .entity name => do
        let text ← inner name
        expandValue inner fuel (text.reverse ++ done) rest
    else expandValue inner fuel ((if isSpace c then ' ' else c) :: done) cs

/-- The text of an entity inside a value; `depth` bounds how deep entities nest.
    Where declarations may be missing, an unknown entity stands for nothing. -/
def entityInValue (d : Declarations) : Nat → String → Option (List Char)
  | 0, _ => none
  | depth + 1, name =>
    match predefined.lookup name with
    | some c => some [c]
    | none => match d.entities.lookup name with
      | some (.internal text) => expandValue (entityInValue d depth) (text.length + 1) [] text
      | some .external => none
      | none => if d.complete then none else some []

/-- Spaces joined, none at either end; `spaced` tells that a space is due. -/
def joinSpaces : Bool → List Char → List Char
  | _, [] => []
  | spaced, c :: cs =>
    if c = ' ' then joinSpaces true cs
    else (if spaced then [' ', c] else [c]) ++ joinSpaces false cs

/-- A tokenized value: spaces joined. -/
def tokenize (cs : List Char) : List Char := joinSpaces false (cs.dropWhile (· == ' '))

/-- The value of an attribute as the document means it. -/
def attributeValue (d : Declarations) (tokenized : Bool) (cs : List Char) : Option String := do
  let text ← expandValue (entityInValue d (d.entities.length + 1)) (cs.length + 1) [] cs
  return String.ofList (if tokenized then tokenize text else text)

end Redraft.Markup
