import Redraft.Markup.Declaration

/-!
# Start tags

A start tag gives a name and attributes. Declared defaults are added, and names
are resolved against the namespaces in scope.
-/

namespace Redraft.Markup

/-! ## Scanning -/

/-- A start tag as written; `empty` tells that it is also the end. -/
structure RawTag where
  name : QName
  attributes : List (QName × List Char)
  empty : Bool

/-- Attributes up to the end of a start tag. -/
def scanAttributes (name : QName) : Nat → List (QName × List Char) → List Char → Option (RawTag × List Char)
  | 0, _, _ => none
  | fuel + 1, done, cs =>
    match skipSpace cs with
    | '>' :: rest => some (⟨name, done.reverse, false⟩, rest)
    | '/' :: '>' :: rest => some (⟨name, done.reverse, true⟩, rest)
    | ahead =>
      if !spaceAhead cs then none
      else do
        let (key, rest) ← scanQName ahead
        let rest ← after? "=" (skipSpace rest)
        let (value, rest) ← scanLiteral (skipSpace rest)
        scanAttributes name fuel ((key, value) :: done) rest

/-- A start tag whose opening mark is taken. -/
def scanStartTag (cs : List Char) : Option (RawTag × List Char) := do
  let (name, rest) ← scanQName cs
  scanAttributes name (rest.length + 1) [] rest

/-! ## Namespaces -/

/-- The namespace of each prefix in scope, innermost first; the default has an empty prefix. -/
abbrev Scope := List (String × String)

/-- The namespace that the prefix `xml` always has. -/
def xmlNamespace : String := "http://www.w3.org/XML/1998/namespace"

/-- The namespace of namespace declarations themselves. -/
def declarationNamespace : String := "http://www.w3.org/2000/xmlns/"

/-- The prefix that an attribute declares, if it declares one. -/
def declaredPrefix? (q : QName) : Option String :=
  if q.space = "xmlns" then some q.localPart
  else if q.space.isEmpty ∧ q.localPart = "xmlns" then some ""
  else none

/-- The scope with one more prefix declared. -/
def Scope.bind (scope : Scope) (space uri : String) : Option Scope :=
  if (uri.isEmpty && !space.isEmpty) || space == "xmlns" || uri.contains '}' then none
  else if (space == "xml") != (uri == xmlNamespace) || uri == declarationNamespace then none
  else some ((space, uri) :: scope)

/-- A name with its namespace. -/
def Scope.resolve (scope : Scope) (useDefault : Bool) (q : QName) : Option String :=
  let inSpace := fun (uri : String) =>
    if uri.isEmpty then q.localPart else "\x7b" ++ uri ++ "\x7d" ++ q.localPart
  if q.space.isEmpty then
    some (if useDefault then inSpace ((scope.lookup "").getD "") else q.localPart)
  else if q.space = "xml" then some (inSpace xmlNamespace)
  else (scope.lookup q.space).map inSpace

/-- An element's resolved tag and attributes, and the scope inside it. -/
structure ResolvedTag where
  tag : String
  attributes : List (String × String)
  scope : Scope

/-- The attributes declared for an element; the first declaration of a name counts. -/
def Declarations.attributesOf (d : Declarations) (element : QName) : List DeclaredAttribute :=
  (d.attributes.filter (·.element == element)).foldl
    (fun kept a => if kept.any (·.name == a.name) then kept else kept ++ [a]) []

/-- The attributes of a tag with their values, declared defaults last. -/
def fullAttributes (d : Declarations) (raw : RawTag) : Option (List (QName × String)) := do
  let declared := d.attributesOf raw.name
  let given ← raw.attributes.mapM fun (name, value) => do
    return (name, ← attributeValue d ((declared.find? (·.name == name)).any (·.tokenized)) value)
  let missing := declared.filter fun a => !given.any (·.1 == a.name)
  return given ++ missing.filterMap fun a => a.value.map fun value => (a.name, value)

/-- The tag with its names resolved; repeated attributes are refused. -/
def resolveTag (d : Declarations) (scope : Scope) (raw : RawTag) : Option ResolvedTag := do
  if !(raw.attributes.map (·.1)).Nodup then none
  else
    let attributes ← fullAttributes d raw
    let scope ← attributes.foldlM (fun (scope : Scope) (name, value) =>
      match declaredPrefix? name with
      | some space => scope.bind space value
      | none => some scope) scope
    let plain := attributes.filter fun (name, _) => (declaredPrefix? name).isNone
    let resolved ← plain.mapM fun (name, value) => do
      return (← scope.resolve false name, value)
    if !(resolved.map (·.1)).Nodup then none
    else return ⟨← scope.resolve true raw.name, resolved, scope⟩

end Redraft.Markup
