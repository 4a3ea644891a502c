/-!
# Elements

A document is a tree of elements. An element has a tag, attributes, the text
before its first child, and its children in order; comments and processing
instructions leave no trace. A tag in a namespace is written `{uri}local`.
-/

namespace Redraft.Markup

/-- An element of a document. -/
structure Element where
  tag : String
  attributes : List (String × String)
  text : String
  children : List Element
deriving Inhabited

namespace Element

/-- The value of an attribute. -/
def attribute? (e : Element) (name : String) : Option String := e.attributes.lookup name

/-- The text before the first child, unless it is empty. -/
def text? (e : Element) : Option String := if e.text.isEmpty then none else some e.text

/-- The children with a given tag. -/
def named (e : Element) (tag : String) : List Element := e.children.filter (·.tag == tag)

/-- The first child with a given tag. -/
def first? (e : Element) (tag : String) : Option Element := e.children.find? (·.tag == tag)

/-- The grandchildren with a given tag whose parents have another given tag. -/
def grandchildren (e : Element) (outer inner : String) : List Element :=
  (e.named outer).flatMap (·.named inner)

end Element

end Redraft.Markup
