import Redraft.File.Identity

/-!
# Written expressions

A file is a list in brackets. Short lists stand on one line; a block opens its
bracket with a head, holds a row for each part and closes the bracket on a line
of its own.
-/

namespace Redraft

/-- A part of a line; the lists in a packed one stand without spaces between them. -/
inductive Expr where
  | word (text : String)
  | quoted (text : String)
  | length (units : Int)
  | whole (n : Int)
  | identity (id : Identity)
  | path (ids : List Identity)
  | list (parts : List Expr)
  | packed (name : String) (parts : List Expr)
deriving Repr

/-- A row of a block: a blank line, expressions on a line, or a block. -/
inductive Row where
  | blank
  | line (parts : List Expr)
  | block (head : List Expr) (rows : List Row)
deriving Repr

/-- A text in double quotes; a quote inside is escaped by a backslash. -/
def quotedText (s : String) : String := "\"" ++ s.replace "\"" "\\\"" ++ "\""

mutual

/-- The text of an expression, with a text for each identity. -/
def Expr.text (name : Identity → String) : Expr → String
  | .word s => s
  | .quoted s => quotedText s
  | .length n => lengthText n
  | .whole n => toString n
  | .identity id => name id
  | .path ids => quotedText (String.join (ids.map fun id => "/" ++ name id))
  | .list parts => "(" ++ Expr.texts name " " parts ++ ")"
  | .packed head parts => "(" ++ head ++ " " ++ Expr.texts name "" parts ++ ")"

/-- The texts of some expressions with a text between each two. -/
def Expr.texts (name : Identity → String) (between : String) : List Expr → String
  | [] => ""
  | [e] => e.text name
  | e :: es => e.text name ++ between ++ Expr.texts name between es

end

mutual

/-- The identities in an expression, in order. -/
def Expr.identities : Expr → List Identity
  | .identity id => [id]
  | .path ids => ids
  | .list parts | .packed _ parts => Expr.allIdentities parts
  | .word _ | .quoted _ | .length _ | .whole _ => []

/-- The identities in some expressions, in order. -/
def Expr.allIdentities : List Expr → List Identity
  | [] => []
  | e :: es => e.identities ++ Expr.allIdentities es

end

/-! ## Rows -/

/-- A line at some depth. -/
def indented (depth : Nat) (s : String) : String := "".pushn ' ' depth ++ s ++ "\n"

mutual

/-- The lines of a row at some depth. -/
def Row.text (name : Identity → String) (depth : Nat) : Row → String
  | .blank => "\n"
  | .line parts => indented depth (Expr.texts name " " parts)
  | .block head rows =>
    indented depth ("(" ++ Expr.texts name " " head) ++ Row.texts name (depth + 2) rows ++ indented depth ")"

/-- The lines of some rows at some depth. -/
def Row.texts (name : Identity → String) (depth : Nat) : List Row → String
  | [] => ""
  | r :: rs => r.text name depth ++ Row.texts name depth rs

end

mutual

/-- The identities in a row, in order. -/
def Row.identities : Row → List Identity
  | .blank => []
  | .line parts => Expr.allIdentities parts
  | .block head rows => Expr.allIdentities head ++ Row.allIdentities rows

/-- The identities in some rows, in order. -/
def Row.allIdentities : List Row → List Identity
  | [] => []
  | r :: rs => r.identities ++ Row.allIdentities rs

end

/-! ## Short forms -/

/-- A list that starts with a word. -/
def Expr.named (name : String) (parts : List Expr) : Expr := .list (.word name :: parts)

/-- A row of one named list. -/
def Row.named (name : String) (parts : List Expr) : Row := .line [.named name parts]

/-- A named point. -/
def pointExpr (name : String) (p : Point) : Expr := .named name [.length p.x, .length p.y]

/-- Where something stands, and its angle. -/
def placeExpr (p : Point) (angle : Int) : Expr :=
  .named "at" [.length p.x, .length p.y, .whole angle]

/-- The row of an identity. -/
def identityRow (id : Identity) : Row := .named "uuid" [.identity id]

/-- The row of a stroke. -/
def strokeRow (width : Expr) (style : String) : Row :=
  .named "stroke" [.named "width" [width], .named "type" [.word style]]

/-- The expression for a stroke width: the thinnest is a whole zero. -/
def Stroke.expr : Stroke → Expr
  | hairline => .whole 0
  | pen width => .length width

/-- The sides of a justification that are set. -/
def Justification.words (j : Justification) : List Expr :=
  (j.horizontal.map fun h => Expr.word h.text).toList ++ (j.vertical.map fun v => Expr.word v.text).toList

/-- The expression for effects. -/
def Effects.expr (e : Effects) : Expr :=
  let size := Expr.named "size" [.length e.height, .length e.width]
  let font := Expr.named "font" (size :: if e.bold then [.word "bold"] else [])
  let justify := if e.justify.words.isEmpty then [] else [Expr.named "justify" e.justify.words]
  .named "effects" (font :: justify ++ if e.hide then [.word "hide"] else [])

/-- The row of effects. -/
def Effects.row (e : Effects) : Row := .line [e.expr]

/-- The block of a field that stands at a given place. -/
def fieldRow {α : Type} (f : Field α) (place : Expr) : Row :=
  .block [.word "property", .quoted f.key, .quoted f.value, .named "id" [.whole f.id], place]
    [f.effects.row]

end Redraft
