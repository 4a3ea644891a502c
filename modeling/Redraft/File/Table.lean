import Redraft.File.Expression
import Redraft.Text.Blank
import Redraft.Text.Digit
import Redraft.Text.Lines

/-!
# The library table

A project's table names its symbol libraries. An existing table is read, keeps
its rows and gains one for the converted library, unless it has one of that
name.
-/

namespace Redraft

/-! ## Tokens -/

/-- A token of a table. -/
inductive TableToken where
  | opening
  | closing
  | number
  | text (s : String)
deriving DecidableEq, Repr

/-- A character that may stand in a bare word. -/
def isWordChar (c : Char) : Bool := !("(^)".toList.contains c || Text.isBlank c)

/-- Digits only, and at least one. -/
def isDigits (cs : List Char) : Bool := !cs.isEmpty && cs.all Text.isDecimalDigit

/-- A bare word that reads as a number: whole with a minus sign at most, or with a point. -/
def isNumber (cs : List Char) : Bool :=
  let body := match cs with
    | '+' :: rest | '-' :: rest => rest
    | _ => cs
  let whole := body.takeWhile Text.isDecimalDigit
  match body.drop whole.length with
  | [] => isDigits whole && cs.head? != some '+'
  | '.' :: places => isDigits whole && isDigits places
  | _ => false

/-- A number ends before a space or a closing bracket. -/
def endsNumber (rest : List Char) : Bool := rest.head? == some ' ' || rest.head? == some ')'

/-- A quoted text ends before a blank or a closing bracket. -/
def endsQuoted (rest : List Char) : Bool := rest.head?.any fun c => c == ')' || Text.isBlank c

/-- The longest quoted text whose opening quote has been read, and what follows
    it. A quote after a backslash may be inside the text. -/
def splitQuoted : Option (List Char × List Char) → List Char → Char → List Char →
    Option (List Char × List Char)
  | best, _, _, [] => best
  | best, done, last, c :: cs =>
    if c = '"' then
      let best := if endsQuoted cs then some (done.reverse, cs) else best
      if last = '\\' then splitQuoted best (c :: done) c cs else best
    else splitQuoted best (c :: done) c cs

/-- The text with each escaped quote replaced by a quote. -/
def unescapeQuotes : List Char → List Char
  | '\\' :: '"' :: cs => '"' :: unescapeQuotes cs
  | c :: cs => c :: unescapeQuotes cs
  | [] => []

/-- The first token and what follows it; a character that starts none is passed over. -/
def nextToken (c : Char) (cs : List Char) : Option TableToken × List Char :=
  if c = '(' then (some .opening, cs)
  else if c = ')' then (some .closing, cs)
  else if !isWordChar c then (none, cs)
  else
    let word := c :: cs.takeWhile isWordChar
    let rest := cs.dropWhile isWordChar
    let bare := (some (TableToken.text (String.ofList word)), rest)
    if c = '"' then
      match splitQuoted none [] c cs with
      | some (quoted, rest) => (some (.text (String.ofList (unescapeQuotes quoted))), rest)
      | none => bare
    else if isNumber word && endsNumber rest then (some .number, rest)
    else bare

/-- The tokens of a text, read with fuel for each character. -/
def tableTokens : Nat → List Char → List TableToken
  | 0, _ | _, [] => []
  | fuel + 1, c :: cs =>
    let (token, rest) := nextToken c cs
    token.toList ++ tableTokens fuel rest

/-! ## Values -/

/-- A value in a table. -/
inductive TableValue where
  | number
  | text (s : String)
  | list (values : List TableValue)
deriving Repr, Inhabited

/-- Nests tokens by brackets; each list on the stack is reversed. -/
def nestTokens : List (List TableValue) → List TableValue → List TableToken → Option (List TableValue)
  | [], done, [] => some done.reverse
  | _ :: _, _, [] => none
  | stack, done, .opening :: ts => nestTokens (done :: stack) [] ts
  | outer :: stack, done, .closing :: ts => nestTokens stack (.list done.reverse :: outer) ts
  | [], _, .closing :: _ => none
  | stack, done, .number :: ts => nestTokens stack (.number :: done) ts
  | stack, done, .text s :: ts => nestTokens stack (.text s :: done) ts

/-- The first value of a text. -/
def TableValue.read (text : String) : Except TableFault TableValue :=
  let cs := text.toList
  match nestTokens [] [] (tableTokens cs.length cs) with
  | none => .error .unbalanced
  | some [] => .error .incomplete
  | some (value :: _) => .ok value

/-- The head of a value in a list, if the value is a list itself and its head a text. -/
def TableValue.head : TableValue → Except TableFault (Option String × List TableValue)
  | number => .error .notList
  | text s => if s.isEmpty then .error .incomplete else .ok (none, [])
  | list [] => .error .incomplete
  | list (.text s :: rest) => .ok (some s, rest)
  | list (_ :: rest) => .ok (none, rest)

/-! ## Rows -/

/-- A row of the table: a symbol library. -/
structure TableRow (text : Type) where
  name : text
  kind : text
  uri : text
  options : text
  description : text
  active : Bool := true
deriving Repr

/-- A table: its kind and its rows. -/
structure LibraryTable where
  kind : String := "sym_lib_table"
  rows : List (TableRow String) := []
deriving Repr

/-- The first value of a list. -/
def firstValue : List TableValue → Except TableFault TableValue
  | v :: _ => .ok v
  | [] => .error .incomplete

/-- The row with one more entry of its list. -/
def TableRow.add (row : TableRow TableValue) (entry : TableValue) : Except TableFault (TableRow TableValue) := do
  let (key, values) ← entry.head
  match key with
  | some "name" => return { row with name := ← firstValue values }
  | some "type" => return { row with kind := ← firstValue values }
  | some "uri" => return { row with uri := ← firstValue values }
  | some "options" => return { row with options := ← firstValue values }
  | some "descr" => return { row with description := ← firstValue values }
  | some "disabled" => return { row with active := false }
  | _ => return row

/-- The row of a list, if the list is one. -/
def TableRow.read? (value : TableValue) : Except TableFault (Option (TableRow TableValue)) := do
  match ← value.head with
  | (some "lib", entries) =>
    let blank := TableValue.text ""
    return some (← entries.foldlM TableRow.add ⟨blank, blank, blank, blank, blank, true⟩)
  | _ => return none

/-- The text of a value. -/
def TableValue.asText : TableValue → Except TableFault String
  | text s => .ok s
  | _ => .error .notText

/-- The row with texts for values. -/
def TableRow.texts (row : TableRow TableValue) : Except TableFault (TableRow String) := do
  return ⟨← row.name.asText, ← row.kind.asText, ← row.uri.asText, ← row.options.asText,
    ← row.description.asText, row.active⟩

namespace LibraryTable

/-- Reads a table. -/
def read (text : String) : Except TableFault LibraryTable := do
  match ← TableValue.read text with
  | .list [] => throw .incomplete
  | .list (.text kind :: values) =>
    if kind != "sym_lib_table" && kind != "fp_lib_table" then throw .notTable
    let rows := (← values.mapM TableRow.read?).filterMap id
    return ⟨kind, ← rows.mapM TableRow.texts⟩
  | _ => throw .notTable

/-- Reads a table from the bytes of its file. -/
def readBytes (bytes : ByteArray) : Except TableFault LibraryTable :=
  match String.fromUTF8? bytes with
  | some text => read (String.ofList (Text.unifyLineEnds text.toList))
  | none => .error .notUnicode

/-- The table with a row for a library in a file of the project. -/
def add (t : LibraryTable) (name file : String) : LibraryTable :=
  if t.rows.any (·.name == name) then t
  else { t with rows := t.rows ++ [⟨name, "KiCad", "$\x7bKIPRJMOD\x7d/" ++ file, "", "", true⟩] }

/-- The written row of a library. -/
def rowExpr (row : TableRow String) : Expr :=
  let entry := fun (key value : String) => Expr.named key [.quoted value]
  .packed "lib" ([entry "name" row.name, entry "type" row.kind, entry "uri" row.uri,
      entry "options" row.options, entry "descr" row.description] ++
    if row.active then [] else [Expr.named "disabled" []])

/-- The file of the table. -/
def fileRow (t : LibraryTable) : Row := .block [.word t.kind] (t.rows.map fun r => .line [rowExpr r])

end LibraryTable

end Redraft
