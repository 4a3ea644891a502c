/-!
# Brace tokens

Characters reserved in a name are written as tokens in braces, such as
`{slash}`. Reading replaces the tokens, keeps unknown ones and reads inside
them, and copies `${…}`, `^{…}` and `_{…}` as they stand.
-/

namespace Redraft.Name

/-! ## Writing -/

/-- Where an escaped text is used. -/
inductive EscapeContext where
  | netName
deriving DecidableEq, Repr

/-- The context of the given name. -/
def EscapeContext.ofName? : String → Option EscapeContext
  | "netname" => some .netName
  | _ => none

/-- A character as it is written in a net name; line ends vanish. -/
def escapeChar (c : Char) : List Char :=
  if c = '/' then ['{', 's', 'l', 'a', 's', 'h', '}']
  else if c = '\n' ∨ c = '\r' then []
  else [c]

/-- A text as it is written in a net name. -/
def escapeChars (cs : List Char) : List Char := cs.flatMap escapeChar

/-- A text as it is written in the given context. -/
def escapeIn : EscapeContext → String → String
  | .netName, s => String.ofList (escapeChars s.toList)

/-! ## Reading -/

/-- What each token stands for. -/
def tokens : List (List Char × Char) := [
  ("dblquote".toList, '"'), ("quote".toList, '\''), ("lt".toList, '<'), ("gt".toList, '>'),
  ("backslash".toList, '\\'), ("slash".toList, '/'), ("bar".toList, '|'), ("colon".toList, ':'),
  ("space".toList, ' '), ("dollar".toList, '$'), ("tab".toList, '\t'), ("return".toList, '\n'),
  ("brace".toList, '\x7b'), ([], '\x7b')]

/-- A text up to and with its first closing brace, or all of it, and the rest. -/
def splitThrough : List Char → List Char × List Char
  | [] => ([], [])
  | c :: cs =>
    if c = '}' then ([c], cs)
    else
      let (taken, rest) := splitThrough cs
      (c :: taken, rest)

/-- A text up to the brace that closes it, or all of it, and the rest after
    that brace; `depth` counts the braces open inside. -/
def splitClosing : Nat → List Char → List Char × List Char
  | _, [] => ([], [])
  | depth, c :: cs =>
    if c = '}' ∧ depth = 0 then ([], cs)
    else
      let inner := if c = '{' then depth + 1 else if c = '}' then depth - 1 else depth
      let (taken, rest) := splitClosing inner cs
      (c :: taken, rest)

theorem length_splitThrough_le (cs : List Char) : (splitThrough cs).2.length ≤ cs.length := by
  induction cs with
  | nil => simp [splitThrough]
  | cons c cs ih =>
    unfold splitThrough
    split
    · simp
    · exact Nat.le_succ_of_le ih

theorem length_splitClosing_le (depth : Nat) (cs : List Char) :
    (splitClosing depth cs).1.length ≤ cs.length ∧ (splitClosing depth cs).2.length ≤ cs.length := by
  induction cs generalizing depth with
  | nil => simp [splitClosing]
  | cons c cs ih =>
    unfold splitClosing
    split
    · simp
    · exact ⟨Nat.succ_le_succ (ih _).1, Nat.le_succ_of_le (ih _).2⟩

/-- A character after which a brace opens a variable, superscript or subscript. -/
def isSigil (c : Char) : Bool := c == '$' || c == '^' || c == '_'

/-- The text with its tokens replaced. -/
def unescapeChars : List Char → List Char
  | [] => []
  | c :: cs =>
    if isSigil c && cs.head? == some '\x7b' then
      c :: (splitThrough cs).1 ++ unescapeChars (splitThrough cs).2
    else if c = '\x7b' then
      let token := (splitClosing 0 cs).1
      (match tokens.lookup token with
        | some meaning => [meaning]
        | none => '\x7b' :: unescapeChars token ++ ['\x7d']) ++ unescapeChars (splitClosing 0 cs).2
    else c :: unescapeChars cs
termination_by cs => cs.length
decreasing_by
  all_goals simp only [List.length_cons]
  · have := length_splitThrough_le cs; omega
  · have := (length_splitClosing_le 0 cs).1; omega
  · have := (length_splitClosing_le 0 cs).2; omega
  · omega

/-- The string with its tokens replaced. -/
def unescape (s : String) : String := String.ofList (unescapeChars s.toList)

end Redraft.Name
