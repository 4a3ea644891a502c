import Redraft.Text.Ranges

/-!
# Blank characters

The blanks are the characters with bidirectional type or category of white
space: they are cut from both ends of a text (`trim`) and separate its words
(`words`).
-/

namespace Redraft.Text

/-- Code points of white space. -/
def blanks : Ranges := [
    (9, 13), (28, 32), (133, 133), (160, 160), (5760, 5760), (8192, 8202), (8232, 8233),
    (8239, 8239), (8287, 8287), (12288, 12288)]

/-- A character of white space. -/
def isBlank (c : Char) : Bool := blanks.has c

/-- The text without blanks at its start. -/
def trimStart (cs : List Char) : List Char := cs.dropWhile isBlank

/-- The text without blanks at either end. -/
def trim (cs : List Char) : List Char := (trimStart (trimStart cs).reverse).reverse

/-- The string without blanks at either end. -/
def trimmed (s : String) : String := String.ofList (trim s.toList)

/-- Splits off words, each ended by a blank or the end; `word` is the current one reversed. -/
def wordsFrom : List Char → List Char → List (List Char)
  | word, [] => if word.isEmpty then [] else [word.reverse]
  | word, c :: cs =>
    if isBlank c then
      if word.isEmpty then wordsFrom [] cs else word.reverse :: wordsFrom [] cs
    else wordsFrom (c :: word) cs

/-- The words of a string: the longest runs without a blank. -/
def words (s : String) : List String := (wordsFrom [] s.toList).map String.ofList

end Redraft.Text
