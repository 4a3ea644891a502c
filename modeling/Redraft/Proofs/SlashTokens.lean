import Mathlib.Data.List.Infix
import Redraft.Name.Token

/-!
# Slashes in net names

A slash in a net name is written as a token, and reading the token gives the
slash back. But a brace right after `$`, `^` or `_` opens a variable, a
superscript or a subscript, and these are copied. So a text is read back as it
was, unless a slash in it comes right after one of the three.
-/

namespace Redraft.Name

/-- A slash of the text comes right after a character that makes something else of its token. -/
def HidesSlash (cs : List Char) : Prop := ∃ sigil ∈ ['$', '^', '_'], [sigil, '/'] <:+: cs

instance (cs : List Char) : Decidable (HidesSlash cs) := List.decidableBEx _ _

/-- What escaping leaves as it is: texts without braces and line ends. -/
def Unmarked (cs : List Char) : Prop := ∀ c ∈ cs, c ≠ '{' ∧ c ≠ '}' ∧ c ≠ '\n' ∧ c ≠ '\r'

instance (cs : List Char) : Decidable (Unmarked cs) := List.decidableBAll _ _

section
variable {c : Char} {cs rest : List Char}

theorem isSigil_iff : isSigil c = true ↔ c ∈ ['$', '^', '_'] := by
  simp [isSigil, or_assoc]

theorem hidesSlash_cons : HidesSlash (c :: cs) ↔ isSigil c = true ∧ cs.head? = some '/' ∨ HidesSlash cs := by
  have first (sigil : Char) : [sigil, '/'] <+: c :: cs ↔ sigil = c ∧ cs.head? = some '/' := by
    rw [List.cons_prefix_cons]
    cases cs with
    | nil => simp
    | cons d cs => simp [eq_comm]
  simp only [HidesSlash, List.infix_cons_iff, first, and_or_left, exists_or, isSigil_iff]
  apply or_congr_left
  constructor
  · rintro ⟨_, member, rfl, slash⟩
    exact ⟨member, slash⟩
  · rintro ⟨member, slash⟩
    exact ⟨c, member, rfl, slash⟩

/-! ## Reading what is written -/

/-- A character that opens no brace is read as itself, and so is what follows. -/
theorem unescapeChars_char (opens : c ≠ '{') (apart : isSigil c = true → rest.head? ≠ some '{') :
    unescapeChars (c :: rest) = c :: unescapeChars rest := by
  have plain : (isSigil c && rest.head? == some '{') = false := by
    rw [Bool.and_eq_false_imp, beq_eq_false_iff_ne]
    exact apart
  rw [unescapeChars, plain, if_neg Bool.false_ne_true, if_neg opens]

/-- The token of a slash is read as a slash. -/
theorem unescapeChars_slash (rest : List Char) :
    unescapeChars (escapeChar '/' ++ rest) = '/' :: unescapeChars rest := by
  have token : splitClosing 0 (['s', 'l', 'a', 's', 'h', '}'] ++ rest) = ("slash".toList, rest) := rfl
  show unescapeChars ('{' :: (['s', 'l', 'a', 's', 'h', '}'] ++ rest)) = _
  rw [unescapeChars, token]
  rfl

/-- After a sigil the token of a slash is copied. -/
theorem unescapeChars_sigil (sigil : isSigil c = true) (rest : List Char) :
    unescapeChars (c :: (escapeChar '/' ++ rest)) = c :: (escapeChar '/' ++ unescapeChars rest) := by
  have token : splitThrough (escapeChar '/' ++ rest) = (escapeChar '/', rest) := rfl
  rw [unescapeChars, token, sigil]
  rfl

/-- What is written starts with a brace where the text starts with a slash. -/
theorem head_escapeChars (plain : Unmarked cs) : (escapeChars cs).head? = some '{' ↔ cs.head? = some '/' := by
  cases cs with
  | nil => simp [escapeChars]
  | cons d cs =>
    obtain ⟨opens, _, lineFeed, carriageReturn⟩ := plain d (.head _)
    by_cases slash : d = '/'
    · simp [escapeChars, escapeChar, slash]
    · simp [escapeChars, escapeChar, slash, opens, lineFeed, carriageReturn]

theorem escapeChar_of_ne (slash : c ≠ '/') (plain : c ≠ '\n' ∧ c ≠ '\r') : escapeChar c = [c] := by
  rw [escapeChar, if_neg slash, if_neg (not_or.2 plain)]

theorem sigil_ne_slash (sigil : isSigil c = true) : c ≠ '/' ∧ c ≠ '\n' ∧ c ≠ '\r' := by
  refine ⟨?_, ?_, ?_⟩ <;> rintro rfl <;> cases sigil

/-- What is written and read again is the text, if each slash of it is found again. -/
theorem unescapeChars_escapeChars_iff (plain : Unmarked cs) : unescapeChars (escapeChars cs) = cs ↔ ¬HidesSlash cs := by
  induction cs with
  | nil => simp [escapeChars, unescapeChars, HidesSlash]
  | cons c cs ih =>
    obtain ⟨here, after⟩ := List.forall_mem_cons.1 plain
    rw [hidesSlash_cons]
    by_cases hidden : isSigil c = true ∧ cs.head? = some '/'
    · obtain ⟨sigil, slash⟩ := hidden
      obtain ⟨rest, rfl⟩ := List.head?_eq_some_iff.1 slash
      obtain ⟨noSlash, noEnd⟩ := sigil_ne_slash sigil
      have written : escapeChars (c :: '/' :: rest) = c :: (escapeChar '/' ++ escapeChars rest) := by
        simp [escapeChars, escapeChar_of_ne noSlash noEnd]
      rw [written, unescapeChars_sigil sigil]
      simp [escapeChar, sigil]
    · have read : unescapeChars (escapeChars (c :: cs)) = c :: unescapeChars (escapeChars cs) := by
        rw [escapeChars, List.flatMap_cons, ← escapeChars]
        by_cases slash : c = '/'
        · rw [slash, unescapeChars_slash]
        · rw [escapeChar_of_ne slash here.2.2, List.singleton_append]
          refine unescapeChars_char here.1 fun sigil brace => ?_
          exact hidden ⟨sigil, (head_escapeChars after).1 brace⟩
      rw [read, List.cons_inj_right, or_iff_right hidden, ih after]

end

/-- A text without braces and line ends is read back from its tokens just if no slash of it comes right after
    `$`, `^` or `_`. -/
theorem unescape_escape_iff (s : String) (plain : Unmarked s.toList) :
    unescape (escapeIn .netName s) = s ↔ ¬HidesSlash s.toList := by
  rw [← String.toList_inj, unescape, escapeIn, String.toList_ofList, String.toList_ofList]
  exact unescapeChars_escapeChars_iff plain

/-- A name in which a slash is taken for the start of a subscript. -/
def subscriptName : String := "A_/B"

theorem not_all_names_read_back : ¬∀ s : String, Unmarked s.toList → unescape (escapeIn .netName s) = s := by
  intro all
  have same := all subscriptName (by decide)
  rw [← String.toList_inj, unescape, escapeIn, String.toList_ofList, String.toList_ofList] at same
  exact absurd (by decide) ((unescapeChars_escapeChars_iff (by decide)).1 same)

/-- A name with slashes at both ends, doubled, before sigils and after other characters. -/
def slashedName : String := "/A//$B/_^C/"

theorem slashedName_read_back : Unmarked slashedName.toList ∧ ¬HidesSlash slashedName.toList ∧
    escapeIn .netName slashedName = "\x7bslash\x7dA\x7bslash\x7d\x7bslash\x7d$B\x7bslash\x7d_^C\x7bslash\x7d" ∧
    unescape (escapeIn .netName slashedName) = slashedName := by
  have plain : Unmarked slashedName.toList := by decide
  have apart : ¬HidesSlash slashedName.toList := by decide
  exact ⟨plain, apart, by decide, (unescape_escape_iff slashedName plain).2 apart⟩

end Redraft.Name
