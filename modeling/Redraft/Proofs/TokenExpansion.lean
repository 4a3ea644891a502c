import Redraft.Proofs.BraceDepth
import Redraft.Proofs.SlashTokens

/-!
# Expanding tokens

A text is read with a cursor, and the inside of an unknown token by a call of
its own. Every turn moves the cursor of a call or ends the call, so the reading
of any text comes to an end, whether its braces are closed or not. A brace that
is closed in a text is closed there whatever follows: a text with nested braces
is read the same before any other, unless it ends in a sigil and a brace follows.
-/

namespace Redraft.Name

section
variable {c : Char} {cs more : List Char}

/-! ## What is read at a character -/

theorem unescapeChars_variable (marked : (isSigil c && cs.head? == some '{') = true) :
    unescapeChars (c :: cs) = c :: (splitThrough cs).1 ++ unescapeChars (splitThrough cs).2 := by
  rw [unescapeChars, if_pos marked]

/-- What is read for a token: its meaning, or the braces and what is read between them. -/
def readToken (token : List Char) : List Char :=
  match tokens.lookup token with
  | some meaning => [meaning]
  | none => '{' :: unescapeChars token ++ ['}']

theorem unescapeChars_token (cs : List Char) :
    unescapeChars ('{' :: cs) = readToken (splitClosing 0 cs).1 ++ unescapeChars (splitClosing 0 cs).2 := by
  have plain : (isSigil '{' && cs.head? == some '{') = false := rfl
  rw [unescapeChars, plain, if_neg Bool.false_ne_true, if_pos rfl]
  rfl

theorem unescapeChars_plain (unmarked : ¬(isSigil c && cs.head? == some '{') = true) (other : c ≠ '{') :
    unescapeChars (c :: cs) = c :: unescapeChars cs := by
  rw [unescapeChars, if_neg unmarked, if_neg other]

/-! ## Reading in turns -/

/-- A call of the reader: what it has read, and the text from its cursor on. -/
structure Call where
  done : List Char
  rest : List Char

/-- A reading on its way: the call at work, and those that wait for it, the latest first. -/
structure Reading where
  call : Call
  waiting : List Call

namespace Reading

/-- The reading of a text before its first turn. -/
def start (cs : List Char) : Reading := ⟨⟨[], cs⟩, []⟩

/-- The reading after the call at work has read what is at its cursor. -/
def advance (done : List Char) (c : Char) (cs : List Char) (waiting : List Call) : Reading :=
  if isSigil c && cs.head? == some '{' then ⟨⟨done ++ c :: (splitThrough cs).1, (splitThrough cs).2⟩, waiting⟩
  else if c = '{' then
    match tokens.lookup (splitClosing 0 cs).1 with
    | some meaning => ⟨⟨done ++ [meaning], (splitClosing 0 cs).2⟩, waiting⟩
    | none => ⟨⟨[], (splitClosing 0 cs).1⟩, ⟨done, (splitClosing 0 cs).2⟩ :: waiting⟩
  else ⟨⟨done ++ [c], cs⟩, waiting⟩

/-- The reading after one more turn: the call at work goes on, or it has come to the end of its text and
    hands what it has read to the call that waits for it. -/
def next? : Reading → Option Reading
  | ⟨⟨done, c :: cs⟩, waiting⟩ => some (advance done c cs waiting)
  | ⟨⟨done, []⟩, caller :: waiting⟩ => some ⟨⟨caller.done ++ '{' :: done ++ ['}'], caller.rest⟩, waiting⟩
  | ⟨⟨_, []⟩, []⟩ => none

/-- The reading is over after some turns, and has read a text. -/
inductive Ends : Reading → Nat → List Char → Prop
  | over {r : Reading} (last : r.next? = none) : Ends r 0 r.call.done
  | turn {r r' : Reading} {n : Nat} {out : List Char} (next : r.next? = some r') (ends : Ends r' n out) :
      Ends r (n + 1) out

/-- What will be read once all calls have come to their ends. -/
def outcome (r : Reading) : List Char :=
  r.waiting.foldl (fun inner caller => caller.done ++ '{' :: inner ++ '}' :: unescapeChars caller.rest)
    (r.call.done ++ unescapeChars r.call.rest)

/-- A number that falls with every turn: a call costs one turn, and is made after a brace, which counts twice. -/
def effort (r : Reading) : Nat :=
  2 * (r.call.rest ++ r.waiting.flatMap (·.rest)).length + r.waiting.length

theorem length_splitClosing_add_le (depth : Nat) (cs : List Char) :
    (splitClosing depth cs).1.length + (splitClosing depth cs).2.length ≤ cs.length := by
  induction cs generalizing depth with
  | nil => simp [splitClosing]
  | cons c cs ih =>
    unfold splitClosing
    split
    · simp
    · have := ih (if c = '{' then depth + 1 else if c = '}' then depth - 1 else depth)
      simp only [List.length_cons]
      omega

theorem advance_outcome (done : List Char) (c : Char) (cs : List Char) (waiting : List Call) :
    (advance done c cs waiting).outcome = outcome ⟨⟨done, c :: cs⟩, waiting⟩ := by
  unfold advance outcome
  by_cases marked : (isSigil c && cs.head? == some '{') = true
  · simp [marked, unescapeChars_variable marked]
  · rw [if_neg marked]
    by_cases opens : c = '{'
    · subst opens
      rw [if_pos rfl, unescapeChars_token, readToken]
      cases tokens.lookup (splitClosing 0 cs).1 with
      | some meaning => simp
      | none => simp
    · simp [opens, unescapeChars_plain marked opens]

theorem advance_effort (done : List Char) (c : Char) (cs : List Char) (waiting : List Call) :
    (advance done c cs waiting).effort < effort ⟨⟨done, c :: cs⟩, waiting⟩ := by
  unfold advance effort
  split
  · have := length_splitThrough_le cs
    simp only [List.length_append, List.length_cons]
    omega
  · split
    · have := length_splitClosing_add_le 0 cs
      split
      · simp only [List.length_append, List.length_cons]
        omega
      · simp only [List.flatMap_cons, List.length_append, List.length_cons]
        omega
    · simp only [List.length_append, List.length_cons]
      omega

/-- A turn leaves less to do, and the outcome as it is. -/
theorem next?_lowers {r r' : Reading} (next : r.next? = some r') : r'.outcome = r.outcome ∧ r'.effort < r.effort := by
  obtain ⟨⟨done, rest⟩, waiting⟩ := r
  cases rest with
  | cons c cs =>
    obtain rfl := Option.some.inj next
    exact ⟨advance_outcome done c cs waiting, advance_effort done c cs waiting⟩
  | nil =>
    cases waiting with
    | nil => cases next
    | cons caller waiting =>
      obtain rfl := Option.some.inj next
      constructor
      · simp [outcome, unescapeChars]
      · simp [effort]

theorem outcome_of_over {r : Reading} (last : r.next? = none) : r.outcome = r.call.done := by
  obtain ⟨⟨done, rest⟩, waiting⟩ := r
  cases rest with
  | cons c cs => cases last
  | nil =>
    cases waiting with
    | cons caller waiting => cases last
    | nil => simp [outcome, unescapeChars]

/-- Every reading is over after as many turns as its effort allows, and has then read its outcome. -/
theorem ends_outcome (r : Reading) : ∃ n ≤ r.effort, r.Ends n r.outcome := by
  induction left : r.effort using Nat.strong_induction_on generalizing r with
  | _ left' ih =>
    subst left
    cases next : r.next? with
    | none =>
      rw [outcome_of_over next]
      exact ⟨0, Nat.zero_le _, .over next⟩
    | some r' =>
      obtain ⟨same, less⟩ := next?_lowers next
      obtain ⟨n, within, ends⟩ := ih r'.effort less r' rfl
      rw [same] at ends
      exact ⟨n + 1, by omega, .turn next ends⟩

end Reading

/-! ## Braces closed in the text -/

/-- No end of the text opens more braces than it closes: each brace that is opened is closed in the text. -/
def LeavesNoneOpen (cs : List Char) : Prop := ∀ rest, rest <:+ cs → surplus rest ≤ 0

theorem LeavesNoneOpen.suffix {rest : List Char} (closed : LeavesNoneOpen cs) (isEnd : rest <:+ cs) :
    LeavesNoneOpen rest := by
  intro last isLast
  exact closed last (isLast.trans isEnd)

theorem LeavesNoneOpen.here (closed : LeavesNoneOpen cs) : surplus cs ≤ 0 := closed cs List.suffix_rfl

theorem splitThrough_suffix (cs : List Char) : (splitThrough cs).2 <:+ cs := by
  induction cs with
  | nil => exact List.suffix_rfl
  | cons c cs ih =>
    unfold splitThrough
    split
    · exact List.suffix_cons c cs
    · exact ih.trans (List.suffix_cons c cs)

theorem splitClosing_suffix (depth : Nat) (cs : List Char) : (splitClosing depth cs).2 <:+ cs := by
  induction cs generalizing depth with
  | nil => exact List.suffix_rfl
  | cons c cs ih =>
    unfold splitClosing
    split
    · exact List.suffix_cons c cs
    · exact (ih _).trans (List.suffix_cons c cs)

theorem splitThrough_append (closes : '}' ∈ cs) (more : List Char) :
    splitThrough (cs ++ more) = ((splitThrough cs).1, (splitThrough cs).2 ++ more) := by
  induction cs with
  | nil => cases closes
  | cons c cs ih =>
    rw [List.cons_append, splitThrough, splitThrough]
    by_cases here : c = '}'
    · simp [here]
    · have later : '}' ∈ cs := by simpa [Ne.symm here] using closes
      rw [if_neg here, if_neg here, ih later]

/-- Where a text closes more braces than are open, the brace that closes a token is in the text. -/
theorem splitClosing_append {depth : Nat} (closes : depth + surplus cs < 0) (more : List Char) :
    splitClosing depth (cs ++ more) = ((splitClosing depth cs).1, (splitClosing depth cs).2 ++ more) := by
  induction cs generalizing depth with
  | nil =>
    simp only [surplus_nil] at closes
    omega
  | cons c cs ih =>
    rw [List.cons_append, splitClosing, splitClosing]
    by_cases here : c = '}' ∧ depth = 0
    · simp [here]
    · have deeper : ((if c = '{' then depth + 1 else if c = '}' then depth - 1 else depth : Nat) : Int) =
          depth + braceStep c := by
        unfold braceStep
        grind
      rw [surplus_cons, ← Int.add_assoc, ← deeper] at closes
      rw [if_neg here, if_neg here]
      dsimp only
      rw [ih closes]

theorem mem_closing (opens : cs.head? = some '{') (closed : surplus cs ≤ 0) : '}' ∈ cs := by
  by_contra none
  have opened : 0 < cs.count '{' := List.count_pos_iff.2 (List.mem_of_head? opens)
  rw [surplus, List.count_eq_zero_of_not_mem none] at closed
  omega

/-- A sigil at the end of the first text marks a brace at the start of the second one. -/
def MarksAcross (cs more : List Char) : Prop := (∃ sigil ∈ ['$', '^', '_'], [sigil] <:+ cs) ∧ ['{'] <+: more

theorem MarksAcross.of_suffix {rest : List Char} (isEnd : rest <:+ cs) (marks : MarksAcross rest more) :
    MarksAcross cs more := by
  obtain ⟨⟨sigil, member, last⟩, opens⟩ := marks
  exact ⟨⟨sigil, member, last.trans isEnd⟩, opens⟩

theorem marksAcross_singleton : MarksAcross [c] more ↔ (isSigil c && more.head? == some '{') = true := by
  rw [Bool.and_eq_true, isSigil_iff, beq_iff_eq, List.head?_eq_some_iff, MarksAcross]
  apply and_congr
  · constructor
    · rintro ⟨sigil, member, last⟩
      rwa [← List.singleton_inj.1 (last.eq_of_length rfl)]
    · intro member
      exact ⟨c, member, List.suffix_rfl⟩
  · constructor
    · rintro ⟨rest, rfl⟩
      exact ⟨rest, rfl⟩
    · rintro ⟨rest, rfl⟩
      exact ⟨rest, rfl⟩

/-- A text that leaves no brace open is read the same before any other text, unless a sigil at its end marks a brace
    of the other. -/
theorem unescapeChars_append (closed : LeavesNoneOpen cs) (apart : ¬MarksAcross cs more) :
    unescapeChars (cs ++ more) = unescapeChars cs ++ unescapeChars more := by
  -- what is left of the text after a turn is an end of it, so both hypotheses hold there
  induction cs using unescapeChars.induct with
  | case1 => simp [unescapeChars]
  | case2 c cs marked ih =>
    obtain ⟨sigil, opens⟩ : isSigil c = true ∧ cs.head? = some '{' := by simpa using marked
    have closes : '}' ∈ cs := mem_closing opens (closed.suffix (List.suffix_cons c cs)).here
    have marked' : (isSigil c && (cs ++ more).head? == some '{') = true := by
      simp [sigil, List.head?_append, opens]
    have isEnd := (splitThrough_suffix cs).trans (List.suffix_cons c cs)
    have rest := ih (closed.suffix isEnd) (mt (.of_suffix isEnd) apart)
    rw [List.cons_append, unescapeChars_variable marked', splitThrough_append closes, rest,
      unescapeChars_variable marked, List.append_assoc]
  | case3 cs _ _ _ ih =>
    have closes : ((0 : Nat) : Int) + surplus cs < 0 := by
      have := closed.here
      simp only [surplus_cons, braceStep_open] at this
      omega
    have isEnd := (splitClosing_suffix 0 cs).trans (List.suffix_cons '{' cs)
    have rest := ih (closed.suffix isEnd) (mt (.of_suffix isEnd) apart)
    rw [List.cons_append, unescapeChars_token, splitClosing_append closes, rest, unescapeChars_token,
      List.append_assoc]
  | case4 c cs unmarked other ih =>
    have unmarked' : ¬(isSigil c && (cs ++ more).head? == some '{') = true := by
      cases cs with
      | cons d cs => exact unmarked
      | nil => exact mt marksAcross_singleton.2 apart
    have isEnd := List.suffix_cons c cs
    have rest := ih (closed.suffix isEnd) (mt (.of_suffix isEnd) apart)
    rw [List.cons_append, unescapeChars_plain unmarked' other, rest, unescapeChars_plain unmarked other,
      List.cons_append]

end

/-! ## Nested braces -/

/-- As many braces are opened as closed, and none is closed that is not open. -/
def Nested (cs : List Char) : Prop := surplus cs = 0 ∧ ClosesOnlyOpen cs

instance (cs : List Char) : Decidable (Nested cs) := instDecidableAnd

theorem Nested.leavesNoneOpen {cs : List Char} (nested : Nested cs) : LeavesNoneOpen cs := by
  rintro rest ⟨start, rfl⟩
  have before := nested.2 start (List.prefix_append start rest)
  have all := nested.1
  rw [surplus_append] at all
  omega

/-- The reading of every text is over after at most twice as many turns as the text has characters, and a text with
    nested braces is read the same before any other text, unless it ends in a sigil and the other starts with a
    brace. -/
theorem unescape_ends_in_parts :
    (∀ s : String, ∃ n ≤ 2 * s.length, (Reading.start s.toList).Ends n (unescape s).toList) ∧
    ∀ x y : String, Nested x.toList → ¬MarksAcross x.toList y.toList → unescape (x ++ y) = unescape x ++ unescape y := by
  constructor
  · intro s
    obtain ⟨n, within, ends⟩ := (Reading.start s.toList).ends_outcome
    rw [← String.length_toList]
    refine ⟨n, by simpa [Reading.effort, Reading.start] using within, ?_⟩
    simpa [Reading.outcome, Reading.start, unescape] using ends
  · intro x y nested unmarked
    rw [← String.toList_inj]
    simp only [unescape, String.toList_append, String.toList_ofList]
    exact unescapeChars_append nested.leavesNoneOpen unmarked

/-- A text with a variable, a token within an unknown one, and a sigil at its end. -/
def sigilName : String := "$\x7bA\x7bB\x7d\x7d\x7bC\x7bslash\x7d\x7d_"

/-- A text with braces that are not nested. -/
def looseName : String := "D\x7d\x7blt\x7d\x7bE"

theorem sigilName_reads_in_parts : Nested sigilName.toList ∧ ¬MarksAcross sigilName.toList looseName.toList ∧
    unescape sigilName = "$\x7bA\x7bB\x7d\x7d\x7bC/\x7d_" ∧ unescape looseName = "D\x7d<\x7bE\x7d" ∧
    unescape (sigilName ++ looseName) = unescape sigilName ++ unescape looseName := by
  have nested : Nested sigilName.toList := by decide
  have apart : ¬MarksAcross sigilName.toList looseName.toList := by simp [MarksAcross, looseName]
  exact ⟨nested, apart, by decide +kernel, by decide +kernel, unescape_ends_in_parts.2 _ _ nested apart⟩

end Redraft.Name
