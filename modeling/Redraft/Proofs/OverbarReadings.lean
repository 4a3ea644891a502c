import Redraft.Proofs.Overbars

/-!
# What a text with overbars reads

A name and its written form are read character by character, each character
with or without an overbar over it. A name has toggles and ends of overbars,
the written form has openings and closings; both readings are the same.
-/

namespace Redraft.Name

/-! ## Readings -/

/-- The characters of a name, each with whether an overbar runs over it. -/
def readName : Bool → List Char → List (Char × Bool)
  | _, [] => []
  | lined, '~' :: '~' :: cs => ('~', lined) :: readName lined cs
  | lined, '~' :: cs => readName (!lined) cs
  | lined, c :: cs =>
    let lined := lined && c != ' ' && c != ')'
    (c, lined) :: readName lined cs

/-- The characters of a written form, each with whether it stands in an overbar. -/
def readWritten : Bool → List Char → List (Char × Bool)
  | _, [] => []
  | _, '~' :: '{' :: cs => readWritten true cs
  | _, '}' :: cs => readWritten false cs
  | lined, c :: cs => (c, lined) :: readWritten lined cs

section
variable {c : Char} {cs rest : List Char}

theorem readName_toggle (lined : Bool) (toggles : Toggles rest) : readName lined ('~' :: rest) = readName (!lined) rest := by
  match rest with
  | [] => rfl
  | d :: rest =>
    obtain ⟨tilde, _⟩ := toggles_cons.1 toggles
    rw [readName]
    intro _ same
    exact tilde (List.cons.inj same).1

theorem readName_char (lined : Bool) (plain : c ≠ '~') (rest : List Char) : readName lined (c :: rest) =
    (c, lined && c != ' ' && c != ')') :: readName (lined && c != ' ' && c != ')') rest := by
  rw [readName]
  · intro _ same _
    exact plain same
  · exact plain

theorem readWritten_char (lined : Bool) (closes : c ≠ '}') (opens : c ≠ '~' ∨ rest.head? ≠ some '{') :
    readWritten lined (c :: rest) = (c, lined) :: readWritten lined rest := by
  rw [readWritten]
  · intro cs tilde same
    rcases opens with plain | apart
    · exact plain tilde
    · exact apart (by rw [same]; rfl)
  · exact closes

/-- The text has no braces of its own. -/
def NoBraces (cs : List Char) : Prop := '{' ∉ cs ∧ '}' ∉ cs

theorem noBraces_cons : NoBraces (c :: cs) ↔ (c ≠ '{' ∧ c ≠ '}') ∧ NoBraces cs := by
  simp only [NoBraces, List.mem_cons, not_or]
  constructor
  · rintro ⟨⟨opens, noOpening⟩, closes, noClosing⟩
    exact ⟨⟨Ne.symm opens, Ne.symm closes⟩, noOpening, noClosing⟩
  · rintro ⟨⟨opens, closes⟩, noOpening, noClosing⟩
    exact ⟨⟨Ne.symm opens, noOpening⟩, Ne.symm closes, noClosing⟩

theorem endsOverbar_eq (closes : c ≠ '}') : (!endsOverbar c) = (c != ' ' && c != ')') := by
  have other : (c == '}') = false := beq_eq_false_iff_ne.2 closes
  simp [endsOverbar, bne, other]

/-- What is written of a text without braces starts with no brace that a tilde before it would take. -/
theorem head_overbarFrom (running : Bool) (cs : List Char) (plain : NoBraces cs) :
    (overbarFrom running cs).head? ≠ some '{' := by
  obtain rfl | ⟨rest, rfl⟩ | ⟨rest, rfl⟩ | ⟨rest, rfl, toggles⟩ | ⟨c, rest, rfl, noTilde⟩ := mark_cases cs
  · cases running <;> simp [overbarFrom]
  · simp [overbarFrom]
  · simp [overbarFrom]
  · rw [overbarFrom_toggle _ toggles]
    cases running <;> simp
  · rw [overbarFrom_char _ noTilde, closing]
    have opens := (noBraces_cons.1 plain).1.1
    split <;> simp [opens]

/-- From the same start, a text reads the same before and after it is written. -/
theorem readWritten_overbarFrom (running : Bool) (cs : List Char) (plain : NoBraces cs) :
    readWritten running (overbarFrom running cs) = readName running cs := by
  induction cs using marks_induction generalizing running with
  | nil => cases running <;> rfl
  | doubled rest ih =>
    have plain := (noBraces_cons.1 (noBraces_cons.1 plain).2).2
    show readWritten running ('~' :: overbarFrom running rest) = ('~', running) :: readName running rest
    rw [readWritten_char running (by decide) (.inr (head_overbarFrom running rest plain)), ih running plain]
  | brace rest ih => exact absurd (noBraces_cons.1 (noBraces_cons.1 plain).2).1.1 (by decide)
  | toggle rest toggles ih =>
    have plain := (noBraces_cons.1 plain).2
    rw [overbarFrom_toggle _ toggles, readName_toggle _ toggles]
    cases running with
    | true => exact ih false plain
    | false => exact ih true plain
  | char c rest noTilde ih =>
    obtain ⟨⟨_, closes⟩, plain⟩ := noBraces_cons.1 plain
    rw [overbarFrom_char _ noTilde, readName_char _ noTilde, Bool.and_assoc, ← endsOverbar_eq closes]
    cases running with
    | false =>
      show readWritten false (c :: overbarFrom false rest) = (c, false) :: readName false rest
      rw [readWritten_char false closes (.inl noTilde), ih false plain]
    | true =>
      rw [Bool.true_and, Bool.true_and]
      cases endsOverbar c with
      | true =>
        show readWritten false (c :: overbarFrom false rest) = (c, false) :: readName false rest
        rw [readWritten_char false closes (.inl noTilde), ih false plain]
      | false =>
        show readWritten true (c :: overbarFrom true rest) = (c, true) :: readName true rest
        rw [readWritten_char true closes (.inl noTilde), ih true plain]

/-! ## Closed overbars -/

/-- The overbar that runs at the start of a written form is closed, before any other is opened or closed. -/
def Closes (cs : List Char) : Prop := ∃ body after, cs = body ++ '}' :: after ∧ NoBraces body

/-- Every overbar that is opened in a written form is closed in it. -/
def ClosesAll (cs : List Char) : Prop := ∀ before rest, cs = before ++ '~' :: '{' :: rest → Closes rest

theorem Closes.here (cs : List Char) : Closes ('}' :: cs) := by
  refine ⟨[], cs, rfl, ?_⟩
  simp [NoBraces]

theorem Closes.cons (braces : c ≠ '{' ∧ c ≠ '}') (closes : Closes cs) : Closes (c :: cs) := by
  obtain ⟨body, after, rfl, plain⟩ := closes
  exact ⟨c :: body, after, rfl, noBraces_cons.2 ⟨braces, plain⟩⟩

theorem ClosesAll.nil : ClosesAll [] := by
  intro before rest same
  simp at same

theorem ClosesAll.cons (opens : c ≠ '~' ∨ cs.head? ≠ some '{') (closed : ClosesAll cs) : ClosesAll (c :: cs) := by
  intro before rest same
  cases before with
  | nil =>
    obtain ⟨rfl, rfl⟩ := List.cons.inj same
    simp at opens
  | cons d before => exact closed before rest (List.cons.inj same).2

theorem ClosesAll.open (closes : Closes cs) (closed : ClosesAll cs) : ClosesAll ('~' :: '{' :: cs) := by
  intro before rest same
  match before with
  | [] =>
    obtain rfl : cs = rest := by simpa using same
    exact closes
  | [d] => simp at same
  | d :: e :: before => exact closed before rest (List.cons.inj (List.cons.inj same).2).2

theorem closes_overbarFrom (cs : List Char) (plain : NoBraces cs) : Closes (overbarFrom true cs) := by
  induction cs using marks_induction with
  | nil => exact Closes.here []
  | doubled rest ih => exact (ih (noBraces_cons.1 (noBraces_cons.1 plain).2).2).cons (by decide)
  | brace rest ih => exact absurd (noBraces_cons.1 (noBraces_cons.1 plain).2).1.1 (by decide)
  | toggle rest toggles ih =>
    rw [overbarFrom_toggle _ toggles]
    exact Closes.here _
  | char c rest noTilde ih =>
    obtain ⟨braces, plain⟩ := noBraces_cons.1 plain
    rw [overbarFrom_char _ noTilde]
    cases endsOverbar c with
    | true => exact Closes.here _
    | false => exact (ih plain).cons braces

theorem closesAll_overbarFrom (running : Bool) (cs : List Char) (plain : NoBraces cs) :
    ClosesAll (overbarFrom running cs) := by
  induction cs using marks_induction generalizing running with
  | nil =>
    cases running with
    | false => exact ClosesAll.nil
    | true => exact ClosesAll.nil.cons (.inl (by decide))
  | doubled rest ih =>
    have plain := (noBraces_cons.1 (noBraces_cons.1 plain).2).2
    exact (ih running plain).cons (.inr (head_overbarFrom running rest plain))
  | brace rest ih => exact absurd (noBraces_cons.1 (noBraces_cons.1 plain).2).1.1 (by decide)
  | toggle rest toggles ih =>
    have plain := (noBraces_cons.1 plain).2
    rw [overbarFrom_toggle _ toggles]
    cases running with
    | true => exact (ih false plain).cons (.inl (by decide))
    | false => exact (ih true plain).open (closes_overbarFrom rest plain)
  | char c rest noTilde ih =>
    have plain := (noBraces_cons.1 plain).2
    rw [overbarFrom_char _ noTilde, closing]
    have after := (ih (running && !endsOverbar c) plain).cons (.inl noTilde)
    split
    · exact after.cons (.inl (by decide))
    · exact after

end

/-- The written form of a text without braces, other than a lone tilde, reads as the text does, and closes every
    overbar that it opens. -/
theorem overbar_reads (s : String) (lone : s ≠ "~") (opens : '{' ∉ s.toList) (closes : '}' ∉ s.toList) :
    readWritten false (overbar s).toList = readName false s.toList ∧ ClosesAll (overbar s).toList := by
  have written : (overbar s).toList = overbarFrom false s.toList := by
    rw [overbar, String.toList_ofList, overbarChars, if_neg]
    intro same
    exact lone (String.toList_inj.1 same)
  rw [written]
  exact ⟨readWritten_overbarFrom false _ ⟨opens, closes⟩, closesAll_overbarFrom false _ ⟨opens, closes⟩⟩

/-- A literal tilde before a toggle, an overbar that a space ends, and one that is opened at the end. -/
theorem tildes_read : "~~~A B~" ≠ "~" ∧ '{' ∉ "~~~A B~".toList ∧ '}' ∉ "~~~A B~".toList ∧
    overbar "~~~A B~" = "~~\x7bA\x7d B~\x7b\x7d" ∧
    readWritten false (overbar "~~~A B~").toList = [('~', false), ('A', true), (' ', false), ('B', false)] ∧
    ClosesAll (overbar "~~~A B~").toList := by
  have lone : "~~~A B~" ≠ "~" := by decide
  have opens : '{' ∉ "~~~A B~".toList := by decide
  have closes : '}' ∉ "~~~A B~".toList := by decide
  obtain ⟨reads, closed⟩ := overbar_reads "~~~A B~" lone opens closes
  exact ⟨lone, opens, closes, by decide, reads, closed⟩

end Redraft.Name
