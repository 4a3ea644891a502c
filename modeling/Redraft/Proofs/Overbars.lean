import Redraft.Name.Overbar

/-!
# Texts with overbars

A text is written mark by mark: a toggle, a doubled tilde, a tilde before a
brace, or a character. What a mark becomes depends on whether an overbar runs
before it and on nothing else, so a text can be cut between any two marks.
-/

namespace Redraft.Name

/-! ## Marks -/

/-- A tilde before the rest of a text is a toggle. -/
def Toggles (rest : List Char) : Prop := rest.head? ≠ some '~' ∧ rest.head? ≠ some '{'

/-- What is written where an overbar ends, if one runs. -/
def closing (running : Bool) : List Char := if running then ['}'] else []

/-- An overbar runs at the end of a text. -/
def overbarRuns : Bool → List Char → Bool
  | running, [] => running
  | running, '~' :: '~' :: cs => overbarRuns running cs
  | running, '~' :: '{' :: cs => overbarRuns running cs
  | running, '~' :: cs => overbarRuns (!running) cs
  | running, c :: cs => overbarRuns (running && !endsOverbar c) cs

theorem toggles_nil : Toggles [] := by
  simp [Toggles]

theorem toggles_cons {c : Char} {rest : List Char} : Toggles (c :: rest) ↔ c ≠ '~' ∧ c ≠ '{' := by
  simp [Toggles]

theorem mark_cases (cs : List Char) : cs = [] ∨ (∃ rest, cs = '~' :: '~' :: rest) ∨ (∃ rest, cs = '~' :: '{' :: rest) ∨
    (∃ rest, cs = '~' :: rest ∧ Toggles rest) ∨ ∃ c rest, cs = c :: rest ∧ c ≠ '~' := by
  match cs with
  | [] => exact .inl rfl
  | c :: rest =>
    right
    by_cases tilde : c = '~'
    · subst tilde
      cases rest with
      | nil => exact .inr (.inr (.inl ⟨[], rfl, toggles_nil⟩))
      | cons d rest =>
        by_cases doubled : d = '~'
        · exact .inl ⟨rest, by rw [doubled]⟩
        by_cases brace : d = '{'
        · exact .inr (.inl ⟨rest, by rw [brace]⟩)
        exact .inr (.inr (.inl ⟨_, rfl, toggles_cons.2 ⟨doubled, brace⟩⟩))
    · exact .inr (.inr (.inr ⟨c, rest, rfl, tilde⟩))

/-- What holds of the empty text and is kept by each mark in front holds of every text. -/
@[elab_as_elim]
theorem marks_induction {motive : List Char → Prop} (nil : motive [])
    (doubled : ∀ rest, motive rest → motive ('~' :: '~' :: rest))
    (brace : ∀ rest, motive rest → motive ('~' :: '{' :: rest))
    (toggle : ∀ rest, Toggles rest → motive rest → motive ('~' :: rest))
    (char : ∀ c rest, c ≠ '~' → motive rest → motive (c :: rest)) (cs : List Char) : motive cs := by
  induction length : cs.length using Nat.strongRecOn generalizing cs with
  | ind n ih =>
    subst length
    obtain rfl | ⟨rest, rfl⟩ | ⟨rest, rfl⟩ | ⟨rest, rfl, toggles⟩ | ⟨c, rest, rfl, plain⟩ := mark_cases cs
    · exact nil
    · exact doubled rest (ih rest.length (Nat.lt_add_of_pos_right Nat.two_pos) rest rfl)
    · exact brace rest (ih rest.length (Nat.lt_add_of_pos_right Nat.two_pos) rest rfl)
    · exact toggle rest toggles (ih rest.length (Nat.lt_succ_self _) rest rfl)
    · exact char c rest plain (ih rest.length (Nat.lt_succ_self _) rest rfl)

section Writing
variable {c : Char} {cs rest : List Char}

theorem overbarFrom_toggle (running : Bool) (toggles : Toggles rest) :
    overbarFrom running ('~' :: rest) = (if running then ['}'] else ['~', '{']) ++ overbarFrom (!running) rest := by
  match rest with
  | [] => rfl
  | d :: rest =>
    obtain ⟨tilde, brace⟩ := toggles_cons.1 toggles
    rw [overbarFrom]
    · exact fun _ same => tilde (List.cons.inj same).1
    · exact fun _ same => brace (List.cons.inj same).1

theorem overbarFrom_char (running : Bool) (plain : c ≠ '~') (rest : List Char) :
    overbarFrom running (c :: rest) =
      closing (running && endsOverbar c) ++ c :: overbarFrom (running && !endsOverbar c) rest := by
  rw [overbarFrom]
  · cases running <;> cases endsOverbar c <;> rfl
  · exact fun _ same _ => plain same
  · exact fun _ same _ => plain same
  · exact fun same => plain same

theorem overbarRuns_toggle (running : Bool) (toggles : Toggles rest) :
    overbarRuns running ('~' :: rest) = overbarRuns (!running) rest := by
  match rest with
  | [] => rfl
  | d :: rest =>
    obtain ⟨tilde, brace⟩ := toggles_cons.1 toggles
    rw [overbarRuns]
    · exact fun _ same => tilde (List.cons.inj same).1
    · exact fun _ same => brace (List.cons.inj same).1

theorem overbarRuns_char (running : Bool) (plain : c ≠ '~') (rest : List Char) :
    overbarRuns running (c :: rest) = overbarRuns (running && !endsOverbar c) rest := by
  rw [overbarRuns]
  · exact fun _ same _ => plain same
  · exact fun _ same _ => plain same
  · exact fun same => plain same

/-- Writing drops no character but tildes, and adds none but tildes and braces. -/
theorem mem_overbarFrom (tilde : c ≠ '~') (opens : c ≠ '{') (closes : c ≠ '}') (running : Bool) (cs : List Char) :
    c ∈ overbarFrom running cs ↔ c ∈ cs := by
  induction cs using marks_induction generalizing running with
  | nil => cases running <;> simp [overbarFrom, closes]
  | doubled rest ih => simp [overbarFrom, ih, tilde]
  | brace rest ih => simp [overbarFrom, ih, tilde, opens]
  | toggle rest toggles ih => cases running <;> simp [overbarFrom_toggle _ toggles, ih, tilde, opens, closes]
  | char d rest plain ih =>
    rw [overbarFrom_char _ plain, closing]
    split <;> simp [ih, closes]

/-- A text before a character that is no part of a mark is written by itself; only the end of a
    running overbar is left to what follows. -/
theorem overbarFrom_append_char (running : Bool) (cs : List Char) :
    ∃ body, overbarFrom running cs = body ++ closing (overbarRuns running cs) ∧
      ∀ c rest, c ≠ '~' → c ≠ '{' →
        overbarFrom running (cs ++ c :: rest) = body ++ overbarFrom (overbarRuns running cs) (c :: rest) := by
  induction cs using marks_induction generalizing running with
  | nil => exact ⟨[], by cases running <;> rfl, fun c rest _ _ => rfl⟩
  | doubled cs ih =>
    obtain ⟨body, whole, before⟩ := ih running
    refine ⟨'~' :: body, congrArg ('~' :: ·) whole, fun c rest tilde brace => ?_⟩
    exact congrArg ('~' :: ·) (before c rest tilde brace)
  | brace cs ih =>
    obtain ⟨body, whole, before⟩ := ih running
    refine ⟨'~' :: '{' :: body, congrArg ('~' :: '{' :: ·) whole, fun c rest tilde brace => ?_⟩
    exact congrArg ('~' :: '{' :: ·) (before c rest tilde brace)
  | toggle cs toggles ih =>
    obtain ⟨body, whole, before⟩ := ih (!running)
    refine ⟨(if running then ['}'] else ['~', '{']) ++ body, ?_, fun c rest tilde brace => ?_⟩
    · rw [overbarFrom_toggle _ toggles, overbarRuns_toggle _ toggles, whole, List.append_assoc]
    · -- a tilde at the end of the text stays a toggle, as no mark goes over the cut
      have toggles' : Toggles (cs ++ c :: rest) := by
        cases cs with
        | nil => exact toggles_cons.2 ⟨tilde, brace⟩
        | cons d cs => exact toggles_cons.2 (toggles_cons.1 toggles)
      rw [List.cons_append, overbarFrom_toggle _ toggles', overbarRuns_toggle _ toggles,
        before c rest tilde brace, List.append_assoc]
  | char d cs plain ih =>
    obtain ⟨body, whole, before⟩ := ih (running && !endsOverbar d)
    refine ⟨closing (running && endsOverbar d) ++ d :: body, ?_, fun c rest tilde brace => ?_⟩
    · rw [overbarFrom_char _ plain, overbarRuns_char _ plain, whole, List.append_assoc, List.cons_append]
    · rw [List.cons_append, overbarFrom_char _ plain, overbarRuns_char _ plain, before c rest tilde brace,
        List.append_assoc, List.cons_append]

end Writing

/-! ## Labels -/

section Labels
variable {c : Char} {cs : List Char}

theorem overbarChars_of_ne (more : cs ≠ ['~']) : overbarChars cs = overbarFrom false cs := if_neg more

theorem toggle_of_ne (plain : toggle c ≠ '~') : toggle c = c ∧ c ≠ '~' := by
  unfold toggle at plain ⊢
  split
  · rename_i mark
    rw [if_pos mark] at plain
    exact absurd rfl plain
  · rename_i other
    rw [if_neg other] at plain
    exact ⟨rfl, plain⟩

theorem mem_map_toggle (mark : c ≠ '!') (tilde : c ≠ '~') : c ∈ cs.map toggle ↔ c ∈ cs := by
  rw [List.mem_map]
  constructor
  · rintro ⟨d, member, same⟩
    have plain : toggle d ≠ '~' := same ▸ tilde
    rw [← same, (toggle_of_ne plain).1]
    exact member
  · intro member
    exact ⟨c, member, if_neg mark⟩

theorem mem_overbarChars (tilde : c ≠ '~') (opens : c ≠ '{') (closes : c ≠ '}') : c ∈ overbarChars cs ↔ c ∈ cs := by
  unfold overbarChars
  split
  · rfl
  · exact mem_overbarFrom tilde opens closes false cs

end Labels

/-! ## Texts in which no overbar starts -/

/-- Texts of whole marks, none of them a toggle. -/
inductive Settled : List Char → Prop
  | nil : Settled []
  | doubled {cs : List Char} (rest : Settled cs) : Settled ('~' :: '~' :: cs)
  | brace {cs : List Char} (rest : Settled cs) : Settled ('~' :: '{' :: cs)
  | char {c : Char} {cs : List Char} (plain : c ≠ '~') (rest : Settled cs) : Settled (c :: cs)

namespace Settled
variable {cs rest : List Char}

theorem append (settled : Settled cs) (more : Settled rest) : Settled (cs ++ rest) := by
  induction settled with
  | nil => exact more
  | doubled _ ih => exact .doubled ih
  | brace _ ih => exact .brace ih
  | char plain _ ih => exact .char plain ih

theorem ne_tilde (settled : Settled cs) : cs ≠ ['~'] := by
  rintro rfl
  cases settled with
  | char plain _ => exact plain rfl

/-- A settled text is written by itself, in a running overbar as long as it does not end it. -/
theorem overbarFrom_append (settled : Settled cs) {running : Bool}
    (within : running → ∀ c ∈ cs, endsOverbar c = false) (rest : List Char) :
    overbarFrom running (cs ++ rest) = overbarFrom false cs ++ overbarFrom running rest := by
  induction settled with
  | nil => rfl
  | doubled _ ih =>
    have here := ih fun isRunning => by simpa [endsOverbar] using within isRunning
    exact congrArg ('~' :: ·) here
  | brace _ ih =>
    have here := ih fun isRunning => by simpa [endsOverbar] using within isRunning
    exact congrArg ('~' :: '{' :: ·) here
  | @char c cs plain _ ih =>
    have here := ih fun isRunning => (List.forall_mem_cons.1 (within isRunning)).2
    have open' : (running && endsOverbar c) = false := by
      cases running with
      | false => rfl
      | true => exact (List.forall_mem_cons.1 (within rfl)).1
    have still : (running && !endsOverbar c) = running := by
      revert open'
      cases running <;> cases endsOverbar c <;> simp
    rw [List.cons_append, overbarFrom_char _ plain, overbarFrom_char _ plain, open', still, here]
    rfl

theorem overbarFrom_false_append (settled : Settled cs) (rest : List Char) :
    overbarFrom false (cs ++ rest) = overbarFrom false cs ++ overbarFrom false rest :=
  settled.overbarFrom_append (fun isRunning => absurd isRunning Bool.false_ne_true) rest

end Settled

end Redraft.Name
