import Mathlib.Data.List.Infix
import Redraft.Proofs.Overbars

/-!
# Braces in texts with overbars

A running overbar is one brace more that is open. So a name and its written
form are equally deep in braces wherever no overbar runs, and one apart where
one does: writing neither unbalances the braces of a name nor closes one that
is not open.
-/

namespace Redraft.Name

/-! ## Depth -/

/-- How much deeper in braces a text is after a character. -/
def braceStep (c : Char) : Int := if c = '{' then 1 else if c = '}' then -1 else 0

/-- How many more braces a text opens than it closes. -/
def surplus (cs : List Char) : Int := cs.count '{' - cs.count '}'

/-- A text that is some braces deep at its start closes none that is not open. -/
def ClosesWithin (depth : Int) (cs : List Char) : Prop := ∀ start, start <+: cs → 0 ≤ depth + surplus start

/-- No beginning of the text closes more braces than it opens. -/
def ClosesOnlyOpen (cs : List Char) : Prop := ∀ start, start <+: cs → 0 ≤ surplus start

instance (cs : List Char) : Decidable (ClosesOnlyOpen cs) :=
  decidable_of_iff (∀ start ∈ cs.inits, 0 ≤ surplus start) (by simp only [ClosesOnlyOpen, List.mem_inits])

section
variable {depth : Int} {c : Char} {cs : List Char}

@[simp] theorem braceStep_tilde : braceStep '~' = 0 := rfl
@[simp] theorem braceStep_open : braceStep '{' = 1 := rfl
@[simp] theorem braceStep_close : braceStep '}' = -1 := rfl

@[simp] theorem surplus_nil : surplus [] = 0 := rfl

@[simp] theorem surplus_cons : surplus (c :: cs) = braceStep c + surplus cs := by
  simp only [surplus, braceStep, List.count_cons, beq_iff_eq]
  by_cases opens : c = '{'
  · subst opens
    simp only [if_true, if_neg (by decide : '{' ≠ '}')]
    omega
  · simp only [if_neg opens]
    split <;> omega

@[simp] theorem closesWithin_nil : ClosesWithin depth [] ↔ 0 ≤ depth := by
  simp [ClosesWithin]

@[simp] theorem closesWithin_cons :
    ClosesWithin depth (c :: cs) ↔ 0 ≤ depth ∧ ClosesWithin (depth + braceStep c) cs := by
  simp only [ClosesWithin, List.prefix_cons_iff]
  constructor
  · intro within
    refine ⟨by simpa using within [] (.inl rfl), fun start isStart => ?_⟩
    simpa [Int.add_assoc] using within (c :: start) (.inr ⟨start, rfl, isStart⟩)
  · rintro ⟨here, within⟩ start (rfl | ⟨start, rfl, isStart⟩)
    · simpa using here
    · simpa [Int.add_assoc] using within start isStart

theorem closesWithin_zero : ClosesWithin 0 cs ↔ ClosesOnlyOpen cs := by
  simp only [ClosesWithin, ClosesOnlyOpen, Int.zero_add]

/-! ## Writing -/

theorem surplus_append (cs rest : List Char) : surplus (cs ++ rest) = surplus cs + surplus rest := by
  simp only [surplus, List.count_append]
  omega

theorem surplus_closing (running : Bool) : surplus (closing running) = -running.toNat := by
  cases running <;> rfl

/-- What is written closes the overbar that runs at its start, and beyond that as much as it opens. -/
theorem surplus_overbarFrom (running : Bool) (cs : List Char) :
    surplus (overbarFrom running cs) = surplus cs - running.toNat := by
  induction cs using marks_induction generalizing running with
  | nil => cases running <;> rfl
  | doubled rest ih => simp [overbarFrom, ih]
  | brace rest ih =>
    simp only [overbarFrom, surplus_cons, ih]
    omega
  | toggle rest toggles ih =>
    have toggled : surplus (if running then ['}'] else ['~', '{']) = (!running).toNat - running.toNat := by
      cases running <;> rfl
    rw [overbarFrom_toggle _ toggles, surplus_append, toggled, surplus_cons, braceStep_tilde, ih]
    omega
  | char c rest plain ih =>
    have kept : (running && endsOverbar c).toNat + (running && !endsOverbar c).toNat = running.toNat := by
      cases running <;> cases endsOverbar c <;> rfl
    rw [overbarFrom_char _ plain, surplus_append, surplus_closing, surplus_cons, surplus_cons, ih]
    omega

/-- An overbar that runs is one brace more to close. -/
theorem ClosesWithin.overbarFrom (within : ClosesWithin depth cs) (running : Bool) :
    ClosesWithin (depth + running.toNat) (overbarFrom running cs) := by
  induction cs using marks_induction generalizing running depth with
  | nil =>
    have here := closesWithin_nil.1 within
    cases running with
    | false => simpa [Name.overbarFrom] using here
    | true =>
      have closed : 0 ≤ depth + 1 ∧ 0 ≤ depth + 1 + -1 := by omega
      simpa [Name.overbarFrom] using closed
  | doubled rest ih =>
    simp only [closesWithin_cons, braceStep_tilde, Int.add_zero] at within
    obtain ⟨here, _, inside⟩ := within
    simp only [Name.overbarFrom, closesWithin_cons, braceStep_tilde, Int.add_zero]
    exact ⟨by omega, ih inside running⟩
  | brace rest ih =>
    simp only [closesWithin_cons, braceStep_tilde, braceStep_open, Int.add_zero] at within
    obtain ⟨here, _, inside⟩ := within
    have after := ih inside running
    rw [Int.add_right_comm] at after
    simp only [Name.overbarFrom, closesWithin_cons, braceStep_tilde, braceStep_open, Int.add_zero]
    exact ⟨by omega, by omega, after⟩
  | toggle rest toggles ih =>
    simp only [closesWithin_cons, braceStep_tilde, Int.add_zero] at within
    obtain ⟨here, inside⟩ := within
    have after := ih inside (!running)
    rw [overbarFrom_toggle _ toggles]
    cases running with
    | false => simpa [here] using after
    | true => simpa [Int.add_neg_cancel_right, Int.le_add_one here] using after
  | char c rest plain ih =>
    obtain ⟨here, inside⟩ := closesWithin_cons.1 within
    have after := ih inside (running && !endsOverbar c)
    rw [overbarFrom_char _ plain]
    cases running with
    | false => simpa [closing, here] using after
    | true =>
      cases ends : endsOverbar c with
      | false => simpa [closing, ends, Int.add_right_comm, Int.le_add_one here] using after
      | true => simpa [closing, ends, Int.add_neg_cancel_right, Int.le_add_one here, here] using after

/-- A lone tilde is written with no brace, as an overbar over nothing is. -/
theorem overbarChars_braces (cs : List Char) :
    surplus (overbarChars cs) = surplus cs ∧ (ClosesOnlyOpen cs → ClosesOnlyOpen (overbarChars cs)) := by
  unfold overbarChars
  split
  · exact ⟨rfl, id⟩
  · refine ⟨by simpa using surplus_overbarFrom false cs, fun closes => ?_⟩
    have within := (closesWithin_zero.2 closes).overbarFrom false
    exact closesWithin_zero.1 (by simpa using within)

theorem braceStep_toggle (c : Char) : braceStep (toggle c) = braceStep c := by
  unfold toggle
  split
  · rename_i isToggle
    rw [isToggle]
    rfl
  · rfl

theorem surplus_map_toggle (cs : List Char) : surplus (cs.map toggle) = surplus cs := by
  induction cs with
  | nil => rfl
  | cons c cs ih => rw [List.map_cons, surplus_cons, surplus_cons, braceStep_toggle, ih]

theorem closesOnlyOpen_map_toggle : ClosesOnlyOpen (cs.map toggle) ↔ ClosesOnlyOpen cs := by
  have within (depth : Int) : ClosesWithin depth (cs.map toggle) ↔ ClosesWithin depth cs := by
    induction cs generalizing depth with
    | nil => rfl
    | cons c cs ih => rw [List.map_cons, closesWithin_cons, closesWithin_cons, braceStep_toggle, ih]
  rw [← closesWithin_zero, ← closesWithin_zero, within]

end

/-- Writing the overbars of any text keeps the surplus of opening braces, and closes no brace that is not open unless
    the text does; so does writing a label. -/
theorem overbars_keep_braces (s : String) :
    (surplus (overbar s).toList = surplus s.toList ∧ surplus (label s).toList = surplus s.toList) ∧
    (ClosesOnlyOpen s.toList → ClosesOnlyOpen (overbar s).toList ∧ ClosesOnlyOpen (label s).toList) := by
  obtain ⟨even, within⟩ := overbarChars_braces s.toList
  obtain ⟨even', within'⟩ := overbarChars_braces (s.toList.map toggle)
  simp only [overbar, label, labelChars, String.toList_ofList]
  rw [surplus_map_toggle] at even'
  rw [closesOnlyOpen_map_toggle] at within'
  exact ⟨⟨even, even'⟩, fun closes => ⟨within closes, within' closes⟩⟩

/-- A text in whose label a toggle, a bracket, a brace and the end close an overbar, and one is open already. -/
def mixedName : String := "\x7b!A! ~C)~\x7bD\x7d!E\x7d!F"

theorem mixedName_keeps_braces : ClosesOnlyOpen mixedName.toList ∧
    label mixedName = "\x7b~\x7bA\x7d ~\x7bC\x7d)~\x7bD\x7d~\x7bE\x7d\x7d~\x7bF\x7d" ∧
    surplus (label mixedName).toList = surplus mixedName.toList ∧ ClosesOnlyOpen (label mixedName).toList := by
  have closes : ClosesOnlyOpen mixedName.toList := by decide
  obtain ⟨⟨_, even⟩, within⟩ := overbars_keep_braces mixedName
  exact ⟨closes, by decide, even, (within closes).2⟩

end Redraft.Name
