import Redraft.Name.Bus
import Redraft.Proofs.Overbars

/-!
# Members of buses

A bus that lists its members is labelled by all of them in one text, where each
should be spelled as the label of its own net. A member with an odd number of
`!` gets one more, to end its overbar. Where that is not what it does, it is
read together with the toggle before it or opens another overbar, and the
member is spelled in another way.
-/

namespace Redraft.Name
open Redraft.Text

/-! ## Texts that end in a toggle -/

/-- The last mark of a text is a toggle. -/
def endsInToggle : List Char → Bool
  | [] => false
  | '~' :: '~' :: cs => endsInToggle cs
  | '~' :: '{' :: cs => endsInToggle cs
  | '~' :: cs => cs.isEmpty || endsInToggle cs
  | _ :: cs => endsInToggle cs

section Toggles
variable {c : Char} {cs rest : List Char}

theorem endsInToggle_toggle (toggles : Toggles rest) :
    endsInToggle ('~' :: rest) = (rest.isEmpty || endsInToggle rest) := by
  match rest with
  | [] => rfl
  | d :: rest =>
    obtain ⟨tilde, brace⟩ := toggles_cons.1 toggles
    rw [endsInToggle]
    · exact fun _ same => tilde (List.cons.inj same).1
    · exact fun _ same => brace (List.cons.inj same).1

theorem endsInToggle_char (plain : c ≠ '~') (rest : List Char) : endsInToggle (c :: rest) = endsInToggle rest := by
  rw [endsInToggle]
  · exact fun _ same _ => plain same
  · exact fun _ same _ => plain same
  · exact fun same => plain same

/-- A text whose last mark is no toggle is written by itself, whatever follows; only the end of a running
    overbar is left to that. -/
theorem overbarFrom_append_of_whole (running : Bool) (whole : endsInToggle cs = false) :
    ∃ body, overbarFrom running cs = body ++ closing (overbarRuns running cs) ∧
      ∀ rest, overbarFrom running (cs ++ rest) = body ++ overbarFrom (overbarRuns running cs) rest := by
  induction cs using marks_induction generalizing running with
  | nil => exact ⟨[], by cases running <;> rfl, fun _ => rfl⟩
  | doubled cs ih =>
    obtain ⟨body, alone, before⟩ := ih running whole
    exact ⟨'~' :: body, congrArg ('~' :: ·) alone, fun rest => congrArg ('~' :: ·) (before rest)⟩
  | brace cs ih =>
    obtain ⟨body, alone, before⟩ := ih running whole
    exact ⟨'~' :: '{' :: body, congrArg ('~' :: '{' :: ·) alone, fun rest => congrArg ('~' :: '{' :: ·) (before rest)⟩
  | toggle cs toggles ih =>
    rw [endsInToggle_toggle toggles, Bool.or_eq_false_iff] at whole
    obtain ⟨body, alone, before⟩ := ih (!running) whole.2
    refine ⟨(if running then ['}'] else ['~', '{']) ++ body, ?_, fun rest => ?_⟩
    · rw [overbarFrom_toggle _ toggles, overbarRuns_toggle _ toggles, alone, List.append_assoc]
    · -- the toggle is not the last mark, so what comes after the text does not change it
      have toggles' : Toggles (cs ++ rest) := by
        cases cs with
        | nil => cases whole.1
        | cons d cs => exact toggles_cons.2 (toggles_cons.1 toggles)
      rw [List.cons_append, overbarFrom_toggle _ toggles', overbarRuns_toggle _ toggles, before rest, List.append_assoc]
  | char c cs plain ih =>
    rw [endsInToggle_char plain] at whole
    obtain ⟨body, alone, before⟩ := ih (running && !endsOverbar c) whole
    refine ⟨closing (running && endsOverbar c) ++ c :: body, ?_, fun rest => ?_⟩
    · rw [overbarFrom_char _ plain, overbarRuns_char _ plain, alone, List.append_assoc, List.cons_append]
    · rw [List.cons_append, overbarFrom_char _ plain, overbarRuns_char _ plain, before rest, List.append_assoc,
        List.cons_append]

/-- The toggle at the end of a text can be cut off. -/
theorem exists_of_endsInToggle (ends : endsInToggle cs = true) :
    ∃ before, cs = before ++ ['~'] ∧ endsInToggle before = false := by
  induction cs using marks_induction with
  | nil => cases ends
  | doubled cs ih =>
    obtain ⟨before, rfl, whole⟩ := ih ends
    exact ⟨'~' :: '~' :: before, rfl, whole⟩
  | brace cs ih =>
    obtain ⟨before, rfl, whole⟩ := ih ends
    exact ⟨'~' :: '{' :: before, rfl, whole⟩
  | toggle cs toggles ih =>
    rw [endsInToggle_toggle toggles, Bool.or_eq_true] at ends
    rcases ends with none | ends
    · obtain rfl := List.isEmpty_iff.1 none
      exact ⟨[], rfl, rfl⟩
    · obtain ⟨before, rfl, whole⟩ := ih ends
      cases before with
      | nil => exact absurd rfl (toggles_cons.1 toggles).1
      | cons d before =>
        refine ⟨'~' :: d :: before, rfl, ?_⟩
        rw [endsInToggle_toggle (toggles_cons.2 (toggles_cons.1 toggles)), whole]
        rfl
  | char c cs plain ih =>
    rw [endsInToggle_char plain] at ends
    obtain ⟨before, rfl, whole⟩ := ih ends
    exact ⟨c :: before, rfl, (endsInToggle_char plain before).trans whole⟩

end Toggles

/-! ## One member -/

/-- The member is written in a list as it is by itself. With an odd number of `!`, one more is to end its overbar:
    there has to be one that runs over its last character. With an even number, only a lone `~` gets an overbar
    in a list and none by itself. -/
def KeepsOverbar (member : List Char) : Prop :=
  if member.count '!' % 2 = 1 then
    member = ['!'] ∨ overbarRuns false (member.map toggle) = true ∧ endsInToggle (member.map toggle) = false
  else member ≠ ['~']

instance (member : List Char) : Decidable (KeepsOverbar member) := inferInstanceAs (Decidable (ite _ _ _))

section Member
variable {member : List Char}

theorem map_toggle_closeMember (odd : member.count '!' % 2 = 1) :
    (closeMember member).map toggle = member.map toggle ++ ['~'] := by
  rw [closeMember, if_pos odd, List.map_append]
  rfl

/-- Only the two toggles are read as a lone tilde. -/
theorem map_toggle_eq_tilde : member.map toggle = ['~'] ↔ member = ['!'] ∨ member = ['~'] := by
  constructor
  · intro same
    obtain ⟨c, rfl, isToggle⟩ := List.map_eq_singleton_iff.1 same
    by_cases mark : c = '!'
    · exact .inl (by rw [mark])
    · rw [toggle, if_neg mark] at isToggle
      exact .inr (by rw [isToggle])
  · rintro (rfl | rfl) <;> rfl

theorem closeMember_even (even : ¬ member.count '!' % 2 = 1) :
    overbarFrom false ((closeMember member).map toggle) = labelChars member ↔ member ≠ ['~'] := by
  rw [closeMember, if_neg even]
  constructor
  · rintro written rfl
    exact absurd written (by decide)
  · intro other
    have notLone : member.map toggle ≠ ['~'] := by
      intro lone
      rcases map_toggle_eq_tilde.1 lone with rfl | rfl
      · exact even rfl
      · exact other rfl
    rw [labelChars, overbarChars_of_ne notLone]

theorem closeMember_odd (odd : member.count '!' % 2 = 1) :
    overbarFrom false ((closeMember member).map toggle) = labelChars member ↔
      member = ['!'] ∨ overbarRuns false (member.map toggle) = true ∧ endsInToggle (member.map toggle) = false := by
  rw [map_toggle_closeMember odd]
  by_cases lone : member = ['!']
  · subst lone
    decide
  have notLone : member.map toggle ≠ ['~'] := by
    intro same
    rcases map_toggle_eq_tilde.1 same with isMark | rfl
    · exact lone isMark
    · cases odd
  rw [labelChars, overbarChars_of_ne notLone, or_iff_right lone]
  cases ends : endsInToggle (member.map toggle) with
  | false =>
    obtain ⟨body, alone, before⟩ := overbarFrom_append_of_whole false ends
    rw [alone, before, List.append_cancel_left_eq]
    cases overbarRuns false (member.map toggle) <;> decide
  | true =>
    obtain ⟨start, split, whole⟩ := exists_of_endsInToggle ends
    obtain ⟨body, _, before⟩ := overbarFrom_append_of_whole false whole
    refine iff_of_false ?_ (fun kept => absurd kept.2 (by decide))
    rw [split, List.append_assoc, before, before, List.append_cancel_left_eq]
    cases overbarRuns false start <;> decide

/-- The closing toggle does what it should just where a member keeps its overbar. -/
theorem keepsOverbar_iff (member : List Char) :
    overbarFrom false ((closeMember member).map toggle) = labelChars member ↔ KeepsOverbar member := by
  unfold KeepsOverbar
  split
  · exact closeMember_odd ‹_›
  · exact closeMember_even ‹_›

end Member

/-! ## The list -/

/-- A character that ends an overbar is written after it, and what follows is outside. -/
theorem overbarFrom_append_end {c : Char} (ends : endsOverbar c = true) (running : Bool) (cs rest : List Char) :
    overbarFrom running (cs ++ c :: rest) = overbarFrom running cs ++ c :: overbarFrom false rest := by
  have plain : c ≠ '~' ∧ c ≠ '{' := by
    constructor <;> rintro rfl <;> cases ends
  obtain ⟨body, alone, before⟩ := overbarFrom_append_char running cs
  rw [before c rest plain.1 plain.2, overbarFrom_char _ plain.1, alone, ends, List.append_assoc]
  simp

theorem overbarFrom_list (texts : List (List Char)) :
    overbarFrom false ([' '].intercalate texts ++ ['}']) =
      [' '].intercalate (texts.map (overbarFrom false)) ++ ['}'] := by
  induction texts with
  | nil => rfl
  | cons text texts ih =>
    cases texts with
    | nil =>
      rw [List.map_singleton, List.intercalate_singleton, List.intercalate_singleton]
      exact overbarFrom_append_end rfl false text []
    | cons next texts =>
      rw [List.map_cons, List.map_cons, List.intercalate_cons_cons, List.intercalate_cons_cons]
      simp only [List.append_assoc, List.cons_append, List.nil_append]
      rw [overbarFrom_append_end rfl, ih, List.map_cons]

theorem splitAtChar_eq (mark : Char) (cs : List Char) : splitAtChar mark cs = cs.splitOn mark := by
  induction cs with
  | nil => rfl
  | cons c cs ih =>
    rw [splitAtChar, List.splitOn_cons_eq_if_modifyHead, ih]
    by_cases isMark : c = mark
    · simp [isMark]
    · simp only [if_neg isMark, beq_iff_eq]
      cases pieces : cs.splitOn mark with
      | nil => exact absurd pieces (List.splitOn_ne_nil mark cs)
      | cons piece pieces => rfl

/-- The names in a bus name, in order: what stands between commas and is not empty. -/
def memberNames (s : String) : List String := ((s.toList.splitOn ',').filter (!·.isEmpty)).map String.ofList

theorem toList_memberNames (s : String) : (memberNames s).map String.toList = members s.toList := by
  simp [memberNames, members, splitAtChar_eq, Function.comp_def]

theorem map_toggle_intercalate (texts : List (List Char)) :
    ([' '].intercalate texts).map toggle = [' '].intercalate (texts.map (List.map toggle)) := by
  induction texts with
  | nil => rfl
  | cons text texts ih =>
    cases texts with
    | nil => simp
    | cons next texts =>
      rw [List.map_cons, List.map_cons, List.intercalate_cons_cons, List.intercalate_cons_cons, List.map_append,
        List.map_append, ih]
      rfl

/-- The label of a list names its members, closed and written one by one. -/
theorem labelChars_bus {cs : List Char} (list : isVectorChars cs = false) : labelChars (busChars cs) =
    '{' :: [' '].intercalate ((members cs).map fun m => overbarFrom false ((closeMember m).map toggle)) ++ ['}'] := by
  have marks : (busChars cs).map toggle =
      '{' :: ([' '].intercalate (((members cs).map closeMember).map (List.map toggle)) ++ ['}']) := by
    simp [busChars, list, map_toggle_intercalate, toggle]
  have opens (rest : List Char) : overbarFrom false ('{' :: rest) = '{' :: overbarFrom false rest :=
    overbarFrom_char false (by decide) rest
  rw [labelChars, marks, overbarChars_of_ne (by simp), opens, overbarFrom_list]
  simp [Function.comp_def]

/-- Texts without blanks that are joined by blanks can be told apart. -/
theorem intercalate_map_eq_iff {f g : List Char → List Char} {texts : List (List Char)}
    (first : ∀ text ∈ texts, ' ' ∉ f text) (second : ∀ text ∈ texts, ' ' ∉ g text) :
    [' '].intercalate (texts.map f) = [' '].intercalate (texts.map g) ↔ ∀ text ∈ texts, f text = g text := by
  constructor
  · intro same
    cases texts with
    | nil => simp
    | cons text texts =>
      have pieces := congrArg (List.splitOn ' ') same
      rw [List.splitOn_intercalate _ (by simpa using first) (by simp),
        List.splitOn_intercalate _ (by simpa using second) (by simp)] at pieces
      exact List.map_inj_left.1 pieces
  · intro same
    rw [List.map_inj_left.2 same]

theorem mem_labelChars_blank {member : List Char} : ' ' ∈ labelChars member ↔ ' ' ∈ member := by
  rw [labelChars, mem_overbarChars (by decide) (by decide) (by decide), mem_map_toggle (by decide) (by decide)]

theorem mem_closeMember_blank {member : List Char} :
    ' ' ∈ overbarFrom false ((closeMember member).map toggle) ↔ ' ' ∈ member := by
  rw [mem_overbarFrom (by decide) (by decide) (by decide), mem_map_toggle (by decide) (by decide), closeMember]
  split <;> simp

theorem toList_listed (s : String) : ("\x7b" ++ " ".intercalate ((memberNames s).map label) ++ "\x7d").toList =
    '{' :: [' '].intercalate ((members s.toList).map labelChars) ++ ['}'] := by
  have names : ((memberNames s).map label).map String.toList = (members s.toList).map labelChars := by
    rw [← toList_memberNames]
    simp [label, Function.comp_def]
  rw [String.toList_append, String.toList_append, String.toList_intercalate, names]
  rfl

/-- The label of a bus that is a list of names without blanks gives each of them as the label of its net has it,
    one after the other, just if every one of them keeps its overbar. -/
theorem bus_lists_labels_iff (s : String) (list : isVector s = false) (plain : ∀ m ∈ memberNames s, ' ' ∉ m.toList) :
    label (bus s) = "\x7b" ++ " ".intercalate ((memberNames s).map label) ++ "\x7d" ↔
      ∀ m ∈ memberNames s, KeepsOverbar m.toList := by
  have plain : ∀ m ∈ members s.toList, ' ' ∉ m := by
    rw [← toList_memberNames]
    simpa using plain
  have members : (∀ m ∈ memberNames s, KeepsOverbar m.toList) ↔ ∀ m ∈ members s.toList, KeepsOverbar m := by
    rw [← toList_memberNames]
    simp
  rw [← String.toList_inj, toList_listed, label, bus, String.toList_ofList, String.toList_ofList, labelChars_bus list,
    List.append_cancel_right_eq, List.cons_inj_right, members]
  rw [intercalate_map_eq_iff (fun m member => mt mem_closeMember_blank.1 (plain m member))
    (fun m member => mt mem_labelChars_blank.1 (plain m member))]
  exact forall₂_congr fun m _ => keepsOverbar_iff m

/-- There are no blanks and no braces in the name. -/
def Unbroken (name : String) : Prop := ∀ c ∈ name.toList, isBlank c = false ∧ c ≠ '{' ∧ c ≠ '}'

instance (name : String) : Decidable (Unbroken name) := List.decidableBAll _ _

/-- A bus whose second name has its overbar ended by a bracket. -/
def bracketBus : String := "CLK,D(!X)"

/-- The toggle that is to end an overbar opens another one. -/
theorem not_all_bus_labels_listed : ¬ ∀ s : String, isVector s = false → (∀ m ∈ memberNames s, Unbroken m) →
    label (bus s) = "\x7b" ++ " ".intercalate ((memberNames s).map label) ++ "\x7d" := by
  intro all
  exact absurd (all bracketBus (by decide) (by decide)) (by decide)

/-- A bus of names that all keep their overbars: one to close, a toggle at the end, two overbars, a lone toggle. -/
def toggledBus : String := "!A,B~,!C!D!E!F,!"

theorem toggledBus_listed : isVector toggledBus = false ∧ (∀ m ∈ memberNames toggledBus, ' ' ∉ m.toList) ∧
    label (bus toggledBus) = "\x7b~\x7bA\x7d B~\x7b\x7d ~\x7bC\x7dD~\x7bE\x7dF ~\x7d" := by
  have list : isVector toggledBus = false := by decide
  have plain : ∀ m ∈ memberNames toggledBus, ' ' ∉ m.toList := by decide
  exact ⟨list, plain, ((bus_lists_labels_iff toggledBus list plain).2 (by decide)).trans (by decide)⟩

end Redraft.Name
