import Mathlib.Logic.Relation
import Redraft.Proofs.NetNames
import Redraft.Proofs.Overbars

/-!
# Spellings of a name

The written form does not tell all names apart: an overbar can be marked by
toggles or written with braces, and the toggle that ends it can often be left
out. Two nets get one label text just if their names are spellings of each other.
A doubled toggle before a brace, which is written like a mark, is left out.
-/

namespace Redraft.Name

/-- A running overbar ends before `rest`, and `after` is what is left to write:
    it ends at a toggle, before a character that ends it, or with the text. -/
inductive OverbarEnds : List Char → List Char → Prop
  | toggle {rest : List Char} (toggles : Toggles rest) : OverbarEnds ('~' :: rest) rest
  | before {c : Char} {rest : List Char} (ends : endsOverbar c = true) : OverbarEnds (c :: rest) (c :: rest)
  | stop : OverbarEnds [] []

/-- One step from a spelling to another one with the same written form: the first
    overbar of a text gets braces for its toggles, and a tilde alone needs no doubling. -/
inductive Respelled : List Char → List Char → Prop
  | overbar {before inside rest after : List Char} (settled : Settled before) (plain : Settled inside)
      (within : ∀ c ∈ inside, endsOverbar c = false) (toggles : Toggles (inside ++ rest))
      (ends : OverbarEnds rest after) (more : before ++ (inside ++ rest) ≠ []) :
      Respelled (before ++ '~' :: (inside ++ rest)) (before ++ '~' :: '{' :: (inside ++ '}' :: after))
  | alone : Respelled ['~'] ['~', '~']

/-- One name can be respelled as the other one; `!` is read as `~`. -/
def Alike (m n : String) : Prop := Relation.EqvGen Respelled (m.toList.map toggle) (n.toList.map toggle)

/-- No doubled tilde stands directly before a brace. -/
def tildesClear : List Char → Bool
  | '~' :: '~' :: cs => cs.head? != some '{' && tildesClear cs
  | '~' :: '{' :: cs => tildesClear cs
  | _ :: cs => tildesClear cs
  | [] => true

/-- No doubled toggle stands directly before a brace in the name. -/
def Clear (n : String) : Prop := tildesClear (n.toList.map toggle) = true

instance (n : String) : Decidable (Clear n) := inferInstanceAs (Decidable (_ = true))

/-! ## Respelling keeps the written form -/

section Sound
variable {m n rest after : List Char}

theorem overbarFrom_ends (ends : OverbarEnds rest after) : overbarFrom true rest = '}' :: overbarFrom false after := by
  cases ends with
  | toggle toggles => rw [overbarFrom_toggle _ toggles]; rfl
  | @before c rest ends =>
    have plain : c ≠ '~' := by
      rintro rfl
      cases ends
    rw [overbarFrom_char _ plain, overbarFrom_char _ plain, ends]
    rfl
  | stop => rfl

/-- A text with a tilde and more is not the tilde alone. -/
theorem append_cons_ne_tilde {before : List Char} {c : Char} (more : before ++ rest ≠ []) :
    before ++ c :: rest ≠ ['~'] := by
  intro alone
  have length := congrArg List.length alone
  have := List.length_pos_iff.2 more
  simp only [List.length_append, List.length_cons, List.length_nil] at this length
  omega

theorem Respelled.overbarChars_eq (step : Respelled m n) : overbarChars m = overbarChars n := by
  cases step with
  | @overbar before inside rest after settled plain within toggles ends more =>
    rw [overbarChars_of_ne (append_cons_ne_tilde more), overbarChars_of_ne (append_cons_ne_tilde (by simp))]
    calc overbarFrom false (before ++ '~' :: (inside ++ rest))
      _ = overbarFrom false before ++ ('~' :: '{' :: overbarFrom true (inside ++ rest)) := by
        rw [settled.overbarFrom_false_append, overbarFrom_toggle _ toggles]
        rfl
      _ = overbarFrom false before ++ ('~' :: '{' :: (overbarFrom false inside ++ '}' :: overbarFrom false after)) := by
        rw [plain.overbarFrom_append fun _ => within, overbarFrom_ends ends]
      _ = overbarFrom false before ++ ('~' :: '{' :: overbarFrom false (inside ++ '}' :: after)) := by
        rw [plain.overbarFrom_false_append, overbarFrom_char false (by decide)]
        rfl
      _ = overbarFrom false (before ++ '~' :: '{' :: (inside ++ '}' :: after)) := by
        rw [settled.overbarFrom_false_append]
        rfl
  | alone => rfl

/-- What each step keeps is the same at both ends of a chain of respellings. -/
theorem respelled_value {α : Type} (v : List Char → α) (keeps : ∀ m n, Respelled m n → v m = v n)
    (chain : Relation.EqvGen Respelled m n) : v m = v n := by
  induction chain with
  | rel m n step => exact keeps m n step
  | refl m => rfl
  | symm m n _ ih => exact ih.symm
  | trans k m n _ _ first second => exact first.trans second

theorem overbarChars_eq_of_respelled (chain : Relation.EqvGen Respelled m n) : overbarChars m = overbarChars n :=
  respelled_value overbarChars (fun _ _ step => step.overbarChars_eq) chain

end Sound

/-! ## Respelling keeps a text clear -/

section Clearness
variable {m n rest : List Char} {c : Char}

theorem tildesClear_toggle (toggles : Toggles rest) : tildesClear ('~' :: rest) = tildesClear rest := by
  match rest with
  | [] => rfl
  | d :: rest =>
    obtain ⟨tilde, brace⟩ := toggles_cons.1 toggles
    rw [tildesClear]
    · exact fun _ _ same => tilde (List.cons.inj same).1
    · exact fun _ _ same => brace (List.cons.inj same).1

theorem tildesClear_char (plain : c ≠ '~') (rest : List Char) : tildesClear (c :: rest) = tildesClear rest := by
  rw [tildesClear]
  · exact fun _ same _ => plain same
  · exact fun _ same _ => plain same

/-- What follows a settled text bears on its tildes by its first character only. -/
theorem tildesClear_append {before : List Char} (settled : Settled before)
    (first : (m.head? == some '{') = (n.head? == some '{')) (same : tildesClear m = tildesClear n) :
    tildesClear (before ++ m) = tildesClear (before ++ n) := by
  induction settled with
  | nil => exact same
  | @doubled cs rest ih =>
    have head : ((cs ++ m).head? == some '{') = ((cs ++ n).head? == some '{') := by
      cases cs with
      | nil => exact first
      | cons c cs => rfl
    simp only [List.cons_append, tildesClear, bne, head, ih]
  | brace rest ih => exact ih
  | char plain rest ih => rw [List.cons_append, List.cons_append, tildesClear_char plain, tildesClear_char plain, ih]

theorem OverbarEnds.tildesClear_eq {rest after : List Char} (ends : OverbarEnds rest after) :
    (rest.head? == some '{') = false ∧ tildesClear rest = tildesClear after := by
  cases ends with
  | toggle toggles => exact ⟨rfl, tildesClear_toggle toggles⟩
  | @before c rest ends =>
    refine ⟨?_, rfl⟩
    by_contra brace
    obtain rfl : c = '{' := by simpa using brace
    cases ends
  | stop => exact ⟨rfl, rfl⟩

theorem Respelled.tildesClear_eq (step : Respelled m n) : tildesClear m = tildesClear n := by
  cases step with
  | @overbar before inside rest after settled plain within toggles ends more =>
    obtain ⟨noBrace, same⟩ := ends.tildesClear_eq
    refine tildesClear_append settled rfl ?_
    calc tildesClear ('~' :: (inside ++ rest))
      _ = tildesClear (inside ++ rest) := tildesClear_toggle toggles
      _ = tildesClear (inside ++ '}' :: after) :=
        tildesClear_append plain noBrace (same.trans (tildesClear_char (by decide) after).symm)
  | alone => rfl

end Clearness

/-! ## Every text has a settled spelling -/

/-- What follows the start of an overbar falls apart into what is under it and how it ends. -/
theorem overbar_split (cs : List Char) : ∃ inside rest after, cs = inside ++ rest ∧ Settled inside ∧
    (∀ c ∈ inside, endsOverbar c = false) ∧ OverbarEnds rest after ∧ after.length ≤ cs.length := by
  induction cs using marks_induction with
  | nil => exact ⟨[], [], [], rfl, .nil, by simp, .stop, Nat.le_refl _⟩
  | doubled cs ih =>
    obtain ⟨inside, rest, after, rfl, settled, within, ends, short⟩ := ih
    refine ⟨'~' :: '~' :: inside, rest, after, rfl, .doubled settled, ?_, ends,
      Nat.le_succ_of_le (Nat.le_succ_of_le short)⟩
    simpa [endsOverbar] using within
  | brace cs ih =>
    obtain ⟨inside, rest, after, rfl, settled, within, ends, short⟩ := ih
    refine ⟨'~' :: '{' :: inside, rest, after, rfl, .brace settled, ?_, ends,
      Nat.le_succ_of_le (Nat.le_succ_of_le short)⟩
    simpa [endsOverbar] using within
  | toggle cs toggles _ => exact ⟨[], _, _, rfl, .nil, by simp, .toggle toggles, Nat.le_succ _⟩
  | char c cs plain ih =>
    cases ends : endsOverbar c with
    | true => exact ⟨[], _, _, rfl, .nil, by simp, .before ends, Nat.le_refl _⟩
    | false =>
      obtain ⟨inside, rest, after, rfl, settled, within, ends', short⟩ := ih
      exact ⟨c :: inside, rest, after, rfl, .char plain settled, List.forall_mem_cons.2 ⟨ends, within⟩, ends',
        Nat.le_succ_of_le short⟩

/-- A text is respelled overbar by overbar, from the left, until none is marked by toggles. -/
theorem exists_settled_append {before : List Char} (settled : Settled before) (cs : List Char)
    (more : before ++ cs ≠ ['~']) : ∃ plain, Settled plain ∧ Relation.EqvGen Respelled (before ++ cs) plain := by
  induction length : cs.length using Nat.strongRecOn generalizing cs before with
  | ind n ih =>
    subst length
    -- a mark that is no toggle goes over to the part that is settled
    have goOn (mark rest : List Char) (same : cs = mark ++ rest) (isMark : Settled mark) (some' : mark ≠ []) :
        ∃ plain, Settled plain ∧ Relation.EqvGen Respelled (before ++ cs) plain := by
      subst same
      have shorter : rest.length < (mark ++ rest).length := by
        have := List.length_pos_iff.2 some'
        simp only [List.length_append]
        omega
      rw [← List.append_assoc] at more ⊢
      exact ih rest.length shorter (settled.append isMark) rest more rfl
    obtain rfl | ⟨rest, rfl⟩ | ⟨rest, rfl⟩ | ⟨rest, rfl, toggles⟩ | ⟨c, rest, rfl, plain⟩ := mark_cases cs
    · rw [List.append_nil]
      exact ⟨before, settled, .refl _⟩
    · exact goOn ['~', '~'] rest rfl (.doubled .nil) (by simp)
    · exact goOn ['~', '{'] rest rfl (.brace .nil) (by simp)
    · obtain ⟨inside, rest, after, rfl, isInside, within, ends, short⟩ := overbar_split rest
      have step : Respelled (before ++ '~' :: (inside ++ rest)) (before ++ '~' :: '{' :: (inside ++ '}' :: after)) := by
        refine .overbar settled isInside within toggles ends fun empty => more ?_
        obtain ⟨noneBefore, noneAfter⟩ := List.append_eq_nil_iff.1 empty
        rw [noneBefore, noneAfter]
        rfl
      have written : Settled (before ++ '~' :: '{' :: (inside ++ ['}'])) :=
        settled.append (.brace (isInside.append (.char (by decide) .nil)))
      have whole : before ++ '~' :: '{' :: (inside ++ '}' :: after) =
          before ++ '~' :: '{' :: (inside ++ ['}']) ++ after := by simp
      have long : before ++ '~' :: '{' :: (inside ++ ['}']) ++ after ≠ ['~'] :=
        whole ▸ append_cons_ne_tilde (by simp)
      rw [whole] at step
      obtain ⟨plain, isPlain, chain⟩ := ih after.length (Nat.lt_succ_of_le short) written after long rfl
      exact ⟨plain, isPlain, .trans _ _ _ (.rel _ _ step) chain⟩
    · exact goOn [c] rest rfl (.char plain .nil) (by simp)

theorem exists_settled (cs : List Char) : ∃ plain, Settled plain ∧ Relation.EqvGen Respelled cs plain := by
  by_cases alone : cs = ['~']
  · rw [alone]
    exact ⟨['~', '~'], .doubled .nil, .rel _ _ .alone⟩
  · exact exists_settled_append .nil cs alone

/-! ## Settled spellings of one written form -/

/-- A settled text that is written with a brace in front has it in front. -/
theorem Settled.of_brace {cs written : List Char} (settled : Settled cs)
    (same : overbarFrom false cs = '{' :: written) :
    ∃ rest, cs = '{' :: rest ∧ Settled rest ∧ overbarFrom false rest = written := by
  cases settled with
  | nil => cases same
  | doubled _ => simp [overbarFrom] at same
  | brace _ => simp [overbarFrom] at same
  | @char c cs plain rest =>
    rw [overbarFrom_char _ plain] at same
    obtain ⟨rfl, same⟩ := List.cons.inj same
    exact ⟨cs, rfl, rest, same⟩

/-- Settled texts that are clear and written alike are the same. -/
theorem Settled.eq_of_written {m n : List Char} (first : Settled m) (second : Settled n) (clear : tildesClear m = true)
    (clear' : tildesClear n = true) (same : overbarFrom false m = overbarFrom false n) : m = n := by
  induction first generalizing n with
  | nil =>
    cases second with
    | nil => rfl
    | doubled _ => cases same
    | brace _ => cases same
    | char plain _ =>
      rw [overbarFrom_char _ plain] at same
      cases same
  | @doubled m first ih =>
    obtain ⟨noBrace, clear⟩ := Bool.and_eq_true_iff.1 clear
    cases second with
    | nil => cases same
    | @doubled n second => rw [ih second clear (Bool.and_eq_true_iff.1 clear').2 (List.cons.inj same).2]
    | @brace n second =>
      -- only a brace after the doubled tilde is written like this
      obtain ⟨_, rfl, _⟩ := first.of_brace (List.cons.inj same).2
      cases noBrace
    | char plain _ =>
      rw [overbarFrom_char _ plain] at same
      exact absurd (List.cons.inj same).1.symm plain
  | @brace m first ih =>
    cases second with
    | nil => cases same
    | @doubled n second =>
      obtain ⟨_, rfl, _⟩ := second.of_brace (List.cons.inj same).2.symm
      cases (Bool.and_eq_true_iff.1 clear').1
    | @brace n second => rw [ih second clear clear' (List.cons.inj (List.cons.inj same).2).2]
    | char plain _ =>
      rw [overbarFrom_char _ plain] at same
      exact absurd (List.cons.inj same).1.symm plain
  | @char c m plain first ih =>
    rw [overbarFrom_char _ plain] at same
    rw [tildesClear_char plain] at clear
    cases second with
    | nil => cases same
    | doubled _ => exact absurd (List.cons.inj same).1 plain
    | brace _ => exact absurd (List.cons.inj same).1 plain
    | @char d n plain' second =>
      rw [overbarFrom_char _ plain'] at same
      rw [tildesClear_char plain'] at clear'
      obtain ⟨rfl, same⟩ := List.cons.inj same
      rw [ih second clear clear' same]

/-- Clear names are written alike just if one can be respelled as the other. -/
theorem label_eq_iff {m n : String} (clear : Clear m) (clear' : Clear n) : label m = label n ↔ Alike m n := by
  unfold label labelChars Alike
  rw [String.ofList_inj]
  constructor
  · intro same
    obtain ⟨first, isFirst, toFirst⟩ := exists_settled (m.toList.map toggle)
    obtain ⟨second, isSecond, toSecond⟩ := exists_settled (n.toList.map toggle)
    rw [overbarChars_eq_of_respelled toFirst, overbarChars_eq_of_respelled toSecond,
      overbarChars_of_ne isFirst.ne_tilde, overbarChars_of_ne isSecond.ne_tilde] at same
    have keeps (m n : List Char) (step : Respelled m n) := step.tildesClear_eq
    obtain rfl := isFirst.eq_of_written isSecond ((respelled_value tildesClear keeps toFirst).symm.trans clear)
      ((respelled_value tildesClear keeps toSecond).symm.trans clear') same
    exact .trans _ _ _ toFirst (.symm _ _ toSecond)
  · exact overbarChars_eq_of_respelled

example : Alike "!A!_B" "~\x7bA\x7d_B" ∧ Alike "A(!B)" "A(!B!)" ∧ ¬ Alike "!A" "A" := by
  rw [← label_eq_iff, ← label_eq_iff, ← label_eq_iff] <;> decide +kernel

end Redraft.Name

namespace Redraft

/-! ## Labels of two nets -/

section Labels
open Drafting
variable {c : Context} {m n : Eagle.Net} {d d' f f' : Desk}

/-- The labels of two nets with clear names bear one text just if one name can be respelled as the other. -/
theorem net_labels_alike (clear : Name.Clear m.name) (clear' : Name.Clear n.name)
    (first : Ends (drawNet c m.name false m) d () d') (second : Ends (drawNet c n.name false n) f () f') :
    ∃ ofFirst ofSecond, d'.sheet.labels = d.sheet.labels ++ ofFirst ∧ f'.sheet.labels = f.sheet.labels ++ ofSecond ∧
      ∀ l ∈ ofFirst, ∀ k ∈ ofSecond, l.text = k.text ↔ Name.Alike m.name n.name := by
  obtain ⟨ofFirst, made, grown⟩ := grown_drawNet first
  obtain ⟨ofSecond, made', grown'⟩ := grown_drawNet second
  refine ⟨ofFirst, ofSecond, grown.labels, grown'.labels, fun l isFirst k isSecond => ?_⟩
  rw [made.named isFirst, made'.named isSecond]
  exact Name.label_eq_iff clear clear'

/-- A document with two nets, the names of which differ in the toggle that ends the overbar. -/
def endedOverbar : Eagle.Schematic where
  layers := [(91, "Nets")]
  sheets := [⟨none, [], [], [], [labelledNet "!A" ⟨0, 0⟩, labelledNet "!A!" ⟨mils 500, 0⟩]⟩]

theorem endedOverbar_drawn : ∃ c report, ∃ d first second : Desk,
    Context.ofDocument endedOverbar "demo" "demo" = .ok (c, report) ∧ d.sheet.labels = [] ∧
    Ends (drawNet c "!A" false (labelledNet "!A" ⟨0, 0⟩)) d () first ∧
    Ends (drawNet c "!A!" false (labelledNet "!A!" ⟨mils 500, 0⟩)) first () second ∧
    first.sheet.labels.map (·.text) = ["~\x7bA\x7d"] ∧
    second.sheet.labels.map (·.text) = ["~\x7bA\x7d", "~\x7bA\x7d"] := by
  have checked : (Context.ofDocument endedOverbar "demo" "demo").toOption.any (fun shared =>
      let d : Desk := ⟨shared.1.newSheet "demo" "demo.kicad_sch" .root ⟨some "A4", ⟨2970000, 2100000⟩⟩, shared.2, []⟩
      let first := (drawNet shared.1 "!A" false (labelledNet "!A" ⟨0, 0⟩)).outcome d
      let second := (drawNet shared.1 "!A!" false (labelledNet "!A!" ⟨mils 500, 0⟩)).outcome first.2
      first.1.toBool && (second.1.toBool && decide (first.2.sheet.labels.map (·.text) = ["~\x7bA\x7d"] ∧
        second.2.sheet.labels.map (·.text) = ["~\x7bA\x7d", "~\x7bA\x7d"]))) = true := by decide +kernel
  obtain ⟨⟨c, report⟩, shared, holds⟩ := (Option.any_eq_true ..).1 checked
  simp only [Bool.and_eq_true, decide_eq_true_eq] at holds
  exact ⟨c, report, _, _, _, ok_of_toOption shared, rfl, .of_toBool holds.1, .of_toBool holds.2.1, holds.2.2⟩

/-- Two nets with different names may get labels of one text. -/
theorem not_all_nets_apart : ¬ ∀ (document : Eagle.Schematic) (library project : String) (c : Context) (shared : Report)
    (m n : Eagle.Net) (d d' f f' : Desk) (ofFirst ofSecond : List NetLabel),
    Context.ofDocument document library project = .ok (c, shared) →
    m ∈ document.sheets.flatMap (·.nets) → n ∈ document.sheets.flatMap (·.nets) → m.name ≠ n.name →
    Ends (drawNet c m.name false m) d () d' → Ends (drawNet c n.name false n) f () f' →
    d'.sheet.labels = d.sheet.labels ++ ofFirst → f'.sheet.labels = f.sheet.labels ++ ofSecond →
    ∀ l ∈ ofFirst, ∀ k ∈ ofSecond, l.text ≠ k.text := by
  intro claim
  obtain ⟨c, report, d, first, second, shared, empty, ran, ran', texts, texts'⟩ := endedOverbar_drawn
  obtain ⟨ofFirst, _, grown⟩ := grown_drawNet ran
  obtain ⟨ofSecond, _, grown'⟩ := grown_drawNet ran'
  have one : ofFirst.map (·.text) = ["~\x7bA\x7d"] := by
    rw [← texts, grown.labels, empty, List.nil_append]
  have two : ofSecond.map (·.text) = ["~\x7bA\x7d"] := by
    rw [grown'.labels, List.map_append, texts] at texts'
    exact (List.cons.inj texts').2
  have mem {labels : List NetLabel} (text : labels.map (·.text) = ["~\x7bA\x7d"]) :
      ∃ l ∈ labels, l.text = "~\x7bA\x7d" := List.mem_map.1 (text ▸ .head _)
  obtain ⟨l, isFirst, here⟩ := mem one
  obtain ⟨k, isSecond, there⟩ := mem two
  exact claim endedOverbar _ _ c report (labelledNet "!A" ⟨0, 0⟩) (labelledNet "!A!" ⟨mils 500, 0⟩) _ _ _ _ _ _ shared
    (.head _) (.tail _ (.head _)) (by decide) ran ran' grown.labels grown'.labels l isFirst k isSecond
    (here.trans there.symm)

/-- The labels of both nets bear one text, and one name is the other with the overbar ended. -/
theorem endedOverbar_alike : Name.Clear "!A" ∧ Name.Clear "!A!" ∧ ∃ c report, ∃ d first second : Desk,
    Context.ofDocument endedOverbar "demo" "demo" = .ok (c, report) ∧
    Ends (drawNet c "!A" false (labelledNet "!A" ⟨0, 0⟩)) d () first ∧
    Ends (drawNet c "!A!" false (labelledNet "!A!" ⟨mils 500, 0⟩)) first () second ∧
    ∃ ofFirst ofSecond, first.sheet.labels = d.sheet.labels ++ ofFirst ∧
      second.sheet.labels = first.sheet.labels ++ ofSecond ∧
      ∀ l ∈ ofFirst, ∀ k ∈ ofSecond, l.text = k.text ↔ Name.Alike "!A" "!A!" := by
  have clear : Name.Clear "!A" := by decide +kernel
  have clear' : Name.Clear "!A!" := by decide +kernel
  obtain ⟨c, report, d, first, second, shared, _, ran, ran', _, _⟩ := endedOverbar_drawn
  exact ⟨clear, clear', c, report, d, first, second, shared, ran, ran', net_labels_alike clear clear' ran ran'⟩

end Labels

end Redraft
