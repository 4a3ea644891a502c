import Mathlib.Data.List.Forall2
import Redraft.Proofs.Drafting
import Redraft.Project.Convert

/-!
# The conversion of a document

The sheets of a document are drawn one after the other, each on an empty sheet;
the reports and the record of units pass from one to the next. The root sheet
gets the missing units in the end.
-/

namespace Redraft
open Drafting

/-- The drawing of one sheet: the EAGLE sheet, the empty sheet it was drawn on, and what that became. -/
structure SheetRun where
  source : Eagle.Sheet
  fresh : Sheet
  done : Sheet

/-- Sheets are drawn one after the other from some reports and a record of units. -/
inductive SheetRuns (c : Context) : Report → UnitRecord → List SheetRun → Report → UnitRecord → Prop
  | nil {report : Report} {units : UnitRecord} : SheetRuns c report units [] report units
  | cons {report report' : Report} {units units' : UnitRecord} {source : Eagle.Sheet} {fresh : Sheet} {done : Desk}
      {runs : List SheetRun} (ran : Ends (drawSheet c source) ⟨fresh, report, units⟩ () done)
      (rest : SheetRuns c done.report done.units runs report' units') :
      SheetRuns c report units (⟨source, fresh, done.sheet⟩ :: runs) report' units'

/-- Each sheet of a run was drawn on its empty sheet. -/
theorem SheetRuns.each {c : Context} {report report' : Report} {units units' : UnitRecord} {runs : List SheetRun}
    (drawn : SheetRuns c report units runs report' units') {run : SheetRun} (member : run ∈ runs) :
    ∃ report units done, Ends (drawSheet c run.source) ⟨run.fresh, report, units⟩ () done ∧ done.sheet = run.done := by
  induction drawn with
  | nil => cases member
  | cons ran _ ih =>
    rcases List.mem_cons.1 member with rfl | later
    · exact ⟨_, _, _, ran, rfl⟩
    · exact ih later

/-- What adding each missing unit keeps, tiling keeps. -/
theorem Sheet.tile_keeps (P : Sheet → Prop) {s : Sheet} {record : UnitRecord}
    (keeps : ∀ s part unit position, (part, unit) ∈ record.missing → P s → P (s.addMissing part unit position))
    (holds : P s) : P (s.tile record) := by
  unfold Sheet.tile
  generalize Tiling.below s.extent = t
  revert keeps
  generalize record.missing = missing
  intro keeps
  generalize s.page.size.x = width
  induction missing generalizing s t with
  | nil => exact holds
  | cons first missing ih =>
    exact ih (keeps s first.1 first.2 _ (.head _) holds) _
      fun s part unit position member => keeps s part unit position (.tail _ member)

/-- What stands in two lists at one place is related as the lists are. -/
theorem forall₂_getElem? {α β : Type} {R : α → β → Prop} {l : List α} {m : List β} (related : List.Forall₂ R l m)
    {n : Nat} {b : β} (found : m[n]? = some b) : ∃ a, l[n]? = some a ∧ R a b := by
  induction related generalizing n with
  | nil => simp at found
  | cons first _ ih =>
    cases n with
    | zero => exact ⟨_, rfl, Option.some.inj found ▸ first⟩
    | succ n => exact ih found

/-- The path of a sheet by its number: a single sheet is drawn on the root sheet. -/
def sheetPath (count number : Nat) : SheetPath := if count = 1 then .root else .block (number + 1)

namespace Conversion
variable {c : Context} {state state' : Conversion}

theorem draw_ok {sheet : Sheet} {step : Drafting Unit} {desk : Desk} :
    state.draw sheet step = .ok desk ↔ Ends step ⟨sheet, state.report, state.units⟩ () desk := by
  unfold draw
  change _ ↔ (step.run ⟨sheet, state.report, state.units⟩).run = (.ok (), desk)
  rcases (step.run ⟨sheet, state.report, state.units⟩).run with ⟨_ | _, _⟩
  · simp
  · simp

/-- The empty sheet that a sheet of several is drawn on. -/
def freshSheet (c : Context) (stem : String) (page : Page) (entry : Eagle.Sheet × Nat) : Sheet :=
  let names := Name.sheetNames entry.1.description stem (entry.2 + 1 : Nat)
  c.newSheet names.1 names.2 (.block (entry.2 + 1)) page

/-- Each sheet of several is drawn behind a block; the root sheet gets the blocks and nothing else. -/
theorem addSheet_fold {stem : String} {page : Page} {entries : List (Eagle.Sheet × Nat)}
    (ran : entries.foldlM (addSheet c stem page) state = .ok state') :
    ∃ runs, SheetRuns c state.report state.units runs state'.report state'.units ∧
      state'.sheets = state.sheets ++ runs.map (·.done) ∧
      state'.root = { state.root with blocks := state'.root.blocks } ∧
      List.Forall₂ (fun entry run => run.source = entry.1 ∧ run.fresh = freshSheet c stem page entry) entries runs := by
  induction entries generalizing state with
  | nil =>
    cases ran
    exact ⟨[], .nil, by simp, rfl, .nil⟩
  | cons entry entries ih =>
    rw [List.foldlM_cons] at ran
    obtain ⟨middle, first, rest⟩ := bind_ok.1 ran
    obtain ⟨desk, drawn, same⟩ := bind_ok.1 first
    cases same
    obtain ⟨runs, areRuns, sheets, root, sources⟩ := ih rest
    refine ⟨⟨entry.1, _, desk.sheet⟩ :: runs, .cons (draw_ok.1 drawn) areRuns, ?_, root, .cons ⟨rfl, rfl⟩ sources⟩
    rw [sheets]
    simp

/-- A document has no sheets, or one that is drawn on the root sheet, or several. -/
theorem addSheets_ok {stem : String} {page : Page} (ran : addSheets c stem page state = .ok state') :
    (c.document.sheets = [] ∧ state' = state) ∨
    (∃ source desk, c.document.sheets = [source] ∧
      Ends (drawSheet c source) ⟨state.root, state.report, state.units⟩ () desk ∧
      state' = { state with root := desk.sheet, report := desk.report, units := desk.units }) ∨
    (c.document.sheets.length ≠ 1 ∧ c.document.sheets.zipIdx.foldlM (addSheet c stem page) state = .ok state') := by
  unfold addSheets at ran
  split at ran
  · rename_i none
    cases ran
    exact .inl ⟨none, rfl⟩
  · rename_i source one
    obtain ⟨desk, drawn, same⟩ := bind_ok.1 ran
    cases same
    exact .inr (.inl ⟨source, desk, one, draw_ok.1 drawn, rfl⟩)
  · rename_i _ several
    refine .inr (.inr ⟨fun single => ?_, ran⟩)
    obtain ⟨source, one⟩ := List.length_eq_one_iff.1 single
    exact several source one

/-- Several sheets are all drawn, each on an empty sheet with a path of its own. -/
theorem addSheets_fold {stem : String} {page : Page} {sheets : List Eagle.Sheet} (several : sheets.length ≠ 1)
    (ran : sheets.zipIdx.foldlM (addSheet c stem page) state = .ok state') :
    ∃ runs, SheetRuns c state.report state.units runs state'.report state'.units ∧
      state'.sheets = state.sheets ++ runs.map (·.done) ∧
      state'.root = { state.root with blocks := state'.root.blocks } ∧ runs.map (·.source) = sheets ∧
      ∀ (n : Nat) (run : SheetRun), runs[n]? = some run →
        ∃ name file, run.fresh = c.newSheet name file (sheetPath runs.length n) page := by
  obtain ⟨runs, areRuns, done, root, sources⟩ := addSheet_fold ran
  have count : runs.length = sheets.length := by simpa using sources.length_eq.symm
  refine ⟨runs, areRuns, done, root, ?_, fun n run found => ?_⟩
  · have same : List.Forall₂ (· = ·) (sheets.zipIdx.map (·.1)) (runs.map (·.source)) := by
      rw [List.forall₂_map_left_iff, List.forall₂_map_right_iff]
      exact sources.imp fun _ _ related => related.1.symm
    rw [List.forall₂_eq_eq_eq] at same
    rw [← same, List.zipIdx_map_fst]
  · obtain ⟨⟨e, i⟩, here, _, fresh⟩ := forall₂_getElem? sources found
    rw [List.getElem?_zipIdx, Option.map_eq_some_iff] at here
    obtain ⟨_, _, entry⟩ := here
    obtain ⟨_, rfl⟩ := Prod.mk.inj entry
    rw [fresh, freshSheet, sheetPath, if_neg (count ▸ several), Nat.zero_add]
    exact ⟨_, _, rfl⟩

end Conversion

/-- Converts a document up to its missing units. -/
def convertSheets (document : Eagle.Schematic) (project : Option String) (stem : String) (page : Page) :
    Except Failure (Context × Conversion) := do
  let (context, report) ← Context.ofDocument document (Name.libraryName project stem) (Name.projectName project stem)
  let root := context.newSheet stem (stem ++ ".kicad_sch") .root page
  let state ← Conversion.addSheets context stem page { root, report }
  return (context, state)

/-- A document is converted by drawing its sheets and tiling the root sheet with its missing units. -/
theorem convert_iff {document : Eagle.Schematic} {project : Option String} {stem : String} {page : Page} {p : Project} :
    convert document project stem page = .ok p ↔ ∃ c state, convertSheets document project stem page = .ok (c, state) ∧
      p = { library := Name.libraryName project stem, root := state.root.tile state.units, sheets := state.sheets
            symbols := mergeSymbols c.libraries, report := state.report } := by
  simp only [convert, convertSheets, bind_ok, pure, Except.pure, Except.ok.injEq]
  constructor
  · rintro ⟨⟨c, shared⟩, isShared, state, added, rfl⟩
    exact ⟨c, state, ⟨⟨c, shared⟩, isShared, state, added, rfl⟩, rfl⟩
  · rintro ⟨_, _, ⟨⟨_, shared⟩, isShared, _, added, same⟩, rfl⟩
    cases same
    exact ⟨⟨_, shared⟩, isShared, _, added, rfl⟩

/-- A converted document: the runs that drew its sheets, and the record of units they left. -/
structure Converted (document : Eagle.Schematic) (c : Context) (shared : Report) (page : Page) (p : Project)
    (runs : List SheetRun) (units : UnitRecord) : Prop where
  drawn : ∃ report, SheetRuns c shared [] runs report units
  sources : runs.map (·.source) = document.sheets
  fresh : ∀ (n : Nat) (run : SheetRun), runs[n]? = some run →
    ∃ name file, run.fresh = c.newSheet name file (sheetPath runs.length n) page
  sheets : (∃ run, runs = [run] ∧ p.root = run.done.tile units ∧ p.sheets = []) ∨
    (runs.length ≠ 1 ∧ p.sheets = runs.map (·.done) ∧ ∃ base : Sheet, p.root = base.tile units ∧
      base.path = .root ∧ base.symbols = [] ∧ base.embedded = [] ∧ base.labels = [])
  symbols : p.symbols = mergeSymbols c.libraries

theorem ofDocument_ok {document : Eagle.Schematic} {library project : String} {c : Context} {shared : Report}
    (ran : Context.ofDocument document library project = .ok (c, shared)) :
    c.document = document ∧ c.netCounts = document.netCounts ∧
      convertLibraries document = .ok (c.libraries, shared) := by
  obtain ⟨⟨libraries, report⟩, found, same⟩ := bind_ok.1 ran
  cases same
  exact ⟨rfl, rfl, found⟩

/-- The drawn sheets of a document: the runs that drew them, and where they stand. -/
structure DrawnSheets (document : Eagle.Schematic) (c : Context) (shared : Report) (page : Page) (state : Conversion)
    (runs : List SheetRun) : Prop where
  drawn : SheetRuns c shared [] runs state.report state.units
  sources : runs.map (·.source) = document.sheets
  fresh : ∀ (n : Nat) (run : SheetRun), runs[n]? = some run →
    ∃ name file, run.fresh = c.newSheet name file (sheetPath runs.length n) page
  sheets : (∃ run, runs = [run] ∧ state.root = run.done ∧ state.sheets = []) ∨
    (runs.length ≠ 1 ∧ state.sheets = runs.map (·.done) ∧ state.root.path = .root ∧ state.root.symbols = [] ∧
      state.root.embedded = [] ∧ state.root.labels = [])

theorem convertSheets_ok {document : Eagle.Schematic} {project : Option String} {stem : String} {page : Page}
    {c : Context} {state : Conversion} (ran : convertSheets document project stem page = .ok (c, state)) :
    ∃ shared runs,
      Context.ofDocument document (Name.libraryName project stem) (Name.projectName project stem) = .ok (c, shared) ∧
      DrawnSheets document c shared page state runs := by
  obtain ⟨⟨_, shared⟩, isShared, ran⟩ := bind_ok.1 ran
  obtain ⟨_, added, same⟩ := bind_ok.1 ran
  cases same
  have sheets : c.document.sheets = document.sheets := by rw [(ofDocument_ok isShared).1]
  obtain ⟨none, rfl⟩ | ⟨source, desk, one, drawn, rfl⟩ | ⟨several, folded⟩ := Conversion.addSheets_ok added
  · rw [none] at sheets
    exact ⟨shared, [], isShared, .nil, sheets, by simp, .inr ⟨by simp, rfl, rfl, rfl, rfl, rfl⟩⟩
  · rw [one] at sheets
    refine ⟨shared, [⟨source, _, desk.sheet⟩], isShared, .cons drawn .nil, sheets, ?_, .inl ⟨_, rfl, rfl, rfl⟩⟩
    rintro (_ | n) run found
    · obtain rfl := Option.some.inj found
      exact ⟨_, _, rfl⟩
    · simp at found
  · obtain ⟨runs, areRuns, done, root, sources, fresh⟩ := Conversion.addSheets_fold several folded
    have count : runs.length ≠ 1 := by rwa [← List.length_map (f := (·.source)), sources]
    refine ⟨shared, runs, isShared, areRuns, sources.trans sheets, fresh,
      .inr ⟨count, by simpa using done, ?_, ?_, ?_, ?_⟩⟩
    all_goals rw [root]; rfl

theorem convert_ok {document : Eagle.Schematic} {project : Option String} {stem : String} {page : Page} {p : Project}
    (ran : convert document project stem page = .ok p) :
    ∃ c shared runs units,
      Context.ofDocument document (Name.libraryName project stem) (Name.projectName project stem) = .ok (c, shared) ∧
      Converted document c shared page p runs units := by
  obtain ⟨c, state, drawn, rfl⟩ := convert_iff.1 ran
  obtain ⟨shared, runs, isShared, drawn⟩ := convertSheets_ok drawn
  refine ⟨c, shared, runs, state.units, isShared, ⟨_, drawn.drawn⟩, drawn.sources, drawn.fresh, ?_, rfl⟩
  rcases drawn.sheets with ⟨run, one, root, none⟩ | ⟨several, sheets, base⟩
  · exact .inl ⟨run, one, by rw [root], none⟩
  · exact .inr ⟨several, sheets, state.root, rfl, base⟩

end Redraft
