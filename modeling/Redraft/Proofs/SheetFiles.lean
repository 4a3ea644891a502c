import Mathlib.Data.List.Nodup
import Std.Data.String.ToNat
import Redraft.Proofs.FileTrees
import Redraft.Proofs.UnitTiles

/-!
# Files of sheets

A sheet of several is saved under its description, or under the stem of the
document and its number. Numbered names never meet each other or the name of the
root sheet; a description may meet any name, and of the sheets with one name only
the last one is kept.
-/

namespace Redraft

/-! ## Names of files -/

namespace Name

/-- The character that stands for a character in the stem of a file name. -/
def fileChar (c : Char) : Char := if fileReserved.contains c || c = ' ' then '_' else c

theorem toList_fileSafe (s : String) :
    (fileSafe s "_").toList = s.toList.map fun c => if fileReserved.contains c then '_' else c := by
  rw [fileSafe, String.toList_join, List.flatMap_map]
  induction s.toList with
  | nil => rfl
  | cons c cs ih =>
    rw [List.flatMap_cons, ih, List.map_cons]
    split <;> simp

theorem toList_fileStem (name : String) : (fileStem name).toList = name.toList.map fileChar := by
  rw [fileStem, exchange, String.toList_ofList, toList_fileSafe, List.map_map]
  apply List.map_congr_left
  intro c _
  by_cases reserved : c ∈ fileReserved
  · simp [fileChar, reserved]
  · simp [fileChar, reserved]

theorem length_fileStem (name : String) : (fileStem name).length = name.length := by
  rw [← String.length_toList, toList_fileStem, List.length_map, String.length_toList]

theorem fileChar_of_isDigit {c : Char} (digit : c.isDigit) : fileChar c = c := by
  have allowed : c ∉ ' ' :: fileReserved := by
    intro member
    simp only [fileReserved, List.mem_cons, List.not_mem_nil, or_false] at member
    rcases member with rfl | rfl | rfl | rfl | rfl | rfl | rfl | rfl <;> cases digit
  rw [List.mem_cons, not_or] at allowed
  simp [fileChar, allowed.1, allowed.2]

/-- The digits of a number stay in the stem of a file name. -/
theorem fileStem_numbered (stem : String) (n : Nat) :
    fileStem (stem ++ "_" ++ n.repr) = fileStem stem ++ "_" ++ n.repr := by
  have digits : n.repr.toList.map fileChar = n.repr.toList := by
    rw [Nat.repr_eq_ofList_toDigits, String.toList_ofList]
    refine (List.map_congr_left fun c member => ?_).trans (List.map_id _)
    exact fileChar_of_isDigit (Nat.isDigit_of_mem_toDigits (by decide) (by decide) member)
  apply String.toList_inj.1
  rw [toList_fileStem, String.toList_append, String.toList_append, List.map_append, List.map_append, digits,
    String.toList_append, String.toList_append, toList_fileStem]
  rfl

end Name

/-- The sheet has a description to be named by. -/
def Eagle.Sheet.described (e : Eagle.Sheet) : Bool := e.description.any (!·.isEmpty)

/-- The stem of the file of a sheet, the number of which counts from zero. -/
def sheetStem (stem : String) (e : Eagle.Sheet) (n : Nat) : String :=
  Name.fileStem (Name.sheetName e.description stem (n + 1 : Nat))

section Stems
variable {stem : String} {e e' : Eagle.Sheet} {n m : Nat}

theorem sheetStem_numbered (plain : e.described = false) :
    sheetStem stem e n = Name.fileStem stem ++ "_" ++ (n + 1).repr := by
  have name : Name.sheetName e.description stem (n + 1 : Nat) = stem ++ "_" ++ (n + 1).repr := by
    unfold Eagle.Sheet.described at plain
    cases description : e.description with
    | none => rfl
    | some d =>
      rw [description] at plain
      have empty : d.isEmpty = true := by simpa using plain
      simp only [Name.sheetName, empty, if_true]
      rfl
  rw [sheetStem, name, Name.fileStem_numbered]

theorem sheetStem_ne_of_numbered (plain : e.described = false) (plain' : e'.described = false) (apart : m ≠ n) :
    sheetStem stem e' m ≠ sheetStem stem e n := by
  rw [sheetStem_numbered plain, sheetStem_numbered plain']
  intro same
  have digits := Nat.repr_injective ((String.append_right_inj _).1 same)
  exact apart (Nat.succ.inj digits)

/-- A numbered stem is longer than the stem of the document. -/
theorem sheetStem_ne_stem (plain : e.described = false) : sheetStem stem e n ≠ stem := by
  rw [sheetStem_numbered plain]
  intro same
  have length := congrArg String.length same
  rw [String.length_append, String.length_append, Name.length_fileStem] at length
  have mark : "_".length = 1 := rfl
  omega

end Stems

/-- No described sheet shares the stem of its file with another sheet or with the document. -/
def Eagle.Schematic.NamedApart (document : Eagle.Schematic) (stem : String) : Prop :=
  ∀ n e, document.sheets[n]? = some e → e.described → sheetStem stem e n ≠ stem ∧
    ∀ m e', m ≠ n → document.sheets[m]? = some e' → sheetStem stem e' m ≠ sheetStem stem e n

section Named
variable {document : Eagle.Schematic} {stem : String} {e e' : Eagle.Sheet} {n m : Nat}

theorem Eagle.Schematic.NamedApart.ne_stem (apart : document.NamedApart stem) (here : document.sheets[n]? = some e) :
    sheetStem stem e n ≠ stem := by
  cases described : e.described with
  | true => exact (apart n e here described).1
  | false => exact sheetStem_ne_stem described

theorem Eagle.Schematic.NamedApart.ne (apart : document.NamedApart stem) (here : document.sheets[n]? = some e)
    (there : document.sheets[m]? = some e') (ne : m ≠ n) : sheetStem stem e' m ≠ sheetStem stem e n := by
  cases described : e.described with
  | true => exact (apart n e here described).2 m e' ne there
  | false =>
    cases described' : e'.described with
    | true => exact ((apart m e' there described').2 n e ne.symm here).symm
    | false => exact sheetStem_ne_of_numbered described described' ne

/-- The stems of the files of several sheets. -/
def Eagle.Schematic.sheetStems (document : Eagle.Schematic) (stem : String) : List String :=
  document.sheets.mapIdx fun n e => sheetStem stem e n

theorem getElem?_sheetStems (n : Nat) :
    (document.sheetStems stem)[n]? = document.sheets[n]?.map fun e => sheetStem stem e n := by
  rw [Eagle.Schematic.sheetStems, List.getElem?_mapIdx]

theorem stems_nodup_iff (document : Eagle.Schematic) (stem : String) :
    (stem :: document.sheetStems stem).Nodup ↔ document.NamedApart stem := by
  rw [List.nodup_cons, List.nodup_iff_getElem?_ne_getElem?]
  constructor
  · rintro ⟨fresh, apart⟩ n e isSheet _
    have found {n : Nat} {e : Eagle.Sheet} (isSheet : document.sheets[n]? = some e) :
        (document.sheetStems stem)[n]? = some (sheetStem stem e n) := by
      rw [getElem?_sheetStems, isSheet, Option.map_some]
    have here := found isSheet
    constructor
    · intro same
      rw [same] at here
      exact fresh (List.mem_of_getElem? here)
    intro m e' ne isSheet' same
    have there := found isSheet'
    rcases Nat.lt_or_gt_of_ne ne with before | after
    · exact apart m n before (List.getElem?_eq_some_iff.1 here).1 (by rw [here, there, same])
    · exact apart n m after (List.getElem?_eq_some_iff.1 there).1 (by rw [here, there, same])
  · intro apart
    constructor
    · intro member
      obtain ⟨n, here⟩ := List.mem_iff_getElem?.1 member
      rw [getElem?_sheetStems, Option.map_eq_some_iff] at here
      obtain ⟨e, isSheet, same⟩ := here
      exact apart.ne_stem isSheet same
    · intro n m before inside same
      obtain ⟨x, there⟩ : ∃ x, (document.sheetStems stem)[m]? = some x := ⟨_, List.getElem?_eq_getElem inside⟩
      have here := same.trans there
      rw [getElem?_sheetStems, Option.map_eq_some_iff] at here there
      obtain ⟨e, isSheet, rfl⟩ := here
      obtain ⟨e', isSheet', same⟩ := there
      exact apart.ne isSheet isSheet' (Nat.ne_of_gt before) same

end Named

/-! ## Files of a converted document -/

theorem Sheet.tile_file (s : Sheet) (record : UnitRecord) : (s.tile record).file = s.file := by
  refine Sheet.tile_keeps (·.file = s.file) (fun t part unit position _ same => ?_) rfl
  rw [← same, addMissing_rest]

/-- The file of a sheet of several is named by its stem. -/
theorem SheetRuns.files {c : Context} {report report' : Report} {units units' : UnitRecord} {runs : List SheetRun}
    {stem : String} {page : Page} {entries : List (Eagle.Sheet × Nat)}
    (drawn : SheetRuns c report units runs report' units')
    (fresh : List.Forall₂ (fun entry run => run.source = entry.1 ∧
      run.fresh = Conversion.freshSheet c stem page entry) entries runs) :
    runs.map (·.done.file) = entries.map fun (e, n) => sheetStem stem e n ++ ".kicad_sch" := by
  have each : List.Forall₂ (· = ·) (entries.map fun (e, n) => sheetStem stem e n ++ ".kicad_sch")
      (runs.map (·.done.file)) := by
    rw [List.forall₂_map_left_iff, List.forall₂_map_right_iff]
    induction fresh generalizing report units with
    | nil => exact .nil
    | cons first _ ih =>
      cases drawn with
      | cons ran rest =>
        refine .cons ?_ (ih rest)
        rw [ends_drawSheet_file ran]
        exact (congrArg Sheet.file first.2).symm
  rw [List.forall₂_eq_eq_eq] at each
  exact each.symm

/-- The stems of the files of all sheets of a converted document, the root sheet first. -/
def Eagle.Schematic.allStems (document : Eagle.Schematic) (stem : String) : List String :=
  if document.sheets.length = 1 then [stem] else stem :: document.sheetStems stem

theorem convert_files {document : Eagle.Schematic} {project : Option String} {stem : String} {page : Page}
    {p : Project} (ran : convert document project stem page = .ok p) :
    p.allSheets.map (·.file) = (document.allStems stem).map (· ++ ".kicad_sch") := by
  obtain ⟨c, state, converted, rfl⟩ := convert_iff.1 ran
  obtain ⟨⟨_, shared⟩, isShared, rest⟩ := bind_ok.1 converted
  obtain ⟨_, added, same⟩ := bind_ok.1 rest
  cases same
  have sheets : c.document.sheets = document.sheets := by rw [(ofDocument_ok isShared).1]
  rw [Project.allSheets, List.map_cons, Sheet.tile_file]
  unfold Eagle.Schematic.allStems Eagle.Schematic.sheetStems
  rw [← sheets]
  obtain ⟨none, rfl⟩ | ⟨source, desk, one, drawn, rfl⟩ | ⟨several, folded⟩ := Conversion.addSheets_ok added
  · rw [none]
    rfl
  · rw [one, if_pos (show [source].length = 1 from rfl), ends_drawSheet_file drawn]
    rfl
  · obtain ⟨runs, areRuns, done, root, fresh⟩ := Conversion.addSheet_fold folded
    rw [if_neg several, List.map_cons, done, root, List.nil_append, List.map_map, List.mapIdx_eq_zipIdx_map, List.map_map]
    congr 1
    exact areRuns.files fresh

/-- The files of a converted document have different names just if no described sheet shares its stem. -/
theorem files_nodup_iff {document : Eagle.Schematic} {project : Option String} {stem : String} {page : Page}
    {p : Project} (ran : convert document project stem page = .ok p) :
    (p.allSheets.map (·.file)).Nodup ↔ document.sheets.length = 1 ∨ document.NamedApart stem := by
  have injective : Function.Injective fun s : String => s ++ ".kicad_sch" := fun _ _ => (String.append_left_inj _).1
  rw [convert_files ran, List.nodup_map_iff injective]
  unfold Eagle.Schematic.allStems
  split
  · rename_i one
    simp [one]
  · rename_i several
    rw [stems_nodup_iff]
    simp [several]

/-! ## Names of a project's files -/

namespace Name

theorem Plain.of_stem {stem ending : String} (bare : '/' ∉ stem.toList) (ending_bare : '/' ∉ ending.toList)
    (long : 2 < ending.length) : Plain (stem ++ ending) := by
  constructor
  · rw [String.toList_append, List.mem_append]
    exact not_or.2 ⟨bare, ending_bare⟩
  · rw [String.length_append]
    omega

theorem fileStem_bare (name : String) : '/' ∉ (fileStem name).toList := by
  rw [toList_fileStem, List.mem_map]
  rintro ⟨c, _, slash⟩
  unfold fileChar at slash
  split at slash
  · cases slash
  · rename_i allowed
    subst slash
    exact allowed (by decide)

theorem librarySafe_bare (s : String) : '/' ∉ (librarySafe s).toList := by
  rw [librarySafe, String.toList_ofList, List.mem_map]
  rintro ⟨c, _, slash⟩
  split at slash
  · cases slash
  · rename_i allowed
    subst slash
    exact allowed (by decide)

theorem bare_of_mem_splitOn {cs part : List Char} (member : part ∈ cs.splitOn '/') : '/' ∉ part := by
  induction cs generalizing part with
  | nil =>
    rw [List.splitOn_nil, List.mem_singleton] at member
    simp [member]
  | cons c rest ih =>
    rw [List.splitOn_cons_eq_if_modifyHead] at member
    split at member
    · rcases List.mem_cons.1 member with rfl | member
      · simp
      · exact ih member
    · rename_i other
      cases parts : rest.splitOn '/' with
      | nil => exact absurd parts (List.splitOn_ne_nil '/' rest)
      | cons first others =>
        rw [parts, List.modifyHead_cons, List.mem_cons] at member
        rw [parts] at ih
        rcases member with rfl | member
        · have apart : '/' ≠ c := by
            rintro rfl
            exact other (beq_self_eq_true '/')
          exact List.not_mem_cons_of_ne_of_not_mem apart (ih List.mem_cons_self)
        · exact ih (List.mem_cons_of_mem first member)

theorem steps_bare {path part : String} (member : part ∈ steps path) : '/' ∉ part.toList := by
  obtain ⟨cs, found, rfl⟩ := List.mem_map.1 member
  rw [String.toList_ofList]
  exact bare_of_mem_splitOn found

theorem withoutExtension_bare {name : String} (bare : '/' ∉ name.toList) : '/' ∉ (withoutExtension name).toList := by
  unfold withoutExtension
  dsimp only
  split
  · exact bare
  · rw [String.toList_ofList]
    exact fun member => bare (List.mem_of_mem_take member)

/-- The stem of a path holds no slash. -/
theorem stem_bare (path : String) : '/' ∉ (stem path).toList := by
  unfold stem
  split
  · rename_i name last
    have member := List.mem_of_getLast? last
    exact withoutExtension_bare (steps_bare (List.mem_of_mem_filter member))
  · simp

end Name

section Convert
variable {document : Eagle.Schematic} {project : Option String} {input : String} {page : Page} {p : Project}

theorem convert_sheet_file (converted : convert document project (Name.stem input) page = .ok p) {s : Sheet}
    (member : s ∈ p.allSheets) : ∃ stem : String, '/' ∉ stem.toList ∧ s.file = stem ++ ".kicad_sch" := by
  have file : s.file ∈ p.allSheets.map (·.file) := List.mem_map_of_mem member
  rw [convert_files converted] at file
  obtain ⟨stem, isStem, same⟩ := List.mem_map.1 file
  refine ⟨stem, ?_, same.symm⟩
  unfold Eagle.Schematic.allStems Eagle.Schematic.sheetStems at isStem
  have bare := Name.stem_bare input
  split at isStem
  · rwa [List.mem_singleton.1 isStem]
  · rcases List.mem_cons.1 isStem with rfl | isStem
    · exact bare
    · obtain ⟨n, inside, rfl⟩ := List.mem_mapIdx.1 isStem
      exact Name.fileStem_bare _

theorem convert_library (converted : convert document project (Name.stem input) page = .ok p) :
    p.library = Name.libraryName project (Name.stem input) := by
  obtain ⟨c, state, _, rfl⟩ := convert_iff.1 converted
  rfl

theorem convert_plain (converted : convert document project (Name.stem input) page = .ok p) (row : Row) :
    ∀ f ∈ p.files ++ [(tableFile, row)], Name.Plain f.1 := by
  intro f member
  simp only [Project.files, List.mem_append, List.mem_map, List.mem_singleton] at member
  rcases member with (⟨s, isSheet, rfl⟩ | rfl) | rfl
  · obtain ⟨stem, bare, file⟩ := convert_sheet_file converted isSheet
    dsimp only
    rw [file]
    exact .of_stem bare (by decide) (by decide)
  · unfold Project.symbolsFile
    rw [convert_library converted]
    exact .of_stem (Name.librarySafe_bare _) (by decide) (by decide)
  · change Name.Plain tableFile
    exact ⟨by decide, by decide⟩

/-- The endings of their names keep the other files of a project apart from its sheets. -/
theorem convert_apart (converted : convert document project (Name.stem input) page = .ok p) {s : Sheet}
    (member : s ∈ p.allSheets) : s.file ≠ p.symbolsFile ∧ s.file ≠ tableFile := by
  have last (stem : String) : (stem ++ ".kicad_sch").toList.getLast? = some 'h' := by
    rw [String.toList_append, List.getLast?_append]
    rfl
  obtain ⟨stem, _, file⟩ := convert_sheet_file converted member
  constructor
  · intro same
    have ended := last stem
    rw [← file, same, Project.symbolsFile, String.toList_append, List.getLast?_append] at ended
    cases ended
  · intro same
    have ended := last stem
    rw [← file, same] at ended
    cases ended

open Command Command.FileTree in
/-- The files of all sheets differ just if no described sheet shares its stem. Of the
    sheets with one file name a save keeps the last one. -/
theorem convert_sheet_files (converted : convert document project (Name.stem input) page = .ok p) :
    ((p.allSheets.map (·.file)).Nodup ↔
      document.sheets.length = 1 ∨ document.NamedApart (Name.stem input)) ∧
    ∀ {name : Identity → String} {directory : String} {tree tree' : FileTree} {paths : List String},
      Saves (saveProject (disk name) directory p) tree paths tree' →
      paths = (p.allSheets.map fun s => joinPath directory s.file) ++
        [joinPath directory p.symbolsFile, joinPath directory tableFile] ∧
      ∀ before s after, p.allSheets = before ++ s :: after → (∀ s' ∈ after, s'.file ≠ s.file) →
        tree'.read name (joinPath directory s.file) = .ok ((Content.row s.fileRow).toBytes name) := by
  refine ⟨files_nodup_iff converted, fun {name directory tree tree' paths} saved => ?_⟩
  obtain ⟨made, table, written, rfl⟩ := saveProject_ok saved
  constructor
  · simp [Project.files, Function.comp_def]
  intro before s after split last
  have isSheet : s ∈ p.allSheets := by
    rw [split]
    exact List.mem_append_right before List.mem_cons_self
  have plain := convert_plain converted (p.addTo table).fileRow
  unfold Project.files at written plain
  rw [split, List.map_append, List.map_cons, List.append_assoc, List.append_assoc, List.cons_append] at written plain
  have holds : tree'.Holds (joinPath directory s.file) s.file (.row s.fileRow) := by
    refine writeFiles_holds plain ?_ written
    intro f member
    simp only [List.mem_append, List.mem_map, List.mem_singleton] at member
    rcases member with ⟨s', later, rfl⟩ | rfl | rfl
    · exact (last s' later).symm
    · exact (convert_apart converted isSheet).1
    · exact (convert_apart converted isSheet).2
  exact holds.read (plain _ (List.mem_append_right _ List.mem_cons_self)) name

end Convert

/-! ## Two sheets -/

/-- A document of two empty sheets with descriptions. -/
def twoSheets (first second : String) : Eagle.Schematic where
  sheets := [⟨some first, [], [], [], []⟩, ⟨some second, [], [], [], []⟩]

/-- Two sheets of one description are written to one file. -/
theorem not_all_sheet_files_apart : ¬ ∀ (document : Eagle.Schematic) (project : Option String) (input : String)
    (page : Page) (p : Project), convert document project (Name.stem input) page = .ok p →
    (p.allSheets.map (·.file)).Nodup := by
  intro claim
  have checked : (convert (twoSheets "A" "A") none (Name.stem "demo.sch") ⟨some "A4", ⟨2970000, 2100000⟩⟩).toOption.any
      (fun p => ! decide (p.allSheets.map (·.file)).Nodup) = true := by decide +kernel
  obtain ⟨p, converted, shared⟩ := (Option.any_eq_true ..).1 checked
  have apart := claim _ _ _ _ p (ok_of_toOption converted)
  simp [apart] at shared

open Command Command.FileTree in
/-- Sheets of two descriptions are saved to files of their own. -/
theorem twoSheets_saved : ∃ p paths tree',
    convert (twoSheets "A" "B") none (Name.stem "demo.sch") ⟨some "A4", ⟨2970000, 2100000⟩⟩ = .ok p ∧
    Saves (saveProject (disk fun _ => "") "out" p) {} paths tree' ∧
    (p.allSheets.map (·.file)).Nodup ∧ ∀ s ∈ p.allSheets,
      tree'.read (fun _ => "") (joinPath "out" s.file) = .ok ((Content.row s.fileRow).toBytes fun _ => "") := by
  have checked : (convert (twoSheets "A" "B") none (Name.stem "demo.sch") ⟨some "A4", ⟨2970000, 2100000⟩⟩).toOption.any
      (fun p => (outcome (saveProject (disk fun _ => "") "out" p) {}).1.toBool) = true := by decide +kernel
  obtain ⟨p, found, saves⟩ := (Option.any_eq_true ..).1 checked
  have converted := ok_of_toOption found
  have named : (twoSheets "A" "B").NamedApart (Name.stem "demo.sch") :=
    (stems_nodup_iff _ _).1 (by decide +kernel)
  have apart := (convert_sheet_files converted).1.2 (.inr named)
  rcases ran : outcome (saveProject (disk fun _ => "") "out" p) {} with ⟨failure | paths, tree'⟩
  · rw [ran] at saves
    cases saves
  refine ⟨p, paths, tree', converted, ran, apart, fun s member => ?_⟩
  obtain ⟨before, after, split⟩ := List.append_of_mem member
  refine ((convert_sheet_files converted).2 ran).2 before s after split fun s' later same => ?_
  rw [split, List.map_append, List.map_cons] at apart
  have fresh := (List.nodup_cons.1 (List.nodup_append.1 apart).2.1).1
  exact fresh (List.mem_map.2 ⟨s', later, same⟩)

end Redraft
