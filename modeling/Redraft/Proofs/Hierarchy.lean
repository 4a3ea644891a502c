import Mathlib.Data.List.Nodup
import Redraft.File.Sheets
import Redraft.Proofs.MissingUnits
import Redraft.Proofs.SheetIndependence

/-!
# The hierarchy of a converted document

A converted document refers to its own parts: a block of the root sheet to a
file, a placed symbol to the symbol embedded under its name and to the one in
the symbol library, its instance to its fields. Sheets are drawn, and missing
units added, by steps that embed a symbol and place one of its units; these
keep all references whole.
-/

namespace Redraft

/-- The names of some symbols. -/
def symbolNames (symbols : List Symbol) : List String := symbols.map (·.name)

theorem mem_symbolNames_of_firstNamed {symbols : List Symbol} {name : String} {symbol : Symbol}
    (found : firstNamed symbols name = some symbol) : name ∈ symbolNames symbols := by
  rw [← firstNamed_name found]
  exact List.mem_map_of_mem (List.mem_of_find?_eq_some found)

/-! ## Fields of a placed symbol -/

theorem fieldOf?_map {α : Type} {f : Field α → Field α} (keeps : ∀ g, (f g).key = g.key) (fields : List (Field α))
    (key : String) : fieldOf? (fields.map f) key = (fieldOf? fields key).map f := by
  unfold fieldOf?
  rw [List.find?_map]
  simp only [Function.comp_def, keeps]

/-- The instance of a symbol has the reference that its field has, and its fields are numbered. -/
structure PlacedSymbol.WellMade (x : PlacedSymbol) : Prop where
  reference : (fieldOf? x.fields "Reference").map (·.value) = some x.reference
  ids : x.fields.map (·.id) = List.range x.fields.length

namespace PlacedSymbol
variable {x y : PlacedSymbol}

theorem WellMade.fieldValue (made : x.WellMade) : x.fieldValue "Reference" = x.reference := by
  rw [PlacedSymbol.fieldValue, made.reference]
  rfl

/-- Fields may be moved and laid out again. -/
theorem WellMade.map_fields (made : x.WellMade) {f : Field Point → Field Point}
    (keeps : ∀ g, (f g).key = g.key ∧ (f g).value = g.value ∧ (f g).id = g.id) (fields : y.fields = x.fields.map f)
    (reference : y.reference = x.reference) : y.WellMade := by
  constructor
  · rw [fields, fieldOf?_map fun g => (keeps g).1, Option.map_map, reference, ← made.reference]
    congr 1
    funext g
    exact (keeps g).2.1
  · rw [fields, List.map_map, List.length_map, ← made.ids]
    exact List.map_congr_left fun g _ => (keeps g).2.2

theorem WellMade.move (made : x.WellMade) (d : Point) : (x.move d).WellMade :=
  made.map_fields (f := (·.move d)) (fun _ => ⟨rfl, rfl, rfl⟩) rfl rfl

end PlacedSymbol

theorem numberFields_ids (fields : List (Field Point)) :
    (numberFields fields).map (·.id) = List.range (numberFields fields).length := by
  have ids : (numberFields fields).map (·.id) = fields.zipIdx.map Prod.snd := by
    rw [numberFields, List.map_map]
    rfl
  rw [ids, List.zipIdx_map_snd, numberFields, List.length_map, List.length_zipIdx, List.range_eq_range']

theorem placeSymbol_wellMade {path : SheetPath} {number : Nat} {i : Eagle.Instance} {r : Resolved}
    {placement : Placement} {x : PlacedSymbol} (made : placeSymbol path number i r placement = .ok x)
    (there : "Reference" ∈ r.symbol.fields.map (·.key)) : x.WellMade := by
  obtain ⟨fields, isMade, same⟩ := bind_ok.1 made
  cases same
  refine ⟨instanceFields_reference isMade there, ?_⟩
  obtain ⟨applied, _, same⟩ := bind_ok.1 isMade
  cases same
  exact numberFields_ids _

theorem Field.layOut_id (source : Symbol) (placement : Placement) (f : Field Point) :
    (f.layOut source placement).id = f.id := by
  unfold layOut
  split <;> rfl

theorem PartUnits.unitSymbol_wellMade {part : PartUnits} (made : part.symbol.WellMade) (unit : Nat) (path : SheetPath)
    (position : Point) : (part.unitSymbol unit path position).WellMade := by
  refine made.map_fields (f := (·.layOut part.source ⟨position, .zero, .plain⟩)) (fun g => ?_) rfl ?_
  · obtain ⟨key, value⟩ := Prod.mk.inj (g.layOut_value part.source ⟨position, .zero, .plain⟩)
    exact ⟨key, value, g.layOut_id _ _⟩
  · rw [← made.fieldValue, ← part.unitSymbol_fieldValue unit path position]
    rfl

/-! ## Sheets -/

/-- All that the symbols of a sheet refer to is there, once each. -/
structure Sheet.Whole (s : Sheet) (library : List Symbol) : Prop where
  distinct : (symbolNames s.embedded).Nodup
  embedded : ∀ x ∈ s.symbols, x.name ∈ symbolNames s.embedded
  listed : ∀ x ∈ s.symbols, x.name ∈ symbolNames library
  made : ∀ x ∈ s.symbols, x.WellMade
  paths : ∀ x ∈ s.symbols, x.path = s.path

/-- A recorded part can be placed again. -/
structure PartUnits.Whole (library : List Symbol) (x : PlacedSymbol) (source : Symbol) : Prop where
  name : x.name = source.name
  listed : x.name ∈ symbolNames library
  made : x.WellMade

def UnitRecord.Whole (record : UnitRecord) (library : List Symbol) : Prop :=
  ∀ entry ∈ record, PartUnits.Whole library entry.2.symbol entry.2.source

namespace Sheet
variable {s t : Sheet} {library : List Symbol} {x : PlacedSymbol}

theorem symbol?_isSome {name : String} : (s.symbol? name).isSome ↔ name ∈ symbolNames s.embedded := by
  simp [symbol?, symbolNames, List.find?_isSome]

/-- A symbol is embedded under a new name, or one of its name is there. -/
theorem embed_names (s : Sheet) (source : Symbol) : symbolNames (s.embed source).embedded =
    if source.name ∈ symbolNames s.embedded then symbolNames s.embedded
    else symbolNames s.embedded ++ [source.name] := by
  unfold embed
  simp only [symbol?_isSome]
  split
  · rfl
  · simp [symbolNames]

theorem Whole.empty (none : s.symbols = []) (none' : s.embedded = []) : s.Whole library := by
  constructor <;> simp [none, none', symbolNames]

/-- A symbol is added with the library symbol that it stands for. -/
theorem Whole.add (whole : s.Whole library) (source : Symbol) (embedded : t.embedded = (s.embed source).embedded)
    (symbols : t.symbols = s.symbols ++ [x]) (path : t.path = s.path) (part : PartUnits.Whole library x source)
    (here : x.path = s.path) : t.Whole library := by
  have names := s.embed_names source
  rw [← embedded] at names
  have kept (name : String) (member : name ∈ symbolNames s.embedded) : name ∈ symbolNames t.embedded := by
    rw [names]
    split
    · exact member
    · exact List.mem_append_left _ member
  have added : x.name ∈ symbolNames t.embedded := by
    rw [names, part.name]
    split
    · rename_i there
      exact there
    · exact List.mem_append_right _ (.head _)
  have each {P : PlacedSymbol → Prop} (old : ∀ y ∈ s.symbols, P y) (new : P x) : ∀ y ∈ t.symbols, P y := by
    intro y member
    rw [symbols] at member
    rcases List.mem_append.1 member with there | last
    · exact old y there
    · rw [List.mem_singleton.1 last]
      exact new
  constructor
  · rw [names]
    split
    · exact whole.distinct
    · rename_i absent
      refine List.nodup_append.2 ⟨whole.distinct, by simp, ?_⟩
      rintro name member other last rfl
      rw [List.mem_singleton.1 last] at member
      exact absent member
  · exact each (fun y member => kept _ (whole.embedded y member)) added
  · exact each whole.listed part.listed
  · exact each whole.made part.made
  · rw [path]
    exact each whole.paths here

theorem Whole.finish (whole : s.Whole library) (symbols : List PlacedSymbol) : (s.finish symbols).Whole library := by
  have each {P : PlacedSymbol → Prop} (moved : ∀ y ∈ s.symbols, P (y.move s.shift)) :
      ∀ y ∈ (s.finish symbols).symbols, P y := by
    rw [finish_symbols]
    exact List.forall_mem_map.2 moved
  constructor
  · exact whole.distinct
  · exact each whole.embedded
  · exact each whole.listed
  · exact each fun y member => (whole.made y member).move _
  · exact each whole.paths

theorem Whole.addMissing {part : PartUnits} (whole : s.Whole library)
    (isPart : PartUnits.Whole library part.symbol part.source) (unit : Nat) (position : Point) :
    (s.addMissing part unit position).Whole library := by
  refine whole.add part.source rfl (s.addMissing_symbols part unit position) ?_ ⟨isPart.name, isPart.listed, ?_⟩ rfl
  · rw [addMissing_rest]
  · exact part.unitSymbol_wellMade isPart.made unit s.path position

theorem Whole.tile {record : UnitRecord} (whole : s.Whole library) (recorded : record.Whole library) :
    (s.tile record).Whole library := by
  refine tile_keeps (·.Whole library) (fun s part unit position member whole => ?_) whole
  obtain ⟨entry, isEntry, missing⟩ := List.mem_flatMap.1 member
  obtain ⟨_, _, same⟩ := List.mem_map.1 missing
  obtain ⟨rfl, rfl⟩ := Prod.mk.inj same
  exact whole.addMissing (recorded entry isEntry) _ _

end Sheet

/-! ## Drawn sheets -/

/-- What an instance stands for is in the symbol library and has a reference. -/
def Context.Lists (c : Context) (library : List Symbol) : Prop :=
  ∀ i r, c.resolve i = .ok r → r.symbol.name ∈ symbolNames library ∧ "Reference" ∈ r.symbol.fields.map (·.key)

section Drawn
open Drafting
variable {c : Context} {library : List Symbol} {e : Eagle.Sheet} {d d' : Desk}

theorem ends_drawContent_whole (ran : Ends (drawContent c e) d () d') (lists : c.Lists library)
    (whole : d.sheet.Whole library) : d'.sheet.Whole library ∧ d'.units = d.units := by
  obtain ⟨placed, isPlaced, rest, units⟩ := ends_drawContent_placed ran
  have here : placed.sheet.Whole library := by
    refine ends_instances_keeps (·.Whole library) ?_ whole isPlaced
    intro s i r placement x resolved made whole
    obtain ⟨listed, there⟩ := lists i r resolved
    have isAt := placeSymbol_at made
    refine whole.add r.symbol rfl (s.place_symbols ⟨x, r⟩) (s.place_path ⟨x, r⟩) ?_ ?_
    · exact ⟨isAt.name, isAt.name ▸ listed, placeSymbol_wellMade made there⟩
    · obtain ⟨_, _, same⟩ := bind_ok.1 made
      cases same
      rfl
  obtain ⟨_, _, _, _, unitsPlaced⟩ := ends_instances isPlaced
  refine ⟨?_, units.trans unitsPlaced⟩
  rw [rest]
  exact ⟨here.distinct, here.embedded, here.listed, here.made, here.paths⟩

/-- Drawing a sheet keeps it whole, and the record of units with it. -/
theorem ends_drawSheet_whole (ran : Ends (drawSheet c e) d () d') (lists : c.Lists library)
    (whole : d.sheet.Whole library) (recorded : d.units.Whole library) :
    d'.sheet.Whole library ∧ d'.units.Whole library := by
  obtain ⟨content, drawn, finished, record⟩ := ends_drawSheet ran
  obtain ⟨whole, units⟩ := ends_drawContent_whole drawn lists whole
  refine ⟨finished ▸ whole.finish _, ?_⟩
  rw [record, units]
  refine Sheet.foldl_recordUnit_keeps (P := PartUnits.Whole library) recorded fun x member source found => ?_
  have there := List.mem_of_mem_drop member
  exact ⟨(firstNamed_name found).symm, whole.listed x there, whole.made x there⟩

/-- Drawing a sheet keeps its names and its path, and adds no blocks. -/
theorem ends_drawSheet_names (ran : Ends (drawSheet c e) d () d') :
    d'.sheet.name = d.sheet.name ∧ d'.sheet.file = d.sheet.file ∧ d'.sheet.path = d.sheet.path ∧
      d'.sheet.blocks.length = d.sheet.blocks.length := by
  obtain ⟨content, drawn, finished, _⟩ := ends_drawSheet ran
  obtain ⟨placed, isPlaced, rest, _⟩ := ends_drawContent_placed drawn
  obtain ⟨_, _, _, place, _⟩ := ends_instances isPlaced
  rw [place.rest] at rest
  rw [finished]
  refine ⟨?_, ?_, ?_, ?_⟩
  · change content.sheet.name = d.sheet.name
    rw [rest]
  · change content.sheet.file = d.sheet.file
    rw [rest]
  · change content.sheet.path = d.sheet.path
    rw [rest]
  · change (content.sheet.blocks.map (·.move content.sheet.shift)).length = d.sheet.blocks.length
    rw [List.length_map, rest]

theorem SheetRuns.whole {report report' : Report} {units units' : UnitRecord} {runs : List SheetRun}
    (drawn : SheetRuns c report units runs report' units') (lists : c.Lists library)
    (fresh : ∀ run ∈ runs, run.fresh.Whole library) (recorded : units.Whole library) :
    (∀ run ∈ runs, run.done.Whole library) ∧ units'.Whole library := by
  induction drawn with
  | nil => exact ⟨by simp, recorded⟩
  | cons ran _ ih =>
    obtain ⟨first, others⟩ := List.forall_mem_cons.1 fresh
    obtain ⟨here, recorded⟩ := ends_drawSheet_whole ran lists first recorded
    obtain ⟨later, recorded⟩ := ih others recorded
    exact ⟨List.forall_mem_cons.2 ⟨here, later⟩, recorded⟩

end Drawn

/-! ## The whole document -/

section Document
open Drafting
variable {document : Eagle.Schematic} {c : Context} {shared : Report} {page : Page} {p : Project}
  {runs : List SheetRun} {units : UnitRecord} {project : Option String} {stem : String}

/-- What a part stands for in a library is in the merged one. -/
theorem ofDocument_lists {library name : String}
    (isShared : Context.ofDocument document library name = .ok (c, shared)) :
    c.Lists (mergeSymbols c.libraries) := by
  intro i r resolved
  have found := resolve_symbolOf isShared resolved
  refine ⟨?_, symbolOf_reference found⟩
  obtain ⟨source, isSource, named⟩ := Option.bind_eq_some_iff.1 found
  have member : r.symbol ∈ document.translations :=
    List.mem_flatMap.2 ⟨_, Entries.mem_of_get? isSource, List.mem_reverse.1 (List.mem_of_find?_eq_some named)⟩
  obtain ⟨last, isLast⟩ : ∃ last, lastNamed document.translations r.symbol.name = some last := by
    apply Option.isSome_iff_exists.1
    rw [lastNamed, firstNamed, List.find?_isSome]
    exact ⟨r.symbol, List.mem_reverse.2 member, beq_self_eq_true _⟩
  obtain ⟨_, _, libraries⟩ := ofDocument_ok isShared
  have merged : firstNamed (mergeSymbols c.libraries) r.symbol.name = some last :=
    (mergeSymbols_named (convertLibraries_ok libraries) _).trans isLast
  exact mem_symbolNames_of_firstNamed merged

theorem Converted.whole (converted : Converted document c shared page p runs units)
    (lists : c.Lists p.symbols) : ∀ s ∈ p.allSheets, s.Whole p.symbols := by
  obtain ⟨report, drawn⟩ := converted.drawn
  have fresh : ∀ run ∈ runs, run.fresh.Whole p.symbols := by
    intro run member
    obtain ⟨n, found⟩ := List.mem_iff_getElem?.1 member
    obtain ⟨_, _, same⟩ := converted.fresh n run found
    rw [same]
    exact .empty rfl rfl
  obtain ⟨done, recorded⟩ := drawn.whole lists fresh (by simp [UnitRecord.Whole])
  intro s member
  rcases converted.sheets with ⟨run, rfl, root, none⟩ | ⟨_, sheets, base, root, _, symbols, embedded, _⟩
  · rw [Project.allSheets, none, List.mem_singleton] at member
    rw [member, root]
    exact (done run (.head _)).tile recorded
  · rw [Project.allSheets, sheets] at member
    rcases List.mem_cons.1 member with rfl | child
    · rw [root]
      exact (Sheet.Whole.empty symbols embedded).tile recorded
    · obtain ⟨run, isRun, rfl⟩ := List.mem_map.1 child
      exact done run isRun

theorem Converted.paths (converted : Converted document c shared page p runs units) :
    p.root.path = .root ∧ ∀ (i : Nat) (s : Sheet), p.sheets[i]? = some s → s.path = .block (i + 1) := by
  obtain ⟨report, drawn⟩ := converted.drawn
  have path (i : Nat) (run : SheetRun) (found : runs[i]? = some run) : run.done.path = sheetPath runs.length i := by
    obtain ⟨name, file, fresh⟩ := converted.fresh i run found
    obtain ⟨_, _, done, ran, isDone⟩ := drawn.each (List.mem_of_getElem? found)
    rw [← isDone, (ends_drawSheet_names ran).2.2.1, fresh]
    rfl
  rcases converted.sheets with ⟨run, rfl, root, none⟩ | ⟨several, sheets, base, root, isRoot, _⟩
  · rw [root, (run.done.tile_symbols units).1, path 0 run rfl, none]
    exact ⟨rfl, by simp⟩
  · rw [root, (base.tile_symbols units).1, sheets]
    refine ⟨isRoot, fun i s found => ?_⟩
    rw [List.getElem?_map, Option.map_eq_some_iff] at found
    obtain ⟨run, isRun, rfl⟩ := found
    rw [path i run isRun, sheetPath, if_neg several]

/-- What a block says of the sheet behind it: its name, its file and its page. -/
def SheetBlock.target (b : SheetBlock) : String × String × Nat := (b.name.value, b.file.value, b.page)

theorem Sheet.addBlock_targets (s : Sheet) (place : Point) (name file : String) (page : Nat) :
    (s.addBlock place name file page).blocks.map (·.target) = s.blocks.map (·.target) ++ [(name, file, page)] :=
  List.map_append

theorem Conversion.addSheet_blocks {sheets : List Eagle.Sheet} {first : Nat} {state state' : Conversion}
    (ran : (sheets.zipIdx first).foldlM (addSheet c stem page) state = .ok state') :
    ∃ drawn : List Sheet, drawn.length = sheets.length ∧ state'.sheets = state.sheets ++ drawn ∧
      state'.root.blocks.map (·.target) = state.root.blocks.map (·.target) ++
        (drawn.zipIdx first).map fun (s, i) => (s.name, s.file, i + 2) := by
  induction sheets generalizing first state with
  | nil =>
    cases ran
    exact ⟨[], rfl, by simp, by simp⟩
  | cons e sheets ih =>
    rw [List.zipIdx_cons, List.foldlM_cons] at ran
    obtain ⟨middle, added, rest⟩ := bind_ok.1 ran
    obtain ⟨desk, isDrawn, same⟩ := bind_ok.1 added
    cases same
    obtain ⟨drawn, count, all, blocks⟩ := ih rest
    obtain ⟨name, file, _⟩ := ends_drawSheet_names (draw_ok.1 isDrawn)
    refine ⟨desk.sheet :: drawn, by simp [count], by simp [all], ?_⟩
    dsimp only at blocks name file
    rw [blocks, Sheet.addBlock_targets, List.append_assoc, List.zipIdx_cons, List.map_cons]
    dsimp only
    rw [name, file]
    rfl

theorem Sheet.tile_blocks (s : Sheet) (record : UnitRecord) : (s.tile record).blocks = s.blocks := by
  refine Sheet.tile_keeps (·.blocks = s.blocks) (fun t part unit position _ same => ?_) rfl
  rw [← same, addMissing_rest]

/-- The blocks of the root sheet stand for the other sheets, in order. -/
theorem convert_blocks (ran : convert document project stem page = .ok p) :
    p.sheets.length = (if 2 ≤ document.sheets.length then document.sheets.length else 0) ∧
      p.root.blocks.map (·.target) = p.sheets.mapIdx fun i s => (s.name, s.file, i + 2) := by
  obtain ⟨c, state, converted, rfl⟩ := convert_iff.1 ran
  obtain ⟨⟨_, shared⟩, isShared, rest⟩ := bind_ok.1 converted
  obtain ⟨_, added, same⟩ := bind_ok.1 rest
  cases same
  have sheets : c.document.sheets = document.sheets := by rw [(ofDocument_ok isShared).1]
  dsimp only
  rw [Sheet.tile_blocks, ← sheets]
  obtain ⟨none, rfl⟩ | ⟨source, desk, one, drawn, rfl⟩ | ⟨several, folded⟩ := Conversion.addSheets_ok added
  · rw [none]
    exact ⟨rfl, rfl⟩
  · rw [one]
    have blocks : desk.sheet.blocks = [] := List.length_eq_zero_iff.1 (ends_drawSheet_names drawn).2.2.2
    dsimp only
    rw [blocks]
    exact ⟨rfl, rfl⟩
  · obtain ⟨drawn, count, all, blocks⟩ := Conversion.addSheet_blocks folded
    rw [List.nil_append] at all
    rw [all, blocks, List.mapIdx_eq_zipIdx_map]
    refine ⟨?_, rfl⟩
    rw [count]
    split
    · rfl
    · omega

/-- A row is written with an identity of its own. -/
def Row.HasIdentity (row : Row) (id : Identity) : Prop := ∃ head rest, row = .block head rest ∧ identityRow id ∈ rest

/-- The blocks of a sheet are written with their numbers as identities. -/
theorem Sheet.blockRow_written {s : Sheet} {i : Nat} {b : SheetBlock} (found : s.blocks[i]? = some b) :
    s.blockRow b (i + 1) ∈ s.spacedRows ∧ (s.blockRow b (i + 1)).HasIdentity (.block (i + 1)) := by
  constructor
  · have written : s.blockRow b (i + 1) ∈ rowsOf s.blocks (fun _ => true) fun b i => s.blockRow b (i + 1) := by
      refine List.mem_map.2 ⟨(b, i), ?_, rfl⟩
      exact List.mem_filter.2 ⟨List.mem_zipIdx_iff_getElem?.2 found, rfl⟩
    refine List.mem_flatMap.2 ⟨_, List.mem_append_right _ written, ?_⟩
    simp
  · refine ⟨_, _, rfl, ?_⟩
    simp

/-- A row says of which unit it is, and ends with the one instance that it has in a project. -/
def Row.IsInstance (row : Row) (project : String) (path : List Identity) (reference : String) (unit : Nat) : Prop :=
  ∃ head rest, row = .block (head ++ [.named "unit" [.whole unit]])
    (rest ++ [.block [.word "instances"] [.block [.word "project", .quoted project]
      [.block [.word "path", .path path]
        [.line [.named "reference" [.quoted reference], .named "unit" [.whole unit]]]]]])

/-- A symbol stands on a sheet of a project: what it refers to is there once, on its sheet and in the
    symbol library, and it is written with the path of its sheet and with its own reference and unit. -/
structure PlacedSymbol.StandsOn (x : PlacedSymbol) (s : Sheet) (library : List Symbol) : Prop where
  path : x.path = s.path
  embedded : (symbolNames s.embedded).count x.name = 1
  listed : (symbolNames library).count x.name = 1
  made : x.WellMade
  row : ∀ number, (s.symbolRow x number).IsInstance s.project s.path.identities (x.fieldValue "Reference") x.unit

/-- Several EAGLE sheets have a sheet each, behind a block of the root sheet that has its name, its file
    and its page, and whose identity is in its path; one is drawn on the root sheet. All symbols stand on
    their sheets, and so do the missing units on the root sheet. -/
structure Project.Hierarchical (p : Project) (c : Context) (document : Eagle.Schematic) : Prop where
  count : p.sheets.length = if 2 ≤ document.sheets.length then document.sheets.length else 0
  blocks : p.root.blocks.map (·.target) = p.sheets.mapIdx fun i s => (s.name, s.file, i + 2)
  identities : ∀ (i : Nat) (b : SheetBlock), p.root.blocks[i]? = some b →
    p.root.blockRow b (i + 1) ∈ p.root.spacedRows ∧ (p.root.blockRow b (i + 1)).HasIdentity (.block (i + 1))
  root : p.root.path = .root
  paths : ∀ (i : Nat) (s : Sheet), p.sheets[i]? = some s →
    s.path = .block (i + 1) ∧ s.path.identities = [.sheet .root, .block (i + 1)]
  drawn : ∀ (i : Nat) (s : Sheet), p.sheets[i]? = some s → ∃ e d d', document.sheets[i]? = some e ∧
    d.sheet.symbols = [] ∧ Ends (drawSheet c e) d () d' ∧ d'.sheet = s
  distinct : ∀ s ∈ p.allSheets, (symbolNames s.embedded).Nodup
  symbols : ∀ s ∈ p.allSheets, ∀ x ∈ s.symbols, x.StandsOn s p.symbols

theorem Sheet.Whole.standsOn {s : Sheet} {library : List Symbol} (whole : s.Whole library)
    (once : (symbolNames library).Nodup) {x : PlacedSymbol} (member : x ∈ s.symbols) : x.StandsOn s library := by
  have path := whole.paths x member
  have made := whole.made x member
  refine ⟨path, ?_, ?_, made, fun number => ?_⟩
  · exact List.count_eq_one_of_mem whole.distinct (whole.embedded x member)
  · exact List.count_eq_one_of_mem once (whole.listed x member)
  · rw [made.fieldValue, ← path]
    exact ⟨_, _, rfl⟩

/-- The hierarchy of each converted document is well formed. -/
theorem convert_hierarchical (ran : convert document project stem page = .ok p) : ∃ c shared,
    Context.ofDocument document (Name.libraryName project stem) (Name.projectName project stem) = .ok (c, shared) ∧
    p.Hierarchical c document := by
  obtain ⟨c, shared, runs, units, isShared, converted⟩ := convert_ok ran
  obtain ⟨count, blocks⟩ := convert_blocks ran
  obtain ⟨root, paths⟩ := converted.paths
  have lists : c.Lists p.symbols := converted.symbols ▸ ofDocument_lists isShared
  have whole := converted.whole lists
  have once : (symbolNames p.symbols).Nodup := by
    obtain ⟨_, _, libraries⟩ := ofDocument_ok isShared
    rw [converted.symbols]
    exact mergeSymbols_nodup (convertLibraries_ok libraries)
  have drawn (i : Nat) (s : Sheet) (found : p.sheets[i]? = some s) : ∃ e d d', document.sheets[i]? = some e ∧
      d.sheet.symbols = [] ∧ Ends (drawSheet c e) d () d' ∧ d'.sheet = s := by
    have inside : i < p.sheets.length := (List.getElem?_eq_some_iff.1 found).1
    rw [count] at inside
    split at inside
    · rename_i several
      have isSheet := List.getElem?_eq_getElem inside
      obtain ⟨c', _, _, _, desk, isShared', drawn, found'⟩ := convert_sheet ran several isSheet
      obtain ⟨rfl, _⟩ := Prod.mk.inj (Except.ok.inj (isShared'.symm.trans isShared))
      refine ⟨_, _, desk, isSheet, rfl, drawn, ?_⟩
      exact Option.some.inj (found'.symm.trans found)
    · cases inside
  exact ⟨c, shared, isShared, {
    count, blocks, root, drawn
    identities := fun _ _ => Sheet.blockRow_written
    paths := fun i s found => ⟨paths i s found, congrArg _ (paths i s found)⟩
    distinct := fun s member => (whole s member).distinct
    symbols := fun s member x isSymbol => (whole s member).standsOn once isSymbol }⟩

end Document

/-- The sheets of a part that is spread over them, with its missing unit, make a hierarchy. -/
theorem spreadUnits_hierarchical : ∃ p c shared,
    convert spreadUnits none "demo" ⟨some "A4", ⟨2970000, 2100000⟩⟩ = .ok p ∧
    Context.ofDocument spreadUnits (Name.libraryName none "demo") (Name.projectName none "demo") = .ok (c, shared) ∧
    p.Hierarchical c spreadUnits ∧ p.root.symbols.length = 1 := by
  have checked : (convert spreadUnits none "demo" ⟨some "A4", ⟨2970000, 2100000⟩⟩).toOption.any (fun p =>
      decide (p.root.symbols.length = 1)) = true := by decide +kernel
  obtain ⟨p, ran, missing⟩ := (Option.any_eq_true ..).1 checked
  obtain ⟨c, shared, isShared, isHierarchical⟩ := convert_hierarchical (ok_of_toOption ran)
  exact ⟨p, c, shared, ok_of_toOption ran, isShared, isHierarchical, of_decide_eq_true missing⟩

end Redraft
