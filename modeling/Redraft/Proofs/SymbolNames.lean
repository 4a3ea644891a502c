import Redraft.Proofs.UnitTiles

/-!
# Symbols under their names

A placed symbol knows its library symbol by name only. On each sheet the first
symbol of a name is embedded; the symbol library holds the last one. Both are
the translation of the device that the part names only if no other device comes
in between.
-/

namespace Redraft

/-- The symbol is the translation of the device that a part names, in the library that it names. -/
def Eagle.Schematic.Translates (document : Eagle.Schematic) (part : Eagle.Part) (symbol : Redraft.Symbol) : Prop :=
  ∃ library deviceSet device, document.libraries.get? part.library = some library ∧
    (deviceSet, device) ∈ SymbolLibrary.devices library ∧
    deviceSet.name = part.deviceSet ∧ device.name = part.device ∧
    translation library deviceSet device = some symbol

/-- The symbol that a part is placed with: the last one of its name in its library. -/
def Eagle.Schematic.symbolOf (document : Eagle.Schematic) (part : Eagle.Part) : Option Redraft.Symbol := do
  let library ← document.libraries.get? part.library
  lastNamed library.translations (Name.symbolKey part.deviceSet part.device)

/-- The EAGLE sheet that is drawn on the sheet of a path. -/
def Eagle.Schematic.sheetAt (document : Eagle.Schematic) : SheetPath → Option Eagle.Sheet
  | .root => document.sheets.head?
  | .block number => document.sheets[number - 1]?

/-- What the symbol of an identity was placed for. -/
def Context.placedAs (c : Context) (id : SymbolId) : Option Resolved := do
  let e ← c.document.sheetAt id.path
  (c.placed e.instances)[id.number]?

/-- The symbols that an EAGLE sheet's parts are placed with, in order. -/
def Context.symbolsOn (c : Context) (e : Eagle.Sheet) : List Symbol := (c.placed e.instances).map (·.symbol)

/-- For each placed symbol the translation of its part's own device is embedded on its sheet and
    stands in the symbol library. -/
def Project.OwnSymbols (p : Project) (c : Context) : Prop :=
  ∀ sheet ∈ p.allSheets, ∀ x ∈ sheet.symbols, ∃ r t, c.placedAs x.pinOwner = some r ∧
    c.document.Translates r.part t ∧ sheet.symbol? x.name = some t ∧ firstNamed p.symbols x.name = some t

/-! ## Placed parts -/

section Placed
variable {c : Context} {e : Eagle.Sheet}

/-- What an instance stands for is all found under the names that its part and the instance give. -/
theorem resolve_ok {i : Eagle.Instance} {r : Resolved} (resolved : c.resolve i = .ok r) :
    c.document.part? i.part = some r.part ∧ ∃ library, c.libraries.get? r.part.library = some library ∧
      library.symbol? (Name.symbolKey r.part.deviceSet r.part.device) = some r.symbol ∧
      library.unit? r.part.deviceSet r.part.device i.gate = some r.unit ∧
      r.package = (library.package? (Name.symbolKey r.part.deviceSet r.part.device)).getD "" := by
  unfold Context.resolve at resolved
  split at resolved
  · cases resolved
  · rename_i part isPart
    dsimp only at resolved
    split at resolved
    · rename_i found
      obtain rfl := Except.ok.inj resolved
      obtain ⟨library, isLibrary, found⟩ := Option.bind_eq_some_iff.1 found
      obtain ⟨symbol, isSymbol, found⟩ := Option.bind_eq_some_iff.1 found
      obtain ⟨unit, isUnit, same⟩ := Option.bind_eq_some_iff.1 found
      obtain rfl := Option.some.inj same
      exact ⟨isPart, library, isLibrary, isSymbol, isUnit, rfl⟩
    · cases resolved

/-- An instance stands for the last symbol of its name in the library of its part. -/
theorem resolve_symbolOf {document : Eagle.Schematic} {library project : String} {shared : Report}
    (isShared : Context.ofDocument document library project = .ok (c, shared)) {i : Eagle.Instance} {r : Resolved}
    (resolved : c.resolve i = .ok r) : document.symbolOf r.part = some r.symbol := by
  obtain ⟨_, _, libraries⟩ := ofDocument_ok isShared
  obtain ⟨_, l, isLibrary, isSymbol, _⟩ := resolve_ok resolved
  obtain ⟨source, isSource, named⟩ := get?_converted (convertLibraries_ok libraries) isLibrary
  exact Option.bind_eq_some_iff.2 ⟨source, isSource, (named _).symm.trans isSymbol⟩

/-- An instance is placed with the last symbol of its name in the library of its part. -/
theorem placed_symbolOf {document : Eagle.Schematic} {library project : String} {shared : Report}
    (isShared : Context.ofDocument document library project = .ok (c, shared)) {r : Resolved}
    (placed : r ∈ c.placed e.instances) : document.symbolOf r.part = some r.symbol := by
  obtain ⟨i, _, found⟩ := List.mem_filterMap.1 placed
  exact resolve_symbolOf isShared (ok_of_toOption found)

theorem mem_symbolsOn {symbol : Symbol} : symbol ∈ c.symbolsOn e ↔ ∃ r ∈ c.placed e.instances, r.symbol = symbol :=
  List.mem_map

/-- The first symbol of a name on a sheet is one that a part is placed with. -/
theorem placed_of_firstNamed {name : String} {symbol : Symbol} (found : firstNamed (c.symbolsOn e) name = some symbol) :
    ∃ r ∈ c.placed e.instances, r.symbol.name = name := by
  obtain ⟨r, placed, same⟩ := mem_symbolsOn.1 (List.mem_of_find?_eq_some found)
  exact ⟨r, placed, same ▸ firstNamed_name found⟩

theorem firstNamed_of_placed {r : Resolved} (placed : r ∈ c.placed e.instances) :
    ∃ symbol, firstNamed (c.symbolsOn e) r.symbol.name = some symbol := by
  apply Option.isSome_iff_exists.1
  rw [firstNamed, List.find?_isSome]
  exact ⟨r.symbol, mem_symbolsOn.2 ⟨r, placed, rfl⟩, beq_self_eq_true _⟩

end Placed

/-! ## Drawn sheets -/

/-- The symbols of a sheet are those placed for the parts of an EAGLE sheet, and the first of each name is embedded. -/
structure Sheet.Shows (s : Sheet) (c : Context) (e : Eagle.Sheet) (path : SheetPath) : Prop where
  symbols : ∀ n : Nat, s.symbols[n]?.map (fun x => (x.name, x.pinOwner)) =
    (c.placed e.instances)[n]?.map fun r => (r.symbol.name, ⟨path, n⟩)
  embedded : ∀ name, s.symbol? name = firstNamed (c.symbolsOn e) name

namespace Sheet.Shows
variable {s : Sheet} {c : Context} {e : Eagle.Sheet} {path : SheetPath}

/-- A symbol of the sheet was placed for the part of its number. -/
theorem placedAt (isShown : s.Shows c e path) {n : Nat} {x : PlacedSymbol} (found : s.symbols[n]? = some x) :
    ∃ r, (c.placed e.instances)[n]? = some r ∧ x.name = r.symbol.name ∧ x.pinOwner = ⟨path, n⟩ := by
  have here := isShown.symbols n
  rw [found, Option.map_some] at here
  obtain ⟨r, placed, same⟩ := Option.map_eq_some_iff.1 here.symm
  obtain ⟨name, owner⟩ := Prod.mk.inj same
  exact ⟨r, placed, name.symm, owner.symm⟩

/-- Finishing a sheet moves its symbols and shows no others. -/
theorem finish (isShown : s.Shows c e path) (symbols : List PlacedSymbol) : (s.finish symbols).Shows c e path := by
  refine ⟨fun n => ?_, isShown.embedded⟩
  rw [← isShown.symbols n, finish_symbols, List.getElem?_map, Option.map_map]
  rfl

end Sheet.Shows

theorem DrawnContent.shows {c : Context} {e : Eagle.Sheet} {name file : String} {path : SheetPath} {page : Page}
    {report : Report} {units : UnitRecord} {content : Desk} {placed : List PlacedInstance}
    {ofBuses ofNets : List (List NetLabel)}
    (isContent : DrawnContent c e ⟨c.newSheet name file path page, report, units⟩ content placed ofBuses ofNets) :
    content.sheet.Shows c e path := by
  have symbols : content.sheet.symbols = placed.map (·.symbol) := isContent.symbols
  refine ⟨fun n => ?_, fun name => ?_⟩
  · rw [symbols, ← isContent.resolved, List.getElem?_map, List.getElem?_map, Option.map_map, Option.map_map]
    cases found : placed[n]? with
    | none => rfl
    | some x =>
      have there : x.At ⟨path, 0 + n⟩ := isContent.standing n x found
      rw [Nat.zero_add] at there
      simp only [Option.map_some, Function.comp, there.name, there.owner]
  · rw [isContent.embedded, Context.symbolsOn, ← isContent.resolved, List.map_map]
    rfl

/-- A part of several units is recorded with the symbol of one placed for it, and with the one embedded for that. -/
def PartUnits.Recorded (part : PartUnits) (c : Context) : Prop :=
  ∃ e r, c.document.sheetAt part.symbol.pinOwner.path = some e ∧
    (c.placed e.instances)[part.symbol.pinOwner.number]? = some r ∧ part.symbol.name = r.symbol.name ∧
    firstNamed (c.symbolsOn e) r.symbol.name = some part.source

/-- All parts of a record are recorded so. -/
def UnitRecord.Sound (record : UnitRecord) (c : Context) : Prop := ∀ entry ∈ record, entry.2.Recorded c

theorem Sheet.Shows.recorded {s : Sheet} {c : Context} {e : Eagle.Sheet} {path : SheetPath}
    (isShown : s.Shows c e path) (isSource : c.document.sheetAt path = some e) {n : Nat} {x : PlacedSymbol}
    (here : s.symbols[n]? = some x) {source : Symbol} (found : s.symbol? x.name = some source) :
    PartUnits.Recorded ⟨x, source, [], 0⟩ c := by
  obtain ⟨r, placed, name, owner⟩ := isShown.placedAt here
  refine ⟨e, r, ?_, ?_, name, ?_⟩
  · rw [owner]
    exact isSource
  · rw [owner]
    exact placed
  · rw [← isShown.embedded, ← name]
    exact found

/-- What holds of a symbol recorded and the library symbol found for it holds of all recorded parts. -/
theorem UnitRecord.place_keeps {P : PlacedSymbol → Symbol → Prop} {record : UnitRecord}
    (holds : ∀ entry ∈ record, P entry.2.symbol entry.2.source) {symbol : PlacedSymbol} {source : Symbol}
    (here : P symbol source) : ∀ entry ∈ record.place symbol source, P entry.2.symbol entry.2.source := by
  unfold UnitRecord.place
  split
  · exact holds
  · rintro ⟨ref, part⟩ member
    rcases Entries.mem_put member with there | ⟨rfl, rfl⟩
    · exact holds _ there
    · cases known : record.get? (symbol.fieldValue "Reference") with
      | none => exact here
      | some part => exact holds (_, part) (Entries.mem_of_get? known)

theorem Sheet.foldl_recordUnit_keeps {P : PlacedSymbol → Symbol → Prop} {s : Sheet} {symbols : List PlacedSymbol}
    {record : UnitRecord} (holds : ∀ entry ∈ record, P entry.2.symbol entry.2.source)
    (recorded : ∀ x ∈ symbols, ∀ source, s.symbol? x.name = some source → P x source) :
    ∀ entry ∈ symbols.foldl s.recordUnit record, P entry.2.symbol entry.2.source := by
  induction symbols generalizing record with
  | nil => exact holds
  | cons x symbols ih =>
    obtain ⟨here, later⟩ := List.forall_mem_cons.1 recorded
    refine ih ?_ later
    unfold Sheet.recordUnit
    cases found : s.symbol? x.name with
    | none => exact holds
    | some source => exact UnitRecord.place_keeps holds (here source found)

section Drawn
open Drafting
variable {c : Context} {e : Eagle.Sheet} {name file : String} {path : SheetPath} {page : Page} {report : Report}
  {units : UnitRecord} {done : Desk}

/-- A sheet that is drawn shows the parts placed on it, and records them. -/
theorem ends_drawSheet_shows
    (ran : Ends (drawSheet c e) ⟨c.newSheet name file path page, report, units⟩ () done)
    (isSource : c.document.sheetAt path = some e) (sound : units.Sound c) :
    done.sheet.Shows c e path ∧ done.units.Sound c := by
  obtain ⟨content, drawn, sheet, record⟩ := ends_drawSheet ran
  obtain ⟨placed, ofBuses, ofNets, isContent⟩ := ends_drawContent drawn
  have isShown : content.sheet.Shows c e path := isContent.shows
  refine ⟨sheet ▸ isShown.finish _, ?_⟩
  rw [record, isContent.units]
  refine Sheet.foldl_recordUnit_keeps (P := fun x source => PartUnits.Recorded ⟨x, source, [], 0⟩ c) sound
    fun x member source found => ?_
  obtain ⟨n, here⟩ := List.mem_iff_getElem?.1 (List.mem_of_mem_drop member)
  exact isShown.recorded isSource here found

end Drawn

/-! ## The whole document -/

section Document
variable {c : Context}

theorem mem_of_sheetAt {document : Eagle.Schematic} {path : SheetPath} {e : Eagle.Sheet}
    (found : document.sheetAt path = some e) : e ∈ document.sheets := by
  cases path with
  | root => exact List.mem_of_head? found
  | block number => exact List.mem_of_getElem? found

theorem sheetAt_sheetPath {document : Eagle.Schematic} {n : Nat} {e : Eagle.Sheet}
    (found : document.sheets[n]? = some e) : document.sheetAt (sheetPath document.sheets.length n) = some e := by
  unfold sheetPath
  split
  · rename_i single
    obtain ⟨only, one⟩ := List.length_eq_one_iff.1 single
    rw [one] at found
    cases n with
    | zero => simpa [Eagle.Schematic.sheetAt, one] using found
    | succ n => simp at found
  · exact found

theorem SheetRuns.shows {path : Nat → SheetPath} {page : Page} {report report' : Report} {units units' : UnitRecord}
    {runs : List SheetRun} (drawn : SheetRuns c report units runs report' units')
    (fresh : ∀ (n : Nat) (run : SheetRun), runs[n]? = some run →
      (∃ name file, run.fresh = c.newSheet name file (path n) page) ∧ c.document.sheetAt (path n) = some run.source)
    (sound : units.Sound c) :
    (∀ (n : Nat) (run : SheetRun), runs[n]? = some run → run.done.Shows c run.source (path n)) ∧ units'.Sound c := by
  induction drawn generalizing path with
  | nil => exact ⟨by simp, sound⟩
  | cons ran _ ih =>
    obtain ⟨⟨name, file, same⟩, found⟩ := fresh 0 _ rfl
    dsimp only at same found
    subst same
    obtain ⟨shows', sound'⟩ := ends_drawSheet_shows ran found sound
    obtain ⟨later, sound''⟩ := ih (fun n run found => fresh (n + 1) run found) sound'
    refine ⟨fun n run here => ?_, sound''⟩
    cases n with
    | zero =>
      obtain rfl := Option.some.inj here
      exact shows'
    | succ n => exact later n run here

/-- All symbols of a sheet are owned by placed parts, and each embedded one is the first of its name
    on an EAGLE sheet. -/
structure Sheet.Sourced (s : Sheet) (c : Context) : Prop where
  owned : ∀ x ∈ s.symbols, ∃ e ∈ c.document.sheets, ∃ r ∈ c.placed e.instances, c.placedAs x.pinOwner = some r ∧
    x.name = r.symbol.name ∧ (s.symbol? x.name).isSome
  embedded : ∀ name t, s.symbol? name = some t → ∃ e ∈ c.document.sheets, firstNamed (c.symbolsOn e) name = some t

theorem Sheet.Shows.placedAs {s : Sheet} {e : Eagle.Sheet} {path : SheetPath} (isShown : s.Shows c e path)
    (isSource : c.document.sheetAt path = some e) {n : Nat} {x : PlacedSymbol} (found : s.symbols[n]? = some x) :
    ∃ r ∈ c.placed e.instances, c.placedAs x.pinOwner = some r ∧ x.name = r.symbol.name := by
  obtain ⟨r, placed, name, owner⟩ := isShown.placedAt found
  refine ⟨r, List.mem_of_getElem? placed, ?_, name⟩
  rw [owner]
  exact Option.bind_eq_some_iff.2 ⟨e, isSource, placed⟩

theorem Sheet.Shows.sourced {s : Sheet} {e : Eagle.Sheet} {path : SheetPath} (isShown : s.Shows c e path)
    (isSource : c.document.sheetAt path = some e) : s.Sourced c := by
  have isSheet := mem_of_sheetAt isSource
  refine ⟨fun x member => ?_, fun name t found => ⟨e, isSheet, isShown.embedded name ▸ found⟩⟩
  obtain ⟨n, found⟩ := List.mem_iff_getElem?.1 member
  obtain ⟨r, placed, owned, name⟩ := isShown.placedAs isSource found
  obtain ⟨first, here⟩ := firstNamed_of_placed placed
  refine ⟨e, isSheet, r, placed, owned, name, ?_⟩
  rw [isShown.embedded, name, here]
  rfl

end Document

/-! ## Missing units -/

namespace Sheet
variable {c : Context} {s : Sheet} {part : PartUnits}

theorem symbol?_addMissing (s : Sheet) (part : PartUnits) (unit : Nat) (position : Point) (name : String) :
    (s.addMissing part unit position).symbol? name = (s.symbol? name).or (firstNamed [part.source] name) :=
  symbol?_embed s part.source name

/-- A missing unit is owned by the part that it was recorded for. -/
theorem Sourced.addMissing (sourced : s.Sourced c) (recorded : part.Recorded c) (unit : Nat) (position : Point) :
    (s.addMissing part unit position).Sourced c := by
  obtain ⟨e, r, isSource, placed, name, first⟩ := recorded
  have isSheet := mem_of_sheetAt isSource
  constructor
  · intro x member
    rw [addMissing_symbols] at member
    rcases List.mem_append.1 member with there | new
    · obtain ⟨e', isSheet', r', placed', owned, name', isEmbedded⟩ := sourced.owned x there
      refine ⟨e', isSheet', r', placed', owned, name', ?_⟩
      rw [symbol?_addMissing, Option.isSome_or, isEmbedded, Bool.true_or]
    · obtain rfl := List.mem_singleton.1 new
      refine ⟨e, isSheet, r, List.mem_of_getElem? placed, Option.bind_eq_some_iff.2 ⟨e, isSource, placed⟩, name, ?_⟩
      have itself : firstNamed [part.source] r.symbol.name = some part.source := by
        rw [← firstNamed_name first]
        exact lastNamed_singleton_self part.source
      have sameName : (part.unitSymbol unit s.path position).name = r.symbol.name := name
      rw [symbol?_addMissing, sameName, itself, Option.isSome_or, Option.isSome_some, Bool.or_true]
  · intro name' t found
    rw [symbol?_addMissing] at found
    rcases Option.or_eq_some_iff.1 found with there | ⟨_, new⟩
    · exact sourced.embedded name' t there
    · obtain rfl := List.mem_singleton.1 (List.mem_of_find?_eq_some new)
      have same : name' = r.symbol.name := (firstNamed_name new).symm.trans (firstNamed_name first)
      exact ⟨e, isSheet, same ▸ first⟩

theorem Sourced.tile {record : UnitRecord} (sourced : s.Sourced c) (sound : record.Sound c) :
    (s.tile record).Sourced c := by
  refine tile_keeps (·.Sourced c) (fun s part unit position member sourced => ?_) sourced
  obtain ⟨entry, isEntry, missing⟩ := List.mem_flatMap.1 member
  obtain ⟨_, _, same⟩ := List.mem_map.1 missing
  obtain ⟨rfl, rfl⟩ := Prod.mk.inj same
  exact sourced.addMissing (sound entry isEntry) _ _

theorem mem_tile {record : UnitRecord} {x : PlacedSymbol} (member : x ∈ s.symbols) : x ∈ (s.tile record).symbols := by
  rw [(s.tile_symbols record).2]
  exact List.mem_append_left _ member

theorem symbol?_tile {record : UnitRecord} {name : String} {t : Symbol} (found : s.symbol? name = some t) :
    (s.tile record).symbol? name = some t := by
  refine tile_keeps (·.symbol? name = some t) (fun s part unit position _ there => ?_) found
  rw [symbol?_addMissing, there]
  rfl

end Sheet

/-! ## Own symbols -/

section Own
variable {document : Eagle.Schematic} {c : Context} {shared : Report} {page : Page} {p : Project}
  {runs : List SheetRun} {units : UnitRecord}

theorem Converted.length (converted : Converted document c shared page p runs units) :
    runs.length = document.sheets.length := by
  rw [← converted.sources, List.length_map]

theorem Converted.sheetAt (converted : Converted document c shared page p runs units) (same : c.document = document)
    {n : Nat} {run : SheetRun} (found : runs[n]? = some run) :
    c.document.sheetAt (sheetPath runs.length n) = some run.source := by
  rw [converted.length, same]
  apply sheetAt_sheetPath
  rw [← converted.sources, List.getElem?_map, found]
  rfl

theorem Converted.shows (converted : Converted document c shared page p runs units) (same : c.document = document) :
    (∀ (n : Nat) (run : SheetRun), runs[n]? = some run → run.done.Shows c run.source (sheetPath runs.length n)) ∧
      units.Sound c := by
  obtain ⟨report, drawn⟩ := converted.drawn
  exact drawn.shows (fun n run found => ⟨converted.fresh n run found, converted.sheetAt same found⟩)
    (by simp [UnitRecord.Sound])

/-- All sheets of a converted document are sourced. -/
theorem Converted.sourced (converted : Converted document c shared page p runs units) (same : c.document = document) :
    ∀ s ∈ p.allSheets, s.Sourced c := by
  obtain ⟨shows', sound⟩ := converted.shows same
  have done : ∀ run ∈ runs, run.done.Sourced c := by
    intro run member
    obtain ⟨n, found⟩ := List.mem_iff_getElem?.1 member
    exact (shows' n run found).sourced (converted.sheetAt same found)
  intro s member
  rcases converted.sheets with ⟨run, rfl, root, none⟩ | ⟨_, sheets, base, root, _, symbols, embedded, _⟩
  · rw [Project.allSheets, none, List.mem_singleton] at member
    rw [member, root]
    exact (done run (.head _)).tile sound
  · rw [Project.allSheets, sheets] at member
    rcases List.mem_cons.1 member with rfl | child
    · rw [root]
      refine Sheet.Sourced.tile ⟨?_, ?_⟩ sound
      · simp [symbols]
      · simp [Sheet.symbol?, embedded]
    · obtain ⟨run, isRun, rfl⟩ := List.mem_map.1 child
      exact done run isRun

/-- Each EAGLE sheet is shown by a sheet that keeps its place in the converted document. -/
theorem Converted.shown (converted : Converted document c shared page p runs units) (same : c.document = document)
    {n : Nat} {e : Eagle.Sheet} (found : document.sheets[n]? = some e) :
    ∃ s ∈ p.allSheets, ∃ drawn : Sheet, drawn.Shows c e (sheetPath document.sheets.length n) ∧
      (∀ x ∈ drawn.symbols, x ∈ s.symbols) ∧ ∀ name t, drawn.symbol? name = some t → s.symbol? name = some t := by
  obtain ⟨shows', _⟩ := converted.shows same
  rw [← converted.sources, List.getElem?_map, Option.map_eq_some_iff] at found
  obtain ⟨run, here, rfl⟩ := found
  have isShown := shows' n run here
  rw [converted.length] at isShown
  rcases converted.sheets with ⟨only, rfl, root, _⟩ | ⟨_, sheets, _⟩
  · obtain rfl := List.mem_singleton.1 (List.mem_of_getElem? here)
    refine ⟨p.root, .head _, run.done, isShown, fun x member => ?_, fun name t found => ?_⟩
    · rw [root]
      exact Sheet.mem_tile member
    · rw [root]
      exact Sheet.symbol?_tile found
  · refine ⟨run.done, .tail _ ?_, run.done, isShown, fun _ member => member, fun _ _ found => found⟩
    rw [sheets]
    exact List.mem_map.2 ⟨run, List.mem_of_getElem? here, rfl⟩

/-- On its EAGLE sheet the first, and over all libraries the last symbol of a placed part's name is
    the translation of its own device. -/
def Context.NamesAgree (c : Context) : Prop :=
  ∀ e ∈ c.document.sheets, ∀ r ∈ c.placed e.instances, ∃ t, c.document.Translates r.part t ∧
    firstNamed (c.symbolsOn e) r.symbol.name = some t ∧ lastNamed c.document.translations r.symbol.name = some t

theorem Context.NamesAgree.last (agree : c.NamesAgree) {e : Eagle.Sheet} (isSheet : e ∈ c.document.sheets)
    {name : String} {t : Symbol} (first : firstNamed (c.symbolsOn e) name = some t) :
    lastNamed c.document.translations name = some t := by
  obtain ⟨r, placed, rfl⟩ := placed_of_firstNamed first
  obtain ⟨t', _, first', last⟩ := agree e isSheet r placed
  rw [← Option.some.inj (first'.symm.trans first)]
  exact last

/-- The symbol library holds the last symbol of each name over all libraries. -/
theorem Converted.merged (converted : Converted document c shared page p runs units) {report : Report}
    (isConverted : convertLibraries document = .ok (c.libraries, report)) (name : String) :
    firstNamed p.symbols name = lastNamed document.translations name := by
  rw [converted.symbols]
  exact mergeSymbols_named (convertLibraries_ok isConverted) name

theorem Converted.agree_of_own (converted : Converted document c shared page p runs units)
    (same : c.document = document)
    (merged : ∀ name, firstNamed p.symbols name = lastNamed c.document.translations name)
    (own : p.OwnSymbols c) : c.NamesAgree := by
  intro e isSheet r placed
  obtain ⟨n, found⟩ := List.mem_iff_getElem?.1 isSheet
  obtain ⟨k, here⟩ := List.mem_iff_getElem?.1 placed
  have isSource := sheetAt_sheetPath found
  rw [same] at found isSource
  obtain ⟨s, isDrawn, drawn, isShown, symbols, embedded⟩ := converted.shown same found
  have stands := isShown.symbols k
  rw [here, Option.map_some] at stands
  obtain ⟨x, there, _⟩ := Option.map_eq_some_iff.1 stands
  obtain ⟨r', here', name, owner⟩ := isShown.placedAt there
  obtain rfl := Option.some.inj (here.symm.trans here')
  obtain ⟨r', t, owned, translates, isEmbedded, inLibrary⟩ := own s isDrawn x (symbols x (List.mem_of_getElem? there))
  have isOwned : c.placedAs x.pinOwner = some r := by
    rw [owner]
    exact Option.bind_eq_some_iff.2 ⟨e, same ▸ isSource, here⟩
  obtain rfl := Option.some.inj (owned.symm.trans isOwned)
  obtain ⟨first, isFirst⟩ := firstNamed_of_placed placed
  have onSheet := embedded r'.symbol.name first (by rw [isShown.embedded, isFirst])
  rw [name] at isEmbedded inLibrary
  obtain rfl := Option.some.inj (onSheet.symm.trans isEmbedded)
  exact ⟨first, translates, isFirst, by rw [← merged, inLibrary]⟩

theorem Converted.own_of_agree (converted : Converted document c shared page p runs units)
    (same : c.document = document)
    (merged : ∀ name, firstNamed p.symbols name = lastNamed c.document.translations name)
    (agree : c.NamesAgree) : p.OwnSymbols c := by
  intro s isDrawn x member
  obtain ⟨owned, embedded⟩ := converted.sourced same s isDrawn
  obtain ⟨e, isSheet, r, placed, isOwned, name, isEmbedded⟩ := owned x member
  obtain ⟨t, translates, _, last⟩ := agree e isSheet r placed
  obtain ⟨t', found⟩ := Option.isSome_iff_exists.1 isEmbedded
  obtain ⟨e', isSheet', first'⟩ := embedded x.name t' found
  have last' := agree.last isSheet' first'
  rw [name, last] at last'
  obtain rfl := Option.some.inj last'
  exact ⟨r, t, isOwned, translates, found, by rw [merged, name, last]⟩

/-- Each part is placed with the last symbol of its name in its library, and its own device's translation
    answers to the name everywhere just if the names agree. -/
theorem own_symbols_iff {project : Option String} {stem : String}
    (isShared : Context.ofDocument document (Name.libraryName project stem) (Name.projectName project stem) =
      .ok (c, shared)) (ran : convert document project stem page = .ok p) :
    c.document = document ∧
      (∀ e ∈ document.sheets, ∀ r ∈ c.placed e.instances, document.symbolOf r.part = some r.symbol) ∧
      (p.OwnSymbols c ↔ c.NamesAgree) := by
  obtain ⟨c', shared', runs, units, isShared', converted⟩ := convert_ok ran
  obtain ⟨rfl, rfl⟩ := Prod.mk.inj (Except.ok.inj (isShared'.symm.trans isShared))
  obtain ⟨same, _, libraries⟩ := ofDocument_ok isShared
  have merged : ∀ name, firstNamed p.symbols name = lastNamed c'.document.translations name :=
    fun name => by rw [same]; exact converted.merged libraries name
  exact ⟨same, fun e _ r placed => placed_symbolOf isShared placed,
    converted.agree_of_own same merged, converted.own_of_agree same merged⟩

end Own

/-- A library with a device set of one name, the symbol of which has the given pins. -/
def oneDevice (name : String) (pins : List String) : Eagle.Library where
  name := name
  symbols := [("S", ⟨"S", pins.map fun pin => .pin ⟨pin, ⟨0, 0⟩, none, none, none, none, none⟩⟩)]
  deviceSets := [⟨"X", "U", [⟨"G", "S", ⟨0, 0⟩⟩], [⟨"", none, []⟩]⟩]

/-- A document with two libraries that have a device set of one name, and a part from the first. -/
def twoLibraries : Eagle.Schematic where
  libraries := [("a", oneDevice "a" ["P"]), ("b", oneDevice "b" ["P", "Q"])]
  parts := [("U1", ⟨"U1", "a", "X", "", none, none, [], []⟩)]
  sheets := [⟨none, [], [⟨"U1", "G", ⟨0, 0⟩, false, none, [], []⟩], [], []⟩]

private theorem twoLibraries_converted : ∃ c shared p,
    Context.ofDocument twoLibraries (Name.libraryName none "demo") (Name.projectName none "demo") = .ok (c, shared) ∧
    convert twoLibraries none "demo" ⟨some "A4", ⟨2970000, 2100000⟩⟩ = .ok p ∧
    ∃ x ∈ p.root.symbols, (∀ r, c.placedAs x.pinOwner = some r → r.part.library = "a") ∧
      ∀ t, firstNamed p.symbols x.name = some t → (t.pins 0).length = 2 := by
  have checked : (Context.ofDocument twoLibraries (Name.libraryName none "demo")
      (Name.projectName none "demo")).toOption.any (fun shared =>
    (convert twoLibraries none "demo" ⟨some "A4", ⟨2970000, 2100000⟩⟩).toOption.any fun p =>
      p.root.symbols.any fun x => (shared.1.placedAs x.pinOwner).all (·.part.library == "a") &&
        (firstNamed p.symbols x.name).all fun t => (t.pins 0).length == 2) = true := by decide +kernel
  obtain ⟨⟨c, shared⟩, isShared, checked⟩ := (Option.any_eq_true ..).1 checked
  obtain ⟨p, ran, checked⟩ := (Option.any_eq_true ..).1 checked
  obtain ⟨x, member, holds⟩ := List.any_eq_true.1 checked
  obtain ⟨library, pins⟩ := Bool.and_eq_true_iff.1 holds
  refine ⟨c, shared, p, ok_of_toOption isShared, ok_of_toOption ran, x, member, fun r found => ?_, fun t found => ?_⟩
  · rw [found] at library
    simpa using library
  · rw [found] at pins
    simpa using pins

theorem twoLibraries_own_iff : ∃ c shared p,
    Context.ofDocument twoLibraries (Name.libraryName none "demo") (Name.projectName none "demo") = .ok (c, shared) ∧
    convert twoLibraries none "demo" ⟨some "A4", ⟨2970000, 2100000⟩⟩ = .ok p ∧ c.document = twoLibraries ∧
    (∀ e ∈ twoLibraries.sheets, ∀ r ∈ c.placed e.instances, twoLibraries.symbolOf r.part = some r.symbol) ∧
    (p.OwnSymbols c ↔ c.NamesAgree) := by
  obtain ⟨c, shared, p, isShared, ran, _⟩ := twoLibraries_converted
  exact ⟨c, shared, p, isShared, ran, own_symbols_iff isShared ran⟩

/-- The symbol library holds the symbol of the second library under the name that the part's one has. -/
theorem not_all_symbols_own : ¬ ∀ (document : Eagle.Schematic) (project : Option String) (stem : String) (page : Page)
    (c : Context) (shared : Report) (p : Project),
    Context.ofDocument document (Name.libraryName project stem) (Name.projectName project stem) = .ok (c, shared) →
    convert document project stem page = .ok p → p.OwnSymbols c := by
  intro claim
  obtain ⟨c, shared, p, isShared, ran, x, member, library, pins⟩ := twoLibraries_converted
  obtain ⟨r, t, owned, translates, _, inLibrary⟩ :=
    claim _ _ _ _ _ _ _ isShared ran p.root (.head _) x member
  obtain ⟨source, deviceSet, device, isSource, isDevice, _, _, translated⟩ := translates
  rw [(ofDocument_ok isShared).1, library r owned] at isSource
  obtain rfl := Option.some.inj isSource
  have onePin : ∀ entry ∈ SymbolLibrary.devices (oneDevice "a" ["P"]),
      (translation (oneDevice "a" ["P"]) entry.1 entry.2).all fun t => (t.pins 0).length == 1 := by decide +kernel
  have one := onePin _ isDevice
  rw [translated] at one
  have two := pins t inLibrary
  simp [two] at one

end Redraft
