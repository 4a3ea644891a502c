import Redraft.Proofs.References
import Redraft.Proofs.UnitTiles

/-!
# Missing units

The units drawn for a part are recorded under its reference, symbol by symbol and
sheet by sheet. If all symbols of a reference find one library symbol, the units
that are added for it in the end are those of the symbol that no sheet draws.
-/

namespace Redraft

/-! ## Copies of placed symbols -/

theorem PlacedSymbol.fieldValue_move (x : PlacedSymbol) (d : Point) (key : String) :
    (x.move d).fieldValue key = x.fieldValue key := by
  rw [fieldValue_eq, fieldValue_eq]
  unfold fieldValues PlacedSymbol.move
  rw [List.map_map]
  rfl

theorem Field.layOut_value (source : Symbol) (placement : Placement) (f : Field Point) :
    ((f.layOut source placement).key, (f.layOut source placement).value) = (f.key, f.value) := by
  unfold layOut
  split <;> rfl

theorem PartUnits.unitSymbol_fieldValue (part : PartUnits) (unit : Nat) (path : SheetPath) (position : Point)
    (key : String) : (part.unitSymbol unit path position).fieldValue key = part.symbol.fieldValue key := by
  rw [PlacedSymbol.fieldValue_eq, PlacedSymbol.fieldValue_eq]
  unfold fieldValues unitSymbol
  dsimp only
  rw [List.map_map]
  congr 2
  exact List.map_congr_left fun f _ => f.layOut_value part.source _

/-- The units that some symbols draw for a reference, in order. -/
def unitsOf (ref : String) (symbols : List PlacedSymbol) : List Nat :=
  (symbols.filter (·.fieldValue "Reference" = ref)).map (·.unit)

theorem unitsOf_move (ref : String) (symbols : List PlacedSymbol) (d : Point) :
    unitsOf ref (symbols.map (·.move d)) = unitsOf ref symbols := by
  unfold unitsOf
  rw [List.filter_map, List.map_map]
  simp only [Function.comp_def, PlacedSymbol.fieldValue_move]
  rfl

/-! ## The record -/

/-- The missing units of a part all bear its reference. -/
theorem PartUnits.filter_missing (part : PartUnits) (ref : String) :
    (part.missing.map fun unit => (part, unit)).filter (·.1.symbol.fieldValue "Reference" = ref) =
      if part.symbol.fieldValue "Reference" = ref then part.missing.map fun unit => (part, unit) else [] := by
  split
  · rename_i own
    rw [List.filter_eq_self]
    intro entry member
    obtain ⟨unit, _, rfl⟩ := List.mem_map.1 member
    exact decide_eq_true own
  · rename_i other
    rw [List.filter_eq_nil_iff]
    intro entry member isRef
    obtain ⟨unit, _, rfl⟩ := List.mem_map.1 member
    exact other (of_decide_eq_true isRef)

/-- A part is recorded with the units drawn for it, the last one first, of a library symbol. -/
structure PartUnits.Tracks (part : PartUnits) (source : Symbol) (drawn : List Nat) : Prop where
  drawn : part.drawn = drawn
  isSource : part.source = source
  total : part.total = source.unitCount
  name : part.symbol.name = source.name

namespace UnitRecord
variable {record : UnitRecord} {ref : String} {source : Symbol} {drawn : List Nat} {x : PlacedSymbol}

/-- Nothing is recorded under a reference, or the units drawn for it of a library symbol. -/
def Tracks (record : UnitRecord) (ref : String) (source : Symbol) (drawn : List Nat) : Prop :=
  (record.get? ref = none ∧ drawn = []) ∨ ∃ part, record.get? ref = some part ∧ part.Tracks source drawn

/-- Each part is recorded once, under the reference of the symbol it is recorded with. -/
structure Keyed (record : UnitRecord) : Prop where
  once : (record.map (·.1)).Nodup
  references : ∀ entry ∈ record, entry.2.symbol.fieldValue "Reference" = entry.1

theorem Tracks.place_other (tracks : record.Tracks ref source drawn) (other : x.fieldValue "Reference" ≠ ref)
    (source' : Symbol) : (record.place x source').Tracks ref source drawn := by
  unfold place
  split
  · exact tracks
  · unfold Tracks
    rw [Entries.get?_put_of_ne (Ne.symm other)]
    exact tracks

theorem Tracks.place_own (tracks : record.Tracks ref source drawn) (single : source.isPower = false)
    (several : 2 ≤ source.unitCount) (own : x.fieldValue "Reference" = ref) (name : x.name = source.name) :
    (record.place x source).Tracks ref source (x.unit :: drawn) := by
  have recorded : ¬ (source.isPower || source.unitCount ≤ 1) := by
    simp only [single, Bool.false_or, decide_eq_true_eq]
    omega
  subst own
  refine .inr ⟨_, by rw [place, if_neg recorded, Entries.get?_put_self], ?_⟩
  rcases tracks with ⟨absent, none⟩ | ⟨part, found, isPart⟩
  · rw [absent, none]
    exact ⟨rfl, rfl, Nat.max_eq_right (Nat.zero_le _), name⟩
  · -- the symbol found is the recorded one, so the count of units that the record raises stays
    rw [found]
    refine ⟨congrArg (x.unit :: ·) isPart.drawn, isPart.isSource, ?_, isPart.name⟩
    exact (congrArg (max · source.unitCount) isPart.total).trans (Nat.max_self _)

theorem Keyed.place (keyed : record.Keyed) (x : PlacedSymbol) (source : Symbol) : (record.place x source).Keyed := by
  unfold UnitRecord.place
  split
  · exact keyed
  · refine ⟨Entries.nodup_put keyed.once, ?_⟩
    rintro ⟨key, part⟩ member
    rcases Entries.mem_put member with there | ⟨rfl, rfl⟩
    · exact keyed.references _ there
    · cases known : record.get? (x.fieldValue "Reference") with
      | none => rfl
      | some part => exact keyed.references (_, part) (Entries.mem_of_get? known)

/-- The symbols of a sheet are recorded one after the other. -/
theorem Tracks.foldl {s : Sheet} {symbols : List PlacedSymbol} (tracks : record.Tracks ref source drawn)
    (single : source.isPower = false) (several : 2 ≤ source.unitCount)
    (found : ∀ x ∈ symbols, x.fieldValue "Reference" = ref → s.symbol? x.name = some source) :
    (symbols.foldl s.recordUnit record).Tracks ref source ((unitsOf ref symbols).reverse ++ drawn) := by
  induction symbols generalizing record drawn with
  | nil => exact tracks
  | cons x symbols ih =>
    obtain ⟨here, later⟩ := List.forall_mem_cons.1 found
    rw [List.foldl_cons]
    by_cases own : x.fieldValue "Reference" = ref
    · have isSource := here own
      have step : s.recordUnit record x = record.place x source := by rw [Sheet.recordUnit, isSource]
      have name : x.name = source.name := (firstNamed_name isSource).symm
      have rest := ih (tracks.place_own single several own name) later
      rw [step]
      simpa [unitsOf, own] using rest
    · have step : (s.recordUnit record x).Tracks ref source drawn := by
        unfold Sheet.recordUnit
        split
        · exact tracks.place_other own _
        · exact tracks
      simpa [unitsOf, own] using ih step later

theorem Keyed.foldl {s : Sheet} {symbols : List PlacedSymbol} (keyed : record.Keyed) :
    (symbols.foldl s.recordUnit record).Keyed := by
  induction symbols generalizing record with
  | nil => exact keyed
  | cons x symbols ih =>
    refine ih ?_
    unfold Sheet.recordUnit
    split
    · exact keyed.place x _
    · exact keyed

theorem missing_cons (key : String) (part : PartUnits) (record : UnitRecord) :
    missing ((key, part) :: record) = (part.missing.map fun unit => (part, unit)) ++ missing record := rfl

theorem missing_of_absent (references : ∀ entry ∈ record, entry.2.symbol.fieldValue "Reference" = entry.1)
    (absent : ref ∉ record.map (·.1)) :
    record.missing.filter (·.1.symbol.fieldValue "Reference" = ref) = [] := by
  induction record with
  | nil => rfl
  | cons entry record ih =>
    obtain ⟨key, part⟩ := entry
    obtain ⟨isKey, others⟩ := List.forall_mem_cons.1 references
    rw [List.map_cons, List.mem_cons, not_or] at absent
    have other : part.symbol.fieldValue "Reference" ≠ ref := fun own => absent.1 (own.symm.trans isKey)
    rw [missing_cons, List.filter_append, part.filter_missing, if_neg other, List.nil_append, ih others absent.2]

/-- The missing units of the symbols of a reference are those of the part recorded under it. -/
theorem Keyed.missing_of (keyed : record.Keyed) {part : PartUnits} (found : record.get? ref = some part) :
    record.missing.filter (·.1.symbol.fieldValue "Reference" = ref) = part.missing.map fun unit => (part, unit) := by
  obtain ⟨once, references⟩ := keyed
  induction record with
  | nil => cases found
  | cons entry record ih =>
    obtain ⟨key, first⟩ := entry
    obtain ⟨isKey, others⟩ := List.forall_mem_cons.1 references
    rw [List.map_cons, List.nodup_cons] at once
    rw [Entries.get?, List.lookup_cons] at found
    rw [missing_cons, List.filter_append, first.filter_missing, isKey]
    by_cases own : key = ref
    · subst own
      rw [beq_self_eq_true] at found
      obtain rfl := Option.some.inj found
      rw [if_pos rfl, missing_of_absent others once.1, List.append_nil]
    · rw [beq_eq_false_iff_ne.2 (Ne.symm own)] at found
      rw [if_neg own, List.nil_append]
      exact ih found once.2 others

end UnitRecord

/-! ## Drawn sheets -/

section Drawn
open Drafting
variable {c : Context} {ref : String} {source : Symbol} {drawn : List Nat} {report report' : Report}
  {units units' : UnitRecord}

/-- The symbols placed on an empty sheet are recorded when it is drawn. -/
theorem ends_drawSheet_tracks {e : Eagle.Sheet} {fresh : Sheet} {done : Desk}
    (ran : Ends (drawSheet c e) ⟨fresh, report, units⟩ () done) (empty : fresh.symbols = [])
    (tracks : units.Tracks ref source drawn) (single : source.isPower = false) (several : 2 ≤ source.unitCount)
    (found : ∀ x ∈ done.sheet.symbols, x.fieldValue "Reference" = ref → done.sheet.symbol? x.name = some source) :
    done.units.Tracks ref source ((unitsOf ref done.sheet.symbols).reverse ++ drawn) := by
  obtain ⟨content, isContent, finished, record⟩ := ends_drawSheet ran
  obtain ⟨placed, ofBuses, ofNets, contents⟩ := ends_drawContent isContent
  rw [empty, List.length_nil, List.drop_zero] at finished record
  rw [finished, Sheet.finish_symbols] at found
  rw [record, contents.units, finished, Sheet.finish_symbols, unitsOf_move]
  refine tracks.foldl single several fun x member own => ?_
  have moved := found _ (List.mem_map_of_mem member) ((x.fieldValue_move _ _).trans own)
  rwa [Sheet.finish_symbol?] at moved

theorem ends_drawSheet_keyed {e : Eagle.Sheet} {d done : Desk} (ran : Ends (drawSheet c e) d () done)
    (keyed : d.units.Keyed) : done.units.Keyed := by
  obtain ⟨content, isContent, _, record⟩ := ends_drawSheet ran
  obtain ⟨placed, ofBuses, ofNets, contents⟩ := ends_drawContent isContent
  rw [record, contents.units]
  exact keyed.foldl

theorem SheetRuns.keyed {runs : List SheetRun} (ran : SheetRuns c report units runs report' units')
    (keyed : units.Keyed) : units'.Keyed := by
  induction ran with
  | nil => exact keyed
  | cons ran _ ih => exact ih (ends_drawSheet_keyed ran keyed)

/-- The symbols of all sheets are recorded, whatever other parts come in between. -/
theorem SheetRuns.tracks {runs : List SheetRun} (ran : SheetRuns c report units runs report' units')
    (empty : ∀ run ∈ runs, run.fresh.symbols = []) (tracks : units.Tracks ref source drawn)
    (single : source.isPower = false) (several : 2 ≤ source.unitCount)
    (found : ∀ run ∈ runs, ∀ x ∈ run.done.symbols, x.fieldValue "Reference" = ref →
      run.done.symbol? x.name = some source) :
    units'.Tracks ref source ((runs.flatMap fun run => unitsOf ref run.done.symbols).reverse ++ drawn) := by
  induction ran generalizing drawn with
  | nil => exact tracks
  | cons ran _ ih =>
    obtain ⟨blank, empty⟩ := List.forall_mem_cons.1 empty
    obtain ⟨here, later⟩ := List.forall_mem_cons.1 found
    -- the record that a sheet starts with holds the units of all sheets before it
    have first := ends_drawSheet_tracks ran blank tracks single several here
    have rest := ih empty first later
    rwa [List.flatMap_cons, List.reverse_append, List.append_assoc]

end Drawn

/-! ## The root sheet -/

namespace Conversion

/-- All sheets that are drawn so far, the root first. -/
def drawnSheets (c : Conversion) : List Sheet := c.root :: c.sheets

/-- The units that the sheets draw for a reference. -/
def drawnUnits (c : Conversion) (ref : String) : List Nat := c.drawnSheets.flatMap fun s => unitsOf ref s.symbols

/-- Symbols of the reference are placed, and each finds the same library symbol on its sheet. -/
structure Places (c : Conversion) (ref : String) (source : Symbol) : Prop where
  placed : ∃ s ∈ c.drawnSheets, ∃ x ∈ s.symbols, x.fieldValue "Reference" = ref
  found : ∀ s ∈ c.drawnSheets, ∀ x ∈ s.symbols, x.fieldValue "Reference" = ref → s.symbol? x.name = some source

end Conversion

section Document
variable {document : Eagle.Schematic} {project : Option String} {stem : String} {page : Page} {c : Context}
  {shared : Report} {state : Conversion} {runs : List SheetRun} {ref : String} {source : Symbol}

theorem DrawnSheets.empty (drawn : DrawnSheets document c shared page state runs) :
    ∀ run ∈ runs, run.fresh.symbols = [] := by
  intro run member
  obtain ⟨n, found⟩ := List.mem_iff_getElem?.1 member
  obtain ⟨name, file, fresh⟩ := drawn.fresh n run found
  rw [fresh]
  rfl

theorem DrawnSheets.done_mem (drawn : DrawnSheets document c shared page state runs) {run : SheetRun}
    (member : run ∈ runs) : run.done ∈ state.drawnSheets := by
  rcases drawn.sheets with ⟨only, rfl, root, _⟩ | ⟨_, sheets, _⟩
  · rw [List.mem_singleton.1 member, ← root]
    exact .head _
  · exact .tail _ (sheets ▸ List.mem_map_of_mem member)

theorem DrawnSheets.drawnUnits (drawn : DrawnSheets document c shared page state runs) (ref : String) :
    state.drawnUnits ref = runs.flatMap fun run => unitsOf ref run.done.symbols := by
  unfold Conversion.drawnUnits Conversion.drawnSheets
  rcases drawn.sheets with ⟨run, rfl, root, none⟩ | ⟨_, sheets, _, empty, _⟩
  · rw [root, none]
    rfl
  · rw [List.flatMap_cons, empty, sheets, List.flatMap_map]
    rfl

/-- All units that the sheets draw for a reference are recorded under it. -/
theorem convertSheets_tracks (ran : convertSheets document project stem page = .ok (c, state))
    (places : state.Places ref source) (single : source.isPower = false) (several : 2 ≤ source.unitCount) :
    ∃ part, state.units.get? ref = some part ∧ part.Tracks source (state.drawnUnits ref).reverse := by
  obtain ⟨shared, runs, _, drawn⟩ := convertSheets_ok ran
  have tracks : state.units.Tracks ref source (state.drawnUnits ref).reverse := by
    rw [drawn.drawnUnits, ← List.append_nil (List.reverse _)]
    exact drawn.drawn.tracks drawn.empty (.inl ⟨rfl, rfl⟩) single several
      fun run member => places.found _ (drawn.done_mem member)
  rcases tracks with ⟨_, none⟩ | recorded
  · obtain ⟨s, isSheet, x, isSymbol, own⟩ := places.placed
    have there : x.unit ∈ state.drawnUnits ref := by
      refine List.mem_flatMap.2 ⟨s, isSheet, List.mem_map_of_mem ?_⟩
      exact List.mem_filter.2 ⟨isSymbol, decide_eq_true own⟩
    rw [List.reverse_eq_nil_iff.1 none] at there
    cases there
  · exact recorded

theorem convertSheets_keyed (ran : convertSheets document project stem page = .ok (c, state)) : state.units.Keyed := by
  obtain ⟨shared, runs, _, drawn⟩ := convertSheets_ok ran
  exact drawn.drawn.keyed ⟨List.nodup_nil, by simp⟩

/-- The units that a recorded part is missing are those of its library symbol that are not drawn. -/
theorem PartUnits.Tracks.missing {part : PartUnits} {drawn : List Nat} (tracks : part.Tracks source drawn) :
    part.missing = (List.range' 1 source.unitCount).filter (· ∉ drawn) := by
  unfold PartUnits.missing PartUnits.needs
  rw [tracks.total, tracks.drawn]
  refine List.filter_congr fun unit member => ?_
  obtain ⟨first, last⟩ := List.mem_range'_1.1 member
  have isUnit : unit ≤ source.unitCount := by omega
  simp [first, isUnit]

/-- The symbols added to a sheet for a reference stand for the missing units of the parts that have it. -/
theorem Sheet.tile_added (s : Sheet) (record : UnitRecord) (ref : String) :
    (((s.unitTiles record).map (·.symbol s.path)).filter (·.fieldValue "Reference" = ref)).map
        (fun x => (x.name, x.unit)) =
      (record.missing.filter (·.1.symbol.fieldValue "Reference" = ref)).map
        fun entry => (entry.1.symbol.name, entry.2) := by
  have missing : record.missing = (s.unitTiles record).map fun x => (x.part, x.unit) :=
    (Tiling.tiles_units ..).symm
  rw [missing, List.filter_map, List.filter_map, List.map_map, List.map_map]
  simp only [Function.comp_def, UnitTile.symbol, PartUnits.unitSymbol_fieldValue]
  rfl

/-- The units that are added for a reference are those that no sheet draws, once each and in order,
    and none is on record any more. -/
theorem convert_completes_units {p : Project} (ran : convert document project stem page = .ok p) :
    ∃ c state, convertSheets document project stem page = .ok (c, state) ∧ p.root = state.addMissingUnits.root ∧
      p.sheets = state.sheets ∧ state.addMissingUnits.units = [] ∧
      ∃ added, p.root.symbols = state.root.symbols ++ added ∧
        ∀ ref source, state.Places ref source → source.isPower = false → 2 ≤ source.unitCount →
          (added.filter (·.fieldValue "Reference" = ref)).map (fun x => (x.name, x.unit)) =
            ((List.range' 1 source.unitCount).filter (· ∉ state.drawnUnits ref)).map
              fun unit => (source.name, unit) := by
  obtain ⟨c, state, drawn, rfl⟩ := convert_iff.1 ran
  refine ⟨c, state, drawn, rfl, rfl, rfl, _, (state.root.tile_symbols state.units).2, ?_⟩
  intro ref source places single several
  obtain ⟨part, found, tracks⟩ := convertSheets_tracks drawn places single several
  have missing : part.missing = (List.range' 1 source.unitCount).filter (· ∉ state.drawnUnits ref) := by
    rw [tracks.missing]
    simp only [List.mem_reverse]
  rw [Sheet.tile_added, (convertSheets_keyed drawn).missing_of found, List.map_map, missing]
  simp only [Function.comp_def, tracks.name]

end Document

instance (c : Conversion) (ref : String) (source : Symbol) : Decidable (c.Places ref source) :=
  decidable_of_iff ((∃ s ∈ c.drawnSheets, ∃ x ∈ s.symbols, x.fieldValue "Reference" = ref) ∧
      ∀ s ∈ c.drawnSheets, ∀ x ∈ s.symbols, x.fieldValue "Reference" = ref → s.symbol? x.name = some source)
    ⟨fun ⟨placed, found⟩ => ⟨placed, found⟩, fun ⟨placed, found⟩ => ⟨placed, found⟩⟩

/-- An instance of a gate of the part. -/
def spreadUnit (gate : String) : Eagle.Instance := ⟨"U1", gate, ⟨0, 0⟩, false, none, [], []⟩

/-- A document with a part of three gates: one sheet draws the last one, another one the first, twice. -/
def spreadUnits : Eagle.Schematic where
  libraries := [("a", {
    name := "a"
    symbols := [("S", ⟨"S", [pointPin "P" ⟨0, 0⟩]⟩)]
    deviceSets := [⟨"X", "U", [⟨"A", "S", ⟨0, 0⟩⟩, ⟨"B", "S", ⟨0, 0⟩⟩, ⟨"C", "S", ⟨0, 0⟩⟩], [⟨"", some "P", []⟩]⟩] })]
  parts := [("U1", ⟨"U1", "a", "X", "", none, none, [], []⟩)]
  sheets := [⟨none, [], [spreadUnit "C"], [], []⟩, ⟨none, [], [spreadUnit "A", spreadUnit "A"], [], []⟩]

theorem spreadUnits_placed : ∃ c state source,
    convertSheets spreadUnits none "demo" ⟨some "A4", ⟨2970000, 2100000⟩⟩ = .ok (c, state) ∧
    state.Places "U1" source ∧ source.isPower = false ∧ source.unitCount = 3 ∧ source.name = "X" ∧
    state.drawnUnits "U1" = [3, 1, 1] := by
  have checked : (convertSheets spreadUnits none "demo" ⟨some "A4", ⟨2970000, 2100000⟩⟩).toOption.any (fun drawn =>
      (drawn.2.sheets.head?.bind (·.symbol? "X")).any fun source =>
        decide (drawn.2.Places "U1" source ∧ source.isPower = false ∧ source.unitCount = 3 ∧ source.name = "X" ∧
          drawn.2.drawnUnits "U1" = [3, 1, 1])) = true := by decide +kernel
  obtain ⟨⟨c, state⟩, drawn, holds⟩ := (Option.any_eq_true ..).1 checked
  obtain ⟨source, _, holds⟩ := (Option.any_eq_true ..).1 holds
  exact ⟨c, state, source, ok_of_toOption drawn, of_decide_eq_true holds⟩

/-- The unit that is missing is added once. -/
theorem spreadUnits_completed : ∃ p,
    convert spreadUnits none "demo" ⟨some "A4", ⟨2970000, 2100000⟩⟩ = .ok p ∧
    ∃ (state : Conversion) (added : List PlacedSymbol),
      state.addMissingUnits.units = [] ∧ p.root.symbols = state.root.symbols ++ added ∧
      (added.filter (·.fieldValue "Reference" = "U1")).map (fun x => (x.name, x.unit)) = [("X", 2)] := by
  obtain ⟨c, state, source, drawn, places, single, count, name, units⟩ := spreadUnits_placed
  have ran := convert_iff.2 ⟨c, state, drawn, rfl⟩
  obtain ⟨c', state', drawn', _, _, none, added, symbols, completed⟩ := convert_completes_units ran
  obtain ⟨_, rfl⟩ := Prod.mk.inj (Except.ok.inj (drawn'.symm.trans drawn))
  refine ⟨_, ran, state', added, none, symbols, ?_⟩
  rw [completed "U1" source places single (by rw [count]; decide), count, name, units]
  decide

end Redraft
