import Redraft.Proofs.DeviceDrawing
import Redraft.Proofs.SymbolNames

/-!
# References

A placed symbol has its reference from the name of its part and from prefixes
that tell parts without a package and parts that are named by a number. Parts
are told apart by their references unless one is named as the prefix of the
other makes it.
-/

namespace Redraft

/-! ## Values of fields -/

theorem PlacedSymbol.fieldValue_eq (x : PlacedSymbol) (key : String) :
    x.fieldValue key = ((fieldValues x.fields).get? key).getD "" := by
  rw [fieldValue, fieldValues, get?_map_key]

section Values
variable {i : Eagle.Instance} {r : Resolved} {ref : String} {placement : Placement}
  {fields fields' : List (Field Point)}

theorem addHidden_values (fields : List (Field Point)) (values : List (String × String)) :
    ∃ more, fieldValues (addHidden fields values) = fieldValues fields ++ more := by
  unfold addHidden
  split
  · exact ⟨_, List.map_append⟩
  · exact ⟨[], (List.append_nil _).symm⟩

theorem applyAttribute_values {a : Eagle.Attribute} (ran : applyAttribute i fields a = .ok fields') :
    fieldValues fields' = fieldValues fields := by
  unfold applyAttribute at ran
  dsimp only at ran
  split at ran
  · cases ran
    rfl
  · obtain ⟨alignment, _, same⟩ := bind_ok.1 ran
    cases same
    exact changeField_map fun _ => rfl

theorem smash_values (i : Eagle.Instance) (fields : List (Field Point)) :
    fieldValues (smash i fields) = fieldValues fields := by
  have hidden (key : String) (fields : List (Field Point)) : fieldValues (hideField key fields) = fieldValues fields :=
    changeField_map fun _ => rfl
  unfold smash
  dsimp only
  split
  · rfl
  · split <;> split <;> simp only [hidden]

theorem numberFields_values (fields : List (Field Point)) : fieldValues (numberFields fields) = fieldValues fields := by
  unfold fieldValues numberFields
  rw [List.map_map]
  calc fields.zipIdx.map ((fun f => (f.key, f.value)) ∘ Prod.fst)
    _ = (fields.zipIdx.map Prod.fst).map fun f => (f.key, f.value) := List.map_map.symm
    _ = fields.map fun f => (f.key, f.value) := by rw [List.zipIdx_map_fst]

/-- A placed symbol has the fields of its library symbol first, with their values. -/
theorem instanceFields_values (ran : instanceFields i r ref placement = .ok fields) :
    ∃ more, fieldValues fields = fieldValues (libraryFields r ref placement) ++ more := by
  obtain ⟨applied, isApplied, same⟩ := bind_ok.1 ran
  cases same
  obtain ⟨ofPart, first⟩ := addHidden_values (libraryFields r ref placement)
    (r.part.attributes ++ variantFields r.part.variants)
  obtain ⟨ofInstance, second⟩ := addHidden_values applied (variantFields i.variants)
  have kept : fieldValues applied = fieldValues (libraryFields r ref placement) ++ ofPart := by
    -- attributes move and hide fields, but set no value
    refine foldlM_keeps (fun fields => fieldValues fields = _) ?_ first isApplied
    intro fields a fields' same step
    rw [applyAttribute_values step, same]
  refine ⟨ofPart ++ ofInstance, ?_⟩
  rw [numberFields_values, smash_values, second, kept, List.append_assoc]

theorem libraryFields_reference (there : "Reference" ∈ r.symbol.fields.map (·.key)) :
    (fieldValues (libraryFields r ref placement)).get? "Reference" = some ref := by
  obtain ⟨f, found⟩ : ∃ f, fieldOf? r.symbol.fields "Reference" = some f := by
    obtain ⟨f, member, isReference⟩ := List.mem_map.1 there
    exact Option.isSome_iff_exists.1 (List.find?_isSome.2 ⟨f, member, beq_iff_eq.2 isReference⟩)
  have key : f.key = "Reference" := by simpa using List.find?_some found
  unfold fieldValues libraryFields
  rw [List.map_map]
  refine (get?_map_key _ r.symbol.fields "Reference").trans ?_
  rw [found]
  exact congrArg some (if_pos key)

/-- The reference among the fields of an instance is the one given if the library symbol has a reference. -/
theorem instanceFields_reference (ran : instanceFields i r ref placement = .ok fields)
    (there : "Reference" ∈ r.symbol.fields.map (·.key)) : (fieldOf? fields "Reference").map (·.value) = some ref := by
  obtain ⟨more, values⟩ := instanceFields_values ran
  rw [← get?_map_key]
  change (fieldValues fields).get? "Reference" = some ref
  rw [values, Entries.get?, List.lookup_append, ← Entries.get?, libraryFields_reference there]
  rfl

/-- The reference of a placed symbol is that of its instance if the library symbol has a reference. -/
theorem placeSymbol_reference {path : SheetPath} {number : Nat} {symbol : PlacedSymbol}
    (made : placeSymbol path number i r placement = .ok symbol)
    (there : "Reference" ∈ r.symbol.fields.map (·.key)) :
    symbol.fieldValue "Reference" = reference i.part r.package := by
  obtain ⟨fields, isMade, same⟩ := bind_ok.1 made
  cases same
  rw [PlacedSymbol.fieldValue, instanceFields_reference isMade there]
  rfl

end Values

/-! ## References of parts -/

theorem not_allDigits {c : Char} {s : String} (member : c ∈ s.toList) (other : Text.digitForms.has c = false) :
    Text.allDigits s = false := by
  rw [Text.allDigits, Bool.and_eq_false_iff, List.all_eq_false]
  exact .inr ⟨c, member, by rw [other]; exact Bool.false_ne_true⟩

/-- The prefix in the reference of the second part makes it the name of the first one. -/
def Resolved.Meets (r q : Resolved) : Prop :=
  r.package.isEmpty = false ∧
    (q.package.isEmpty = true ∧ r.part.name = "#" ++ q.part.name ∨
      q.package.isEmpty = false ∧ Text.allDigits q.part.name = true ∧ r.part.name = "UNK" ++ q.part.name)

section Names
variable {part other package : String}

theorem not_allDigits_hash (part : String) : Text.allDigits ("#" ++ part) = false :=
  not_allDigits (c := '#') (by simp) (by decide)

theorem not_allDigits_unk (part : String) : Text.allDigits ("UNK" ++ part) = false :=
  not_allDigits (c := 'U') (by simp) (by decide)

theorem reference_bare (bare : package.isEmpty = true) : reference part package = "#" ++ part := by
  simp [reference, bare, not_allDigits_hash]

theorem reference_packaged (packaged : package.isEmpty = false) :
    reference part package = if Text.allDigits part then "UNK" ++ part else part := by
  simp [reference, packaged]

/-- A part with a package has the reference of one without just if it is named as the other one's
    number sign makes it. -/
theorem reference_packaged_eq_hash (packaged : package.isEmpty = false) :
    reference part package = "#" ++ other ↔ part = "#" ++ other := by
  rw [reference_packaged packaged]
  split
  · rename_i digits
    have noUnk : "UNK" ++ part ≠ "#" ++ other := by
      intro same
      have := congrArg (fun s : String => s.toList.head?) same
      simp at this
    have noHash : part ≠ "#" ++ other := by
      rintro rfl
      rw [not_allDigits_hash] at digits
      cases digits
    exact iff_of_false noUnk noHash
  · rfl

end Names

/-- Parts have one reference if they have one name and both a package or none, or if one is named as the
    other one's prefix makes it. -/
theorem reference_eq_iff (r q : Resolved) : reference r.part.name r.package = reference q.part.name q.package ↔
    r.part.name = q.part.name ∧ r.package.isEmpty = q.package.isEmpty ∨ r.Meets q ∨ q.Meets r := by
  unfold Resolved.Meets
  cases first : r.package.isEmpty <;> cases second : q.package.isEmpty
  · -- only a number gets a prefix here, and a name with the prefix is no number
    rw [reference_packaged first, reference_packaged second]
    have noUnk {m n : String} (digits : Text.allDigits m = true) : m ≠ "UNK" ++ n := by
      rintro rfl
      rw [not_allDigits_unk] at digits
      cases digits
    have apart (differ : Text.allDigits r.part.name ≠ Text.allDigits q.part.name) : r.part.name ≠ q.part.name :=
      fun same => differ (congrArg Text.allDigits same)
    cases digits : Text.allDigits r.part.name <;> cases digits' : Text.allDigits q.part.name
    · simp
    · simp [apart (by simp [digits, digits'])]
    · simp [apart (by simp [digits, digits']), eq_comm]
    · simp [noUnk digits, noUnk digits']
  · rw [reference_bare second, reference_packaged_eq_hash first]
    simp
  · rw [reference_bare first, eq_comm, reference_packaged_eq_hash second]
    simp
  · rw [reference_bare first, reference_bare second]
    simp

/-! ## Placed parts -/

section Placed
open Drafting
variable {document : Eagle.Schematic} {library project : String} {c : Context} {shared : Report}
  {i j : Eagle.Instance} {r q : Resolved} {d d' f f' : Desk}

/-- The symbol that a part is placed with has a reference. -/
theorem symbolOf_reference {part : Eagle.Part} {symbol : Symbol} (found : document.symbolOf part = some symbol) :
    "Reference" ∈ symbol.fields.map (·.key) := by
  obtain ⟨library, _, named⟩ := Option.bind_eq_some_iff.1 found
  have member : symbol ∈ library.translations := List.mem_reverse.1 (List.mem_of_find?_eq_some named)
  obtain ⟨⟨deviceSet, device⟩, _, translated⟩ := List.mem_filterMap.1 member
  obtain ⟨report, made⟩ := translation_ok translated
  rw [(drawDevice_ok made).1]
  exact .head _

/-- Instances of one part have one package. -/
theorem resolve_package (first : c.resolve i = .ok r) (second : c.resolve j = .ok q) (same : r.part = q.part) :
    r.package = q.package := by
  obtain ⟨_, library, isLibrary, _, _, package⟩ := resolve_ok first
  obtain ⟨_, library', isLibrary', _, _, package'⟩ := resolve_ok second
  rw [same] at isLibrary package
  obtain rfl := Option.some.inj (isLibrary.symm.trans isLibrary')
  exact package.trans package'.symm

/-- Instances that spell the names of their parts as the parts do stand for one part if the names are one. -/
theorem resolve_part (first : c.resolve i = .ok r) (second : c.resolve j = .ok q) (spelled : i.part = r.part.name)
    (spelled' : j.part = q.part.name) : r.part = q.part ↔ r.part.name = q.part.name := by
  constructor
  · exact congrArg _
  · intro same
    have isPart := (resolve_ok first).1
    rw [spelled, same, ← spelled'] at isPart
    exact Option.some.inj (isPart.symm.trans (resolve_ok second).1)

/-- A placed instance has the reference of its part. -/
theorem ends_placeInstance_reference (isShared : Context.ofDocument document library project = .ok (c, shared))
    (ran : Ends (placeInstance c i) d true d') :
    ∃ r x, c.resolve i = .ok r ∧ d'.sheet.symbols = d.sheet.symbols ++ [x] ∧
      x.fieldValue "Reference" = reference i.part r.package := by
  obtain ⟨_, ⟨_, _, none, _⟩ | ⟨r, placement, x, resolved, _, _, made, sheet⟩⟩ := ends_placeInstance_cases ran
  · cases none
  · have there := symbolOf_reference (resolve_symbolOf isShared resolved)
    refine ⟨r, x, resolved, ?_, placeSymbol_reference made there⟩
    rw [sheet, Sheet.place_symbols]

/-- Two placed instances, which spell the names of their parts as the parts do, have one reference just if
    they stand for one part, or if the prefix of one part makes its name that of the other. -/
theorem references_eq_iff (isShared : Context.ofDocument document library project = .ok (c, shared))
    (first : Ends (placeInstance c i) d true d') (second : Ends (placeInstance c j) f true f') :
    ∃ r q x y, c.resolve i = .ok r ∧ c.resolve j = .ok q ∧
      d'.sheet.symbols = d.sheet.symbols ++ [x] ∧ f'.sheet.symbols = f.sheet.symbols ++ [y] ∧
      (i.part = r.part.name → j.part = q.part.name →
        (x.fieldValue "Reference" = y.fieldValue "Reference" ↔ r.part = q.part ∨ r.Meets q ∨ q.Meets r)) := by
  obtain ⟨r, x, resolved, placed, ref⟩ := ends_placeInstance_reference isShared first
  obtain ⟨q, y, resolved', placed', ref'⟩ := ends_placeInstance_reference isShared second
  refine ⟨r, q, x, y, resolved, resolved', placed, placed', fun spelled spelled' => ?_⟩
  have onePart : r.part.name = q.part.name ∧ r.package.isEmpty = q.package.isEmpty ↔ r.part = q.part := by
    rw [← resolve_part resolved resolved' spelled spelled']
    exact and_iff_left_of_imp fun same => by rw [resolve_package resolved resolved' same]
  rw [ref, ref', spelled, spelled', reference_eq_iff, onePart]

end Placed

/-- An instance of the gate of a part. -/
def gateOf (part : String) : Eagle.Instance := ⟨part, "G", ⟨0, 0⟩, false, none, [], []⟩

/-- The symbol is placed for an instance of the document. -/
def PlacedFor (document : Eagle.Schematic) (c : Context) (i : Eagle.Instance) (x : PlacedSymbol) : Prop :=
  ∃ library project shared d d', Context.ofDocument document library project = .ok (c, shared) ∧
    i ∈ document.sheets.flatMap (·.instances) ∧ Drafting.Ends (placeInstance c i) d true d' ∧
    d'.sheet.symbols = d.sheet.symbols ++ [x]

/-- A document with two parts, one named by a number and one as its prefix makes it. The latter
    has two instances, which spell its name in two ways. -/
def numberedParts : Eagle.Schematic where
  libraries := [("a", {
    name := "a"
    symbols := [("S", ⟨"S", [.pin ⟨"P", ⟨0, 0⟩, none, none, none, none, none⟩]⟩)]
    deviceSets := [⟨"X", "U", [⟨"G", "S", ⟨0, 0⟩⟩], [⟨"", some "P", [⟨"G", "P", "1"⟩]⟩]⟩] })]
  parts := [("1", ⟨"1", "a", "X", "", none, none, [], []⟩), ("UNK1", ⟨"UNK1", "a", "X", "", none, none, [], []⟩)]
  sheets := [⟨none, [], [gateOf "1", gateOf "UNK1", gateOf "unk1"], [], []⟩]

open Drafting in
theorem numberedParts_placed : ∃ c report, ∃ d first second third : Desk,
    Context.ofDocument numberedParts "demo" "demo" = .ok (c, report) ∧ d.sheet.symbols = [] ∧
    Ends (placeInstance c (gateOf "1")) d true first ∧ Ends (placeInstance c (gateOf "UNK1")) first true second ∧
    Ends (placeInstance c (gateOf "unk1")) second true third ∧
    third.sheet.symbols.map (·.fieldValue "Reference") = ["UNK1", "UNK1", "unk1"] ∧
    (c.document.part? "1").map (·.name) = some "1" ∧ (c.document.part? "UNK1").map (·.name) = some "UNK1" := by
  have checked : (Context.ofDocument numberedParts "demo" "demo").toOption.any (fun shared =>
      let d : Desk := ⟨shared.1.newSheet "demo" "demo.kicad_sch" .root ⟨some "A4", ⟨2970000, 2100000⟩⟩, shared.2, []⟩
      let first := (placeInstance shared.1 (gateOf "1")).outcome d
      let second := (placeInstance shared.1 (gateOf "UNK1")).outcome first.2
      let third := (placeInstance shared.1 (gateOf "unk1")).outcome second.2
      decide (first.1.toOption = some true ∧ second.1.toOption = some true ∧ third.1.toOption = some true ∧
        third.2.sheet.symbols.map (·.fieldValue "Reference") = ["UNK1", "UNK1", "unk1"] ∧
        (shared.1.document.part? "1").map (·.name) = some "1" ∧
        (shared.1.document.part? "UNK1").map (·.name) = some "UNK1")) = true := by
    decide +kernel
  obtain ⟨⟨c, report⟩, shared, holds⟩ := (Option.any_eq_true ..).1 checked
  obtain ⟨ran, ran', ran'', references, names⟩ := of_decide_eq_true holds
  exact ⟨c, report, _, _, _, _, ok_of_toOption shared, rfl, .of_toOption ran, .of_toOption ran', .of_toOption ran'',
    references, names⟩

theorem numberedParts_references : ∃ (c : Context) (x y z : PlacedSymbol), PlacedFor numberedParts c (gateOf "1") x ∧
    PlacedFor numberedParts c (gateOf "UNK1") y ∧ PlacedFor numberedParts c (gateOf "unk1") z ∧
    x.fieldValue "Reference" = "UNK1" ∧ y.fieldValue "Reference" = "UNK1" ∧ z.fieldValue "Reference" = "unk1" ∧
    c.document.part? "1" ≠ c.document.part? "UNK1" := by
  obtain ⟨c, report, d, first, second, third, shared, empty, ran, ran', ran'', references, one, unk⟩ :=
    numberedParts_placed
  obtain ⟨_, x, _, placed, _⟩ := ends_placeInstance_reference shared ran
  obtain ⟨_, y, _, placed', _⟩ := ends_placeInstance_reference shared ran'
  obtain ⟨_, z, _, placed'', _⟩ := ends_placeInstance_reference shared ran''
  have written : [x.fieldValue "Reference", y.fieldValue "Reference", z.fieldValue "Reference"] =
      ["UNK1", "UNK1", "unk1"] := by
    rw [← references, placed'', placed', placed, empty]
    rfl
  simp only [List.cons.injEq, and_true] at written
  obtain ⟨ofFirst, ofSecond, ofThird⟩ := written
  refine ⟨c, x, y, z, ⟨_, _, _, d, first, shared, .head _, ran, placed⟩,
    ⟨_, _, _, first, second, shared, .tail _ (.head _), ran', placed'⟩,
    ⟨_, _, _, second, third, shared, .tail _ (.tail _ (.head _)), ran'', placed''⟩, ofFirst, ofSecond, ofThird, ?_⟩
  intro same
  have names := congrArg (Option.map (·.name)) same
  rw [one, unk] at names
  exact absurd names (by decide)

/-- Different parts may have one reference. -/
theorem not_all_references_identify :
    ¬ ∀ (document : Eagle.Schematic) (c : Context) (i j : Eagle.Instance) (x y : PlacedSymbol),
      PlacedFor document c i x → PlacedFor document c j y →
      x.fieldValue "Reference" = y.fieldValue "Reference" → c.document.part? i.part = c.document.part? j.part := by
  intro apart
  obtain ⟨c, x, y, _, isFirst, isSecond, _, ofFirst, ofSecond, _, differ⟩ := numberedParts_references
  exact differ (apart _ _ _ _ _ _ isFirst isSecond (ofFirst.trans ofSecond.symm))

/-- A part whose name its instances spell in two ways may have two references. -/
theorem not_all_parts_once :
    ¬ ∀ (document : Eagle.Schematic) (c : Context) (i j : Eagle.Instance) (x y : PlacedSymbol),
      PlacedFor document c i x → PlacedFor document c j y →
      c.document.part? i.part = c.document.part? j.part → x.fieldValue "Reference" = y.fieldValue "Reference" := by
  intro alike
  obtain ⟨c, _, y, z, _, isSecond, isThird, _, ofSecond, ofThird, _⟩ := numberedParts_references
  have respelled : c.document.part? "unk1" = c.document.part? "UNK1" := by
    have upper : Text.upper "unk1" = Text.upper "UNK1" := by decide +kernel
    exact congrArg c.document.parts.get? upper
  have same := alike _ _ _ _ _ _ isThird isSecond respelled
  rw [ofThird, ofSecond] at same
  exact absurd same (by decide)

open Drafting in
/-- The two parts have one reference as the prefix of one makes its name that of the other. -/
theorem numberedParts_references_iff : ∃ c report, ∃ d first second : Desk,
    Context.ofDocument numberedParts "demo" "demo" = .ok (c, report) ∧
    Ends (placeInstance c (gateOf "1")) d true first ∧ Ends (placeInstance c (gateOf "UNK1")) first true second ∧
    ∃ r q x y, c.resolve (gateOf "1") = .ok r ∧ c.resolve (gateOf "UNK1") = .ok q ∧
      first.sheet.symbols = d.sheet.symbols ++ [x] ∧ second.sheet.symbols = first.sheet.symbols ++ [y] ∧
      (x.fieldValue "Reference" = y.fieldValue "Reference" ↔ r.part = q.part ∨ r.Meets q ∨ q.Meets r) := by
  obtain ⟨c, report, d, first, second, _, shared, _, ran, ran', _, _, one, unk⟩ := numberedParts_placed
  obtain ⟨r, q, x, y, resolved, resolved', placed, placed', onePart⟩ := references_eq_iff shared ran ran'
  have spelled : "1" = r.part.name := by
    rw [show c.document.part? "1" = some r.part from (resolve_ok resolved).1] at one
    exact (Option.some.inj one).symm
  have spelled' : "UNK1" = q.part.name := by
    rw [show c.document.part? "UNK1" = some q.part from (resolve_ok resolved').1] at unk
    exact (Option.some.inj unk).symm
  exact ⟨c, report, d, first, second, shared, ran, ran', r, q, x, y, resolved, resolved', placed, placed',
    onePart spelled spelled'⟩

end Redraft
