import Redraft.Proofs.Conversion
import Redraft.Proofs.Translations

/-!
# The independence of sheets

The sheets of a document are drawn one after the other, and reports and the
record of units pass from each to the next. No step of drawing reads either of
them, so a sheet comes out as if it were the only one. Two runs of the drawing
are compared step by step.
-/

namespace Redraft

namespace Drafting
variable {α β : Type}

/-- From one sheet, both steps come to one value and leave one sheet behind,
    whatever has been reported and recorded. -/
def DrawAlike (x y : Drafting α) : Prop :=
  ∀ d e a d', d.sheet = e.sheet → Ends x d a d' → ∃ e', Ends y e a e' ∧ d'.sheet = e'.sheet

namespace DrawAlike

theorem pure (a : α) : DrawAlike (pure a) (pure a) := by
  intro d e b d' same ran
  obtain ⟨rfl, rfl⟩ := ends_pure.1 ran
  exact ⟨e, ends_pure.2 ⟨rfl, rfl⟩, same⟩

theorem bind {x y : Drafting α} {f g : α → Drafting β} (first : DrawAlike x y) (rest : ∀ a, DrawAlike (f a) (g a)) :
    DrawAlike (x >>= f) (y >>= g) := by
  intro d e b d'' same ran
  obtain ⟨a, d', ran, ran'⟩ := ends_bind.1 ran
  obtain ⟨e', alike, same'⟩ := first d e a d' same ran
  obtain ⟨e'', alike', same''⟩ := rest a d' e' b d'' same' ran'
  exact ⟨e'', ends_bind.2 ⟨a, e', alike, alike'⟩, same''⟩

theorem lift (x : Except Failure α) : DrawAlike (lift x) (lift x) := by
  intro d e a d' same ran
  obtain ⟨ok, rfl⟩ := ends_lift.1 ran
  exact ⟨e, ends_lift.2 ⟨ok, rfl⟩, same⟩

theorem sheet : DrawAlike sheet sheet := by
  intro d e s d' same ran
  obtain ⟨rfl, rfl⟩ := ends_sheet.1 ran
  exact ⟨e, ends_sheet.2 ⟨same.symm, rfl⟩, same⟩

theorem modify {f : Desk → Desk} (alike : ∀ d e, d.sheet = e.sheet → (f d).sheet = (f e).sheet) :
    DrawAlike (modify f) (modify f) := by
  intro d e _ d' same ran
  obtain rfl := ends_modify.1 ran
  exact ⟨f e, ends_modify.2 rfl, alike d e same⟩

theorem changeSheet (f : Sheet → Sheet) : DrawAlike (changeSheet f) (changeSheet f) :=
  modify fun _ _ same => congrArg f same

theorem report (messages : Report) : DrawAlike (report messages) (report messages) := modify fun _ _ same => same

theorem discard {x y : Drafting α} (alike : DrawAlike x y) : DrawAlike (discard x) (discard y) := by
  intro d e _ d' same ran
  obtain ⟨a, ran⟩ := ends_discard.1 ran
  obtain ⟨e', alike, same'⟩ := alike d e a d' same ran
  exact ⟨e', ends_discard.2 ⟨a, alike⟩, same'⟩

theorem forM {f g : α → Drafting Unit} (alike : ∀ a, DrawAlike (f a) (g a)) (l : List α) :
    DrawAlike (l.forM f) (l.forM g) := by
  induction l with
  | nil => exact pure ()
  | cons a l ih => exact bind (alike a) fun _ => ih

end DrawAlike

end Drafting

/-! ## Contexts -/

/-- Two contexts in which sheets find the same things. -/
structure Context.Alike (c c' : Context) : Prop where
  library : c.library = c'.library
  project : c.project = c'.project
  lineKind : ∀ layer, c.document.lineKind layer = c'.document.lineKind layer
  resolve : ∀ i, c.resolve i = c'.resolve i
  spansSheets : ∀ net, c.spansSheets net = c'.spansSheets net

section Drawing
open Drafting
variable {c c' : Context}

theorem Context.Alike.placeInstance (alike : c.Alike c') (i : Eagle.Instance) :
    DrawAlike (placeInstance c i) (placeInstance c' i) := by
  unfold Redraft.placeInstance
  rw [alike.resolve]
  cases c'.resolve i with
  | error cause => exact .bind (.report _) fun _ => .pure _
  | ok resolved =>
    refine .bind (.lift _) fun (warnings, placement) => ?_
    refine .bind (.report _) fun _ => ?_
    refine .bind (.changeSheet _) fun _ => ?_
    refine .bind .sheet fun s => ?_
    refine .bind (.lift _) fun symbol => ?_
    exact .bind (.changeSheet _) fun _ => .pure _

theorem Context.Alike.addWire (alike : c.Alike c') : Sheet.addWire c = Sheet.addWire c' := by
  funext group s w
  unfold Sheet.addWire
  rw [alike.lineKind]

theorem Context.Alike.drawSegment (alike : c.Alike c') (net : String) (isBus : Bool) (groups : Nat)
    (segment : Eagle.Segment) :
    DrawAlike (drawSegment c net isBus groups segment) (drawSegment c' net isBus groups segment) := by
  unfold Redraft.drawSegment
  rw [alike.spansSheets, alike.addWire]
  refine .bind .sheet fun s => ?_
  refine .bind (.changeSheet _) fun _ => ?_
  refine .bind (.changeSheet _) fun _ => ?_
  refine .bind (.changeSheet _) fun _ => ?_
  refine .bind (.forM (fun l => ?_) _) fun _ => .changeSheet _
  exact .bind (.lift _) fun spin => .changeSheet _

theorem Context.Alike.drawNet (alike : c.Alike c') (net : String) (isBus : Bool) (n : Eagle.Net) :
    DrawAlike (drawNet c net isBus n) (drawNet c' net isBus n) :=
  .forM (alike.drawSegment net isBus n.segments.length) n.segments

theorem drawAlike_adjustLabels : DrawAlike adjustLabels adjustLabels := by
  refine .bind .sheet fun s => ?_
  refine .bind (.lift _) fun (positions, moved) => ?_
  exact .bind (.changeSheet _) fun _ => .pure _

theorem drawAlike_joinBuses : DrawAlike joinBuses joinBuses :=
  .bind .sheet fun _ => .bind (.changeSheet _) fun _ => .pure _

theorem Context.Alike.drawPlain (alike : c.Alike c') (item : Eagle.Item) :
    DrawAlike (drawPlain c item) (drawPlain c' item) := by
  cases item with
  | text t => exact .bind (.lift _) fun note => .changeSheet _
  | wire w =>
    simp only [Redraft.drawPlain, alike.lineKind]
    exact .changeSheet _
  | frame f =>
    simp only [Redraft.drawPlain]
    exact .changeSheet _
  | _ => exact .pure ()

theorem drawAlike_drawAllImplied (symbols : List PlacedSymbol) :
    DrawAlike (drawAllImplied symbols) (drawAllImplied symbols) := by
  refine .forM (fun symbol => .bind .sheet fun s => ?_) symbols
  cases s.symbol? symbol.name with
  | none => exact .pure ()
  | some source =>
    refine .discard (.bind .sheet fun t => .bind (.changeSheet _) fun _ => ?_)
    -- the unit is recorded, which leaves the sheet as it is
    exact .bind (.modify fun _ _ same => same) fun _ => .pure _

/-- A sheet comes out the same whatever was reported and recorded before, and in all contexts in which it
    finds the same things. -/
theorem Context.Alike.drawSheet (alike : c.Alike c') (e : Eagle.Sheet) :
    DrawAlike (drawSheet c e) (drawSheet c' e) := by
  unfold Redraft.drawSheet
  refine .bind .sheet fun before => ?_
  refine .bind (.forM (fun i => .discard (alike.placeInstance i)) _) fun _ => ?_
  refine .bind (.forM (fun n => alike.drawNet _ _ n) _) fun _ => ?_
  refine .bind (.forM (fun n => alike.drawNet _ _ n) _) fun _ => ?_
  refine .bind (.discard drawAlike_adjustLabels) fun _ => ?_
  refine .bind (.discard drawAlike_joinBuses) fun _ => ?_
  refine .bind (.forM (fun item => alike.drawPlain item) _) fun _ => ?_
  refine .bind .sheet fun content => ?_
  refine .bind (.changeSheet _) fun _ => ?_
  refine .bind .sheet fun fitted => ?_
  refine .bind (drawAlike_drawAllImplied _) fun _ => ?_
  refine .bind (.changeSheet _) fun _ => ?_
  exact .bind .sheet fun s => .report _

end Drawing

/-! ## Documents -/

/-- Two documents that share all that is not on their sheets, and count nets alike. -/
structure Eagle.Schematic.Alike (s t : Eagle.Schematic) : Prop where
  layers : ∀ number, s.layers.get? number = t.layers.get? number
  libraries : ∀ name, s.libraries.get? name = t.libraries.get? name
  parts : ∀ name, s.parts.get? name = t.parts.get? name
  netCounts : ∀ net, s.netCounts.get? net = t.netCounts.get? net

section Documents
open Drafting
variable {document other : Eagle.Schematic} {library project : String} {c c' : Context} {shared shared' : Report}

/-- What a library is converted to does not depend on the others. -/
theorem get?_libraries {sources : Entries String Eagle.Library} {libraries : Entries String SymbolLibrary}
    (converted : List.Forall₂ ConvertsTo sources libraries) (name : String) :
    libraries.get? name = (sources.get? name).bind fun l => (SymbolLibrary.convert l).toOption.map (·.1) := by
  induction converted with
  | nil => rfl
  | @cons entry entry' sources libraries first _ ih =>
    obtain ⟨key, source⟩ := entry
    obtain ⟨key', l⟩ := entry'
    obtain ⟨rfl, report, ran⟩ := first
    unfold Entries.get? at ih ⊢
    rw [List.lookup_cons, List.lookup_cons]
    by_cases same : name = key'
    · simp [same, ran, Except.toOption]
    · have apart : (name == key') = false := by simpa using same
      rw [apart]
      exact ih

theorem ofDocument_names (ran : Context.ofDocument document library project = .ok (c, shared)) :
    c.library = library ∧ c.project = project := by
  obtain ⟨_, _, same⟩ := bind_ok.1 ran
  cases same
  exact ⟨rfl, rfl⟩

/-- Documents that are alike make contexts that are. -/
theorem Eagle.Schematic.Alike.context (alike : document.Alike other)
    (ran : Context.ofDocument document library project = .ok (c, shared))
    (ran' : Context.ofDocument other library project = .ok (c', shared')) : c.Alike c' := by
  obtain ⟨isDocument, counts, converted⟩ := ofDocument_ok ran
  obtain ⟨isOther, counts', converted'⟩ := ofDocument_ok ran'
  obtain ⟨isLibrary, isProject⟩ := ofDocument_names ran
  obtain ⟨isLibrary', isProject'⟩ := ofDocument_names ran'
  have libraries (name : String) : c.libraries.get? name = c'.libraries.get? name := by
    rw [get?_libraries (convertLibraries_ok converted), get?_libraries (convertLibraries_ok converted'),
      alike.libraries]
  have part (name : String) : c.document.part? name = c'.document.part? name := by
    rw [isDocument, isOther, Eagle.Schematic.part?, Eagle.Schematic.part?, alike.parts]
  refine ⟨isLibrary.trans isLibrary'.symm, isProject.trans isProject'.symm, ?_, ?_, ?_⟩
  · intro layer
    rw [isDocument, isOther, Eagle.Schematic.lineKind, Eagle.Schematic.lineKind, alike.layers]
  · intro i
    simp only [Context.resolve, part, libraries]
  · intro net
    rw [Context.spansSheets, Context.spansSheets, counts, counts', alike.netCounts]

/-- A sheet of several is drawn on its own empty sheet. -/
theorem convert_sheet {project : Option String} {stem : String} {page : Page} {p : Project}
    (ran : convert document project stem page = .ok p) (several : 2 ≤ document.sheets.length) {i : Nat}
    {e : Eagle.Sheet} (isSheet : document.sheets[i]? = some e) : ∃ c shared report units done,
      Context.ofDocument document (Name.libraryName project stem) (Name.projectName project stem) = .ok (c, shared) ∧
      Ends (drawSheet c e) ⟨Conversion.freshSheet c stem page (e, i), report, units⟩ () done ∧
      p.sheets[i]? = some done.sheet := by
  obtain ⟨c, state, converted, rfl⟩ := convert_iff.1 ran
  obtain ⟨⟨_, shared⟩, isShared, rest⟩ := bind_ok.1 converted
  obtain ⟨_, added, same⟩ := bind_ok.1 rest
  cases same
  have sheets : c.document.sheets = document.sheets := by rw [(ofDocument_ok isShared).1]
  obtain ⟨none, _⟩ | ⟨source, _, one, _⟩ | ⟨_, folded⟩ := Conversion.addSheets_ok added
  · rw [← sheets, none] at several
    simp at several
  · rw [← sheets, one] at several
    simp at several
  · obtain ⟨runs, areRuns, done, _, fresh⟩ := Conversion.addSheet_fold folded
    have entry : c.document.sheets.zipIdx[i]? = some (e, i) := by
      rw [List.getElem?_zipIdx, sheets, isSheet]
      simp
    obtain ⟨run, isRun, source, isFresh⟩ := forall₂_getElem? fresh.flip entry
    obtain ⟨report, units, desk, drawn, isDone⟩ := areRuns.each (List.mem_of_getElem? isRun)
    rw [source, isFresh] at drawn
    refine ⟨c, shared, report, units, desk, isShared, drawn, ?_⟩
    rw [done, List.nil_append, List.getElem?_map, isRun, isDone]
    rfl

/-- Two documents that are alike, with one sheet at one place, are converted to one sheet there, whatever
    their other sheets are. -/
theorem convert_sheet_alike {project : Option String} {stem : String} {page : Page} {p q : Project}
    (alike : document.Alike other) (several : 2 ≤ document.sheets.length) (several' : 2 ≤ other.sheets.length)
    {i : Nat} {e : Eagle.Sheet} (isSheet : document.sheets[i]? = some e) (isSheet' : other.sheets[i]? = some e)
    (ran : convert document project stem page = .ok p) (ran' : convert other project stem page = .ok q) :
    ∃ s, p.sheets[i]? = some s ∧ q.sheets[i]? = some s := by
  obtain ⟨c, shared, report, units, done, isShared, drawn, found⟩ := convert_sheet ran several isSheet
  obtain ⟨c', shared', report', units', done', isShared', drawn', found'⟩ := convert_sheet ran' several' isSheet'
  have contexts := alike.context isShared isShared'
  have fresh : Conversion.freshSheet c stem page (e, i) = Conversion.freshSheet c' stem page (e, i) := by
    simp only [Conversion.freshSheet, Context.newSheet, contexts.library, contexts.project]
  obtain ⟨again, drawnAgain, same⟩ := contexts.drawSheet e _ ⟨_, report', units'⟩ () done fresh drawn
  obtain ⟨_, rfl⟩ := Prod.mk.inj (drawnAgain.symm.trans drawn')
  exact ⟨done.sheet, found, same ▸ found'⟩

end Documents

/-- A document of two sheets: the first one has a gate of a part and a wire of a net, the second one is given. -/
def besideSheet (second : Eagle.Sheet) : Eagle.Schematic where
  layers := [(91, "Nets")]
  libraries := [("a", {
    name := "a"
    symbols := [("S", ⟨"S", [.pin ⟨"P", ⟨0, 0⟩, none, none, none, none, none⟩]⟩)]
    deviceSets := [⟨"X", "U", [⟨"A", "S", ⟨0, 0⟩⟩, ⟨"B", "S", ⟨0, 0⟩⟩], [⟨"", some "P", []⟩]⟩] })]
  parts := [("U1", ⟨"U1", "a", "X", "", none, none, [], []⟩), ("U2", ⟨"U2", "a", "X", "", none, none, [], []⟩)]
  sheets := [
    { description := none, plain := [], instances := [⟨"U1", "A", ⟨0, 0⟩, false, none, [], []⟩], buses := []
      nets := [⟨"N", [⟨[⟨⟨0, 0⟩, ⟨254000, 0⟩, 1524, 91, none⟩], [], []⟩]⟩] },
    second]

/-- A sheet with units that the first sheet may miss, and a net of the first sheet. -/
def busySheet : Eagle.Sheet where
  description := some "B"
  plain := []
  instances := [⟨"U1", "B", ⟨0, 0⟩, false, none, [], []⟩, ⟨"U2", "B", ⟨508000, 0⟩, false, none, [], []⟩]
  buses := []
  nets := [⟨"N", [⟨[⟨⟨0, 0⟩, ⟨0, 254000⟩, 1524, 91, none⟩], [], []⟩]⟩]

/-- A sheet that counts for the nets of the first sheet, but has nothing on it. -/
def bareSheet : Eagle.Sheet := ⟨none, [], [], [], [⟨"N", []⟩]⟩

/-- The first sheet is the same beside a busy sheet and a bare one, which leave different units missing. -/
theorem besideSheet_alike : ∃ p q s,
    convert (besideSheet busySheet) none "demo" ⟨some "A4", ⟨2970000, 2100000⟩⟩ = .ok p ∧
    convert (besideSheet bareSheet) none "demo" ⟨some "A4", ⟨2970000, 2100000⟩⟩ = .ok q ∧
    p.root.symbols.map (·.reference) = ["U2"] ∧ q.root.symbols.map (·.reference) = ["U1"] ∧
    p.sheets[0]? = some s ∧ q.sheets[0]? = some s := by
  have checked : (convert (besideSheet busySheet) none "demo" ⟨some "A4", ⟨2970000, 2100000⟩⟩).toOption.any (fun p =>
      (convert (besideSheet bareSheet) none "demo" ⟨some "A4", ⟨2970000, 2100000⟩⟩).toOption.any fun q =>
        decide (p.root.symbols.map (·.reference) = ["U2"] ∧ q.root.symbols.map (·.reference) = ["U1"])) = true := by
    decide +kernel
  obtain ⟨p, ran, found⟩ := (Option.any_eq_true ..).1 checked
  obtain ⟨q, ran', holds⟩ := (Option.any_eq_true ..).1 found
  obtain ⟨missing, missing'⟩ := of_decide_eq_true holds
  have alike : (besideSheet busySheet).Alike (besideSheet bareSheet) :=
    ⟨fun _ => rfl, fun _ => rfl, fun _ => rfl, fun net => congrArg (Entries.get? · net) (by decide +kernel)⟩
  have several (second : Eagle.Sheet) : 2 ≤ (besideSheet second).sheets.length := Nat.le_refl 2
  obtain ⟨s, here, there⟩ := convert_sheet_alike alike (several busySheet) (several bareSheet) (i := 0) rfl rfl
    (ok_of_toOption ran) (ok_of_toOption ran')
  exact ⟨p, q, s, ok_of_toOption ran, ok_of_toOption ran', missing, missing', here, there⟩

end Redraft
