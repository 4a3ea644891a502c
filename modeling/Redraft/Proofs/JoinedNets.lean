import Redraft.Proofs.DrawnPieces
import Redraft.Proofs.Setbacks

/-!
# Nets joined by name

A net drawn in several pieces, on one sheet or on several, gets a label on each
piece that has a wire; all its labels bear one name and reach equally far. Each
label is drawn on its piece, and followed from there to the finished sheet: it
is corrected with the wires of its piece, goes with the wires that are drawn
back, and moves with the sheet.
-/

namespace Redraft
open Drafting

/-! ## Sheets -/

/-- Draws the instances, buses and nets of a sheet. -/
def drawNets (c : Context) (e : Eagle.Sheet) : Drafting Unit := do
  e.instances.forM fun i => discard (placeInstance c i)
  e.buses.forM (drawBus c)
  e.nets.forM fun n => drawNet c n.name false n

/-- A sheet drawn from an EAGLE sheet: blank, with its buses and nets drawn, with their labels
    corrected, and finished; and the pieces of its buses and nets. -/
structure NamedSheet where
  source : Eagle.Sheet
  blank : Desk
  drawn : Desk
  corrected : Desk
  sheet : Sheet
  buses : List NetPiece
  pieces : List NetPiece

namespace NamedSheet

/-- The pieces in the order in which they are drawn. -/
def all (x : NamedSheet) : List NetPiece := x.buses ++ x.pieces

/-- The labels of the finished sheet are those of the pieces, gone with the wires that were drawn back from buses and
    moved as far as all lines, and behind them those that supply pins imply. -/
def Finished (x : NamedSheet) : Prop :=
  ∃ shift implied others,
    x.sheet.labels = (x.corrected.sheet.labels.map (·.carried (x.corrected.sheet.setbacks.map (·.2)))).map
      (fun l => { l with position := l.position + shift }) ++ implied ∧
    x.sheet.lines = (x.corrected.sheet.joinBuses.sheet.lines ++ others).map (Line.move shift) ∧
    ∀ l ∈ implied, ∃ pin p, l = impliedLabel pin p

/-- The pieces are the segments of the sheet's buses and nets. With the buses and nets drawn, the lines, groups and
    labels of the sheet are those of the pieces, each label where its piece has it, and from there each settles with
    the wires of its piece. -/
structure Holds (c : Context) (x : NamedSheet) : Prop where
  draws : Ends (drawNets c x.source) x.blank () x.drawn
  corrects : Ends (discard adjustLabels) x.drawn () x.corrected
  busSegments : x.buses.map (fun piece => (piece.net, piece.segment)) = netSegments x.source.buses
  segments : x.pieces.map (fun piece => (piece.net, piece.segment)) = netSegments x.source.nets
  own : ∀ piece ∈ x.all, piece.Own
  busNames : ∀ piece ∈ x.buses, ∀ l ∈ piece.labels, l.text = Name.label (Name.bus piece.net.name)
  wires : x.drawn.sheet.lines.map Line.segment = x.all.flatMap NetPiece.wires
  groups : x.drawn.sheet.tracker.tracked.map (·.wires) = x.all.map NetPiece.wires
  labels : x.drawn.sheet.labels = x.all.flatMap (·.labels)
  settled : ∃ settled, x.corrected.sheet.labels = settled.flatten ∧
    List.Forall₂ (fun piece labels => List.Forall₂ (piece.Settles x.drawn.sheet.tracker) piece.labels labels)
      x.all settled
  kept : x.corrected.sheet.lines = x.drawn.sheet.lines
  finished : x.Finished

variable {c : Context} {e : Eagle.Sheet} {d done : Desk}

/-- Buses and nets drawn on a sheet without groups are pieces with the labels of a segment. -/
theorem ends_drawNets_pieces (ran : Ends (drawNets c e) d () done) (blank : d.sheet.tracker = {}) :
    ∃ placed buses pieces, placed.tracker = {} ∧ placed.lines = d.sheet.lines ∧ placed.labels = d.sheet.labels ∧
      PiecesDrawn placed (buses ++ pieces) done.sheet ∧
      buses.map (fun x : NetPiece => (x.net, x.segment)) = netSegments e.buses ∧
      (∀ x ∈ buses, c.SegmentLabels (Name.bus x.net.name) x.net.segments.length x.segment x.labels) ∧
      pieces.map (fun x : NetPiece => (x.net, x.segment)) = netSegments e.nets ∧
      ∀ x ∈ pieces, c.SegmentLabels x.net.name x.net.segments.length x.segment x.labels := by
  obtain ⟨_, placed, isPlaced, ran⟩ := ends_bind.1 ran
  obtain ⟨_, bused, hasBuses, hasNets⟩ := ends_bind.1 ran
  obtain ⟨_, _, _, place, _⟩ := ends_instances isPlaced
  obtain ⟨buses, busSegments, busMade, busDrawn⟩ := drawnAs_nets (fun n => Name.bus n.name) hasBuses
  obtain ⟨pieces, segments, made, drawn⟩ := drawnAs_nets (·.name) hasNets
  refine ⟨placed.sheet, buses, pieces, ?_, ?_, ?_, busDrawn.append drawn, busSegments, busMade, segments, made⟩
  · rw [place.rest, blank]
  · rw [place.rest]
  · rw [place.rest]

/-- A drawn sheet is finished from its corrected labels. -/
theorem finished_of_drawContent {corrected content : Desk} {buses pieces : List NetPiece} {symbols : List PlacedSymbol}
    (plain : Ends (e.plain.forM (drawPlain c)) { corrected with sheet := corrected.sheet.joinBuses.sheet } () content) :
    Finished ⟨e, d, done, corrected, content.sheet.finish symbols, buses, pieces⟩ := by
  obtain ⟨ofPlain, noLabels, grown⟩ := plain.forM_grown fun n d d' => grown_drawPlain
  have none : ofPlain.flatten = [] := by
    rw [List.flatten_eq_nil_iff]
    intro labels member
    obtain ⟨i, found⟩ := List.mem_iff_getElem?.1 member
    exact (forall₂_getElem? noLabels found).choose_spec.2
  refine ⟨content.sheet.shift, (symbols.flatMap content.sheet.implied).map
    (fun l => { l with position := l.position + content.sheet.shift }), e.plain.flatMap c.itemLines, ?_, ?_, ?_⟩
  · have labels : content.sheet.labels = corrected.sheet.joinBuses.sheet.labels := by
      rw [grown.labels, none, List.append_nil]
    rw [← Sheet.joinBuses_labels, ← labels, ← List.map_append]
    rfl
  · rw [← grown.lines]
    rfl
  · intro l member
    obtain ⟨_, isImplied, rfl⟩ := List.mem_map.1 member
    obtain ⟨symbol, _, isImplied⟩ := List.mem_flatMap.1 isImplied
    obtain ⟨_, _, labelled⟩ := Sheet.mem_implied.1 isImplied
    obtain ⟨_, pin, p, _, _, _, rfl⟩ := Sheet.mem_impliedLabels.1 labelled
    exact ⟨pin, p + content.sheet.shift, rfl⟩

/-- Drawing a blank sheet gives each piece of its nets the labels of a segment. -/
theorem of_drawSheet (ran : Ends (drawSheet c e) d () done) (noLines : d.sheet.lines = [])
    (noLabels : d.sheet.labels = []) (noGroups : d.sheet.tracker = {}) :
    ∃ x : NamedSheet, x.source = e ∧ x.sheet = done.sheet ∧ x.Holds c ∧
      ∀ piece ∈ x.pieces, c.SegmentLabels piece.net.name piece.net.segments.length piece.segment piece.labels := by
  obtain ⟨content, isContent, finished, _⟩ := ends_drawSheet ran
  obtain ⟨corrected, connects, plain⟩ := ends_drawContent_connections isContent
  obtain ⟨_, placed, isPlaced, connects⟩ := ends_bind.1 connects
  obtain ⟨_, bused, hasBuses, connects⟩ := ends_bind.1 connects
  obtain ⟨_, drawn, hasNets, corrects⟩ := ends_bind.1 connects
  have draws : Ends (drawNets c e) d () drawn := ends_bind.2 ⟨_, _, isPlaced, ends_bind.2 ⟨_, _, hasBuses, hasNets⟩⟩
  obtain ⟨s, buses, pieces, blank, lines, labels, run, busSegments, busMade, segments, made⟩ :=
    ends_drawNets_pieces draws noGroups
  obtain ⟨tracks, groups⟩ := run.tracksOnce blank
  obtain ⟨moved, adjusts⟩ := ends_discard.1 corrects
  obtain ⟨settled, flat, each⟩ := pieces_settle tracks adjusts run (by rw [blank]) (by simp [blank])
  refine ⟨⟨e, d, drawn, corrected, done.sheet, buses, pieces⟩, rfl, rfl, ?_, made⟩
  refine ⟨draws, corrects, busSegments, segments, ?_, ?_, ?_, groups, ?_, ⟨settled, ?_, each⟩, ?_, ?_⟩
  · exact List.forall_mem_append.2 ⟨fun x member => (busMade x member).own, fun x member => (made x member).own⟩
  · exact fun x member l here => ((busMade x member).named here).1
  · rw [run.lines, lines, noLines]
    rfl
  · rw [run.labels, labels, noLabels]
    rfl
  · simpa [labels, noLabels] using flat
  · rw [(ends_adjustLabels_corrected tracks adjusts).rest]
  · rw [finished]
    exact finished_of_drawContent plain

/-- Missing units add implied labels and nothing else to the labels and lines. -/
theorem Holds.tile {x : NamedSheet} (holds : x.Holds c) (units : UnitRecord) :
    Holds c { x with sheet := x.sheet.tile units } := by
  have finished : Finished { x with sheet := x.sheet.tile units } := by
    refine Sheet.tile_keeps (fun s => Finished { x with sheet := s }) ?_ holds.finished
    rintro s part unit position _ ⟨shift, implied, others, labels, lines, impliedBy⟩
    obtain ⟨more, added, moreImplied⟩ : ∃ more, (s.addMissing part unit position).labels = s.labels ++ more ∧
        ∀ l ∈ more, ∃ pin p, l = impliedLabel pin p := by
      refine ⟨_, congrArg (· ++ _) (s.embed_labels part.source), fun l member => ?_⟩
      obtain ⟨_, pin, p, _, _, _, same⟩ := Sheet.mem_impliedLabels.1 member
      exact ⟨pin, p, same⟩
    have unlined : (s.addMissing part unit position).lines = s.lines := by
      rw [Sheet.addMissing, Sheet.embed_rest]
      rfl
    refine ⟨shift, implied ++ more, others, ?_, unlined.trans lines, List.forall_mem_append.2 ⟨impliedBy, moreImplied⟩⟩
    rw [added, labels, List.append_assoc]
  exact { holds with finished }

end NamedSheet

/-! ## Documents -/

private theorem filter_netSegments_nil {nets : List Eagle.Net} {net : String}
    (none : nets.countP (·.name == net) = 0) : (netSegments nets).filter (·.1.name == net) = [] := by
  rw [List.filter_eq_nil_iff]
  intro entry member
  obtain ⟨n, isNet, isSegment⟩ := List.mem_flatMap.1 member
  obtain ⟨_, _, rfl⟩ := List.mem_map.1 isSegment
  exact List.countP_eq_zero.1 none n isNet

/-- A net that no other shares its name with has all segments of that name. -/
theorem filter_netSegments {nets : List Eagle.Net} {n : Eagle.Net} (once : nets.countP (·.name == n.name) ≤ 1)
    (member : n ∈ nets) : (netSegments nets).filter (·.1.name == n.name) = n.segments.map fun s => (n, s) := by
  induction nets with
  | nil => cases member
  | cons first nets ih =>
    rw [List.countP_cons] at once
    rw [netSegments, List.flatMap_cons, List.filter_append]
    rcases List.mem_cons.1 member with rfl | later
    · have none : nets.countP (·.name == n.name) = 0 := by
        simp only [beq_self_eq_true, if_true] at once
        omega
      have rest := filter_netSegments_nil none
      rw [netSegments] at rest
      rw [rest, List.append_nil, List.filter_eq_self]
      intro entry isSegment
      obtain ⟨_, _, rfl⟩ := List.mem_map.1 isSegment
      simp
    · have other : ¬ (first.name == n.name) := by
        intro same
        have positive : 0 < nets.countP (·.name == n.name) := List.countP_pos_iff.2 ⟨n, later, by simp⟩
        rw [if_pos same] at once
        omega
      rw [if_neg other, Nat.add_zero] at once
      have rest := ih once later
      rw [netSegments] at rest
      rw [rest, List.filter_eq_nil_iff.2, List.nil_append]
      intro entry isSegment
      obtain ⟨_, _, rfl⟩ := List.mem_map.1 isSegment
      exact other

/-- Pieces of nets of one name are joined by it: if two of them have wires, each that has one gets
    a label, and all labels bear the name and reach as far as it occurs. -/
structure JoinedByName (document : Eagle.Schematic) (net : String) (pieces : List NetPiece) : Prop where
  labelled : 2 ≤ pieces.countP NetPiece.wired → ∀ x ∈ pieces, x.wired → x.labels ≠ []
  named : ∀ x ∈ pieces, ∀ l ∈ x.labels, l.text = Name.label net ∧
    l.scope = if 2 ≤ document.occurrences net then .document else .sheet

/-- The pieces of all nets of a document, each with the labels of a segment, are joined by name. -/
theorem joinedByName {c : Context} {document : Eagle.Schematic} (counts : c.netCounts = document.netCounts)
    {pieces : List NetPiece}
    (segments : pieces.map (fun x => (x.net, x.segment)) = netSegments (document.sheets.flatMap (·.nets)))
    (made : ∀ x ∈ pieces, c.SegmentLabels x.net.name x.net.segments.length x.segment x.labels) (net : String) :
    JoinedByName document net (pieces.filter (·.net.name == net)) := by
  refine ⟨fun several x member wired => ?_, fun x member l here => ?_⟩
  · obtain ⟨isPiece, same⟩ := List.mem_filter.1 member
    have name : x.net.name = net := by simpa using same
    subst name
    apply (made x isPiece).ne_nil (by simpa [NetPiece.wired] using wired)
    by_cases spans : 2 ≤ document.occurrences x.net.name
    · exact .inl ((Context.spansSheets_iff counts _).2 spans)
    · right
      have isNet : x.net ∈ document.sheets.flatMap (·.nets) := by
        have entry : (x.net, x.segment) ∈ netSegments (document.sheets.flatMap (·.nets)) :=
          segments ▸ List.mem_map.2 ⟨x, isPiece, rfl⟩
        obtain ⟨n, isNet, isSegment⟩ := List.mem_flatMap.1 entry
        obtain ⟨_, _, same⟩ := List.mem_map.1 isSegment
        rw [← (Prod.mk.inj same).1]
        exact isNet
      have all := filter_netSegments (Nat.le_of_lt_succ (Nat.lt_of_not_le spans)) isNet
      rw [← segments, List.filter_map] at all
      have count := congrArg List.length all
      simp only [List.length_map] at count
      rw [← count]
      exact Nat.le_trans several List.countP_le_length
  · obtain ⟨isPiece, same⟩ := List.mem_filter.1 member
    have name : x.net.name = net := by simpa using same
    subst name
    obtain ⟨text, scope⟩ := (made x isPiece).named here
    refine ⟨text, ?_⟩
    rw [scope, Context.netScope]
    simp only [Context.spansSheets_iff counts]

/-- The sheets that the EAGLE sheets of a document are drawn on. -/
def Project.drawnSheets (p : Project) (document : Eagle.Schematic) : List Sheet :=
  if document.sheets.length = 1 then [p.root] else p.sheets

private theorem namedSheets {c : Context} {runs : List SheetRun}
    (each : ∀ run ∈ runs, ∃ x : NamedSheet, x.source = run.source ∧ x.sheet = run.done ∧ x.Holds c ∧
      ∀ piece ∈ x.pieces, c.SegmentLabels piece.net.name piece.net.segments.length piece.segment piece.labels) :
    ∃ sheets : List NamedSheet, sheets.map (·.source) = runs.map (·.source) ∧
      sheets.map (·.sheet) = runs.map (·.done) ∧ ∀ x ∈ sheets, x.Holds c ∧
        ∀ piece ∈ x.pieces, c.SegmentLabels piece.net.name piece.net.segments.length piece.segment piece.labels := by
  induction runs with
  | nil => exact ⟨[], rfl, rfl, by simp⟩
  | cons run runs ih =>
    obtain ⟨sheets, sources, drawn, hold⟩ := ih fun run member => each run (.tail _ member)
    obtain ⟨x, source, done, holds⟩ := each run (.head _)
    refine ⟨x :: sheets, ?_, ?_, List.forall_mem_cons.2 ⟨holds, hold⟩⟩
    · rw [List.map_cons, List.map_cons, sources, source]
    · rw [List.map_cons, List.map_cons, drawn, done]

/-- The labels of a converted document join all pieces of each net by its name, each piece with labels of its own. -/
theorem convert_joins_nets {document : Eagle.Schematic} {project : Option String} {stem : String} {page : Page}
    {p : Project} (ran : convert document project stem page = .ok p) :
    ∃ (c : Context) (shared : Report) (sheets : List NamedSheet),
      Context.ofDocument document (Name.libraryName project stem) (Name.projectName project stem) = .ok (c, shared) ∧
      sheets.map (·.source) = document.sheets ∧ sheets.map (·.sheet) = p.drawnSheets document ∧
      (∀ x ∈ sheets, x.Holds c) ∧
      ∀ net, JoinedByName document net ((sheets.flatMap (·.pieces)).filter (·.net.name == net)) := by
  obtain ⟨c, shared, runs, units, isShared, converted⟩ := convert_ok ran
  obtain ⟨_, counts, _⟩ := ofDocument_ok isShared
  obtain ⟨_, drawn⟩ := converted.drawn
  have each : ∀ run ∈ runs, ∃ x : NamedSheet, x.source = run.source ∧ x.sheet = run.done ∧ x.Holds c ∧
      ∀ piece ∈ x.pieces, c.SegmentLabels piece.net.name piece.net.segments.length piece.segment piece.labels := by
    intro run member
    obtain ⟨report, units, desk, ran, same⟩ := drawn.each member
    obtain ⟨n, found⟩ := List.mem_iff_getElem?.1 member
    obtain ⟨name, file, fresh⟩ := converted.fresh n run found
    rw [← same]
    exact NamedSheet.of_drawSheet ran (by rw [fresh]; rfl) (by rw [fresh]; rfl) (by rw [fresh]; rfl)
  obtain ⟨sheets, sources, done, hold⟩ := namedSheets each
  have documentSources : sheets.map (·.source) = document.sheets := sources.trans converted.sources
  have joined : ∀ net, JoinedByName document net ((sheets.flatMap (·.pieces)).filter (·.net.name == net)) := by
    apply joinedByName counts
    · rw [← documentSources, List.flatMap_map, netSegments, List.flatMap_assoc, List.map_flatMap]
      exact List.flatMap_congr fun x member => (hold x member).1.segments
    · intro x member
      obtain ⟨sheet, isSheet, here⟩ := List.mem_flatMap.1 member
      exact (hold sheet isSheet).2 x here
  have length : document.sheets.length = runs.length := by rw [← converted.sources, List.length_map]
  unfold Project.drawnSheets
  rcases converted.sheets with ⟨run, rfl, root, _⟩ | ⟨several, same, _⟩
  · -- a single sheet is the root, which gets the missing units after it is drawn
    obtain ⟨x, rfl⟩ := List.length_eq_one_iff.1 (by simpa using congrArg List.length done)
    have here : x.sheet = run.done := by simpa using done
    refine ⟨c, shared, [{ x with sheet := p.root }], isShared, documentSources,
      by rw [if_pos (show _ = 1 from length)]; rfl, ?_, by simpa using joined⟩
    rw [root, ← here]
    simpa using (hold x (.head _)).1.tile units
  · exact ⟨c, shared, sheets, isShared, documentSources, by rw [if_neg (length ▸ several), done, same],
      fun x member => (hold x member).1, joined⟩

/-- A document with a net in two segments without labels on one sheet, of which one ends on a bus, and
    once more on another with a label beside its wire. -/
def threePieces : Eagle.Schematic where
  layers := [(91, "Nets"), (92, "Busses")]
  sheets := [
    ⟨none, [], [], [⟨"B", [⟨[⟨⟨0, mils 500⟩, ⟨mils 500, mils 500⟩, 0, 92, none⟩], [], []⟩]⟩],
      [⟨"N", [⟨[netWire ⟨mils 200, mils 500⟩ ⟨mils 200, 0⟩], [], []⟩,
        ⟨[netWire ⟨mils 1000, 0⟩ ⟨mils 1000, mils 300⟩], [], []⟩]⟩]⟩,
    ⟨none, [], [], [], [⟨"N", [⟨[netWire ⟨0, 0⟩ ⟨0, mils 500⟩], [],
      [⟨⟨mils 50, mils 100⟩, mils 70, 95, none, false⟩]⟩]⟩]⟩]

theorem threePieces_joined : ∃ p, convert threePieces none "demo" ⟨some "A4", ⟨2970000, 2100000⟩⟩ = .ok p ∧
    ∃ (c : Context) (shared : Report) (sheets : List NamedSheet),
      Context.ofDocument threePieces (Name.libraryName none "demo") (Name.projectName none "demo") = .ok (c, shared) ∧
      sheets.map (·.source) = threePieces.sheets ∧ sheets.map (·.sheet) = p.sheets ∧ (∀ x ∈ sheets, x.Holds c) ∧
      JoinedByName threePieces "N" ((sheets.flatMap (·.pieces)).filter (·.net.name == "N")) := by
  have ends : (convert threePieces none "demo" ⟨some "A4", ⟨2970000, 2100000⟩⟩).toBool = true := by decide +kernel
  cases ran : convert threePieces none "demo" ⟨some "A4", ⟨2970000, 2100000⟩⟩ with
  | error failure =>
    rw [ran] at ends
    cases ends
  | ok p =>
    obtain ⟨c, shared, sheets, isShared, sources, drawn, hold, joined⟩ := convert_joins_nets ran
    exact ⟨p, rfl, c, shared, sheets, isShared, sources, drawn, hold, joined "N"⟩

end Redraft
