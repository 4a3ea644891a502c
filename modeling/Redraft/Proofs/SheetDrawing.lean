import Redraft.Proofs.BusJoining
import Redraft.Proofs.Growth
import Redraft.Proofs.Translations
import Redraft.Sheet.Draw

/-!
# The drawing of a sheet

A sheet is drawn in two parts. The first one places the instances and draws
buses, nets and plain items. The second one fits the page, labels the supply
pins that nothing is connected to, and moves everything.
-/

namespace Redraft

/-! ## Instances -/

/-- An instance placed on a sheet: the symbol it became, and what it stands for. -/
structure PlacedInstance where
  symbol : PlacedSymbol
  resolved : Resolved

/-- The symbol has its names from what it stands for, and an identity of its own. -/
structure PlacedInstance.At (x : PlacedInstance) (id : SymbolId) : Prop where
  name : x.symbol.name = x.resolved.symbol.name
  unit : x.symbol.unit = x.resolved.unit
  owner : x.symbol.pinOwner = id

/-- What the placed instances of a sheet stand for, in order; an instance without
    a part or symbol is not placed. -/
def Context.placed (c : Context) (instances : List Eagle.Instance) : List Resolved :=
  instances.filterMap fun i => (c.resolve i).toOption

/-- The joints at the pins of an instance. -/
def PlacedInstance.joints (x : PlacedInstance) : List Point := (x.symbol.pinPoints x.resolved.symbol).map (·.2)

/-- The sheet with a placed instance. -/
def Sheet.place (s : Sheet) (x : PlacedInstance) : Sheet :=
  (s.embed x.resolved.symbol).addSymbol x.symbol x.resolved.symbol

namespace Sheet

theorem embed_rest (s : Sheet) (symbol : Symbol) :
    s.embed symbol = { s with embedded := (s.embed symbol).embedded } := by
  unfold embed
  split <;> rfl

theorem embed_labels (s : Sheet) (symbol : Symbol) : (s.embed symbol).labels = s.labels := by
  rw [embed_rest]

theorem place_path (s : Sheet) (x : PlacedInstance) : (s.place x).path = s.path := by
  rw [place, embed_rest]
  rfl

theorem place_symbols (s : Sheet) (x : PlacedInstance) : (s.place x).symbols = s.symbols ++ [x.symbol] := by
  rw [place, embed_rest]
  rfl

theorem place_joints (s : Sheet) (x : PlacedInstance) : (s.place x).joints = s.joints ++ x.joints := by
  rw [place, embed_rest]
  rfl

theorem symbol?_embed (s : Sheet) (symbol : Symbol) (name : String) :
    (s.embed symbol).symbol? name = (s.symbol? name).or (firstNamed [symbol] name) := by
  unfold embed
  by_cases there : (s.symbol? symbol.name).isSome
  · rw [if_pos there]
    by_cases same : symbol.name = name
    · subst same
      obtain ⟨found, here⟩ := Option.isSome_iff_exists.1 there
      simp [here]
    · have other : (symbol.name == name) = false := by simpa using same
      simp [firstNamed, other]
  · rw [if_neg there]
    simp [symbol?, firstNamed, List.find?_append]

theorem symbol?_place (s : Sheet) (x : PlacedInstance) (name : String) :
    (s.place x).symbol? name = (s.symbol? name).or (firstNamed [x.resolved.symbol] name) :=
  symbol?_embed s x.resolved.symbol name

/-- What stands on a sheet after instances are placed: under each name the symbol
    that was there first is embedded. -/
structure Placed (before after : Sheet) (placed : List PlacedInstance) : Prop where
  rest : after = { before with
    embedded := after.embedded, symbols := after.symbols, joints := after.joints }
  symbols : after.symbols = before.symbols ++ placed.map (·.symbol)
  joints : after.joints = before.joints ++ placed.flatMap PlacedInstance.joints
  embedded : ∀ name, after.symbol? name =
    (before.symbol? name).or (firstNamed (placed.map (·.resolved.symbol)) name)

theorem Placed.refl (s : Sheet) : s.Placed s [] := ⟨rfl, by simp, by simp, by simp [firstNamed]⟩

theorem Placed.cons {s t : Sheet} {x : PlacedInstance} {placed : List PlacedInstance}
    (rest : (s.place x).Placed t placed) : s.Placed t (x :: placed) := by
  refine ⟨?_, ?_, ?_, fun name => ?_⟩
  · rw [rest.rest, place, embed_rest]
    rfl
  · rw [rest.symbols, place_symbols]
    simp
  · rw [rest.joints, place_joints]
    simp
  · rw [rest.embedded, symbol?_place, Option.or_assoc]
    congr 1
    simp only [firstNamed, List.map_cons, List.find?_cons, List.find?_nil]
    split <;> rfl

end Sheet

section Instances
open Drafting
variable {c : Context} {d d' : Desk}

theorem placeSymbol_at {path : SheetPath} {number : Nat} {i : Eagle.Instance} {resolved : Resolved}
    {placement : Placement} {symbol : PlacedSymbol}
    (made : placeSymbol path number i resolved placement = .ok symbol) :
    PlacedInstance.At ⟨symbol, resolved⟩ ⟨path, number⟩ := by
  obtain ⟨fields, _, same⟩ := bind_ok.1 made
  cases same
  exact ⟨rfl, rfl, rfl⟩

/-- An instance is placed if it stands for something; else the sheet is left as it is. -/
theorem ends_placeInstance_cases {i : Eagle.Instance} {placed : Bool} (ran : Ends (placeInstance c i) d placed d') :
    d'.units = d.units ∧ ((∃ cause, c.resolve i = .error cause ∧ placed = false ∧ d'.sheet = d.sheet) ∨
      ∃ resolved placement symbol, c.resolve i = .ok resolved ∧ placed = true ∧
        (∃ warnings, i.placement = .ok (warnings, placement)) ∧
        placeSymbol d.sheet.path d.sheet.symbols.length i resolved placement = .ok symbol ∧
        d'.sheet = d.sheet.place ⟨symbol, resolved⟩) := by
  unfold placeInstance at ran
  split at ran
  · rename_i cause failed
    obtain ⟨_, _, reported, ran⟩ := ends_bind.1 ran
    obtain ⟨rfl, rfl⟩ := ends_pure.1 ran
    rw [← ends_report.1 reported]
    exact ⟨rfl, .inl ⟨cause, failed, rfl, rfl⟩⟩
  · rename_i resolved found
    obtain ⟨⟨warnings, placement⟩, _, stands, ran⟩ := ends_bind.1 ran
    obtain ⟨isPlacement, rfl⟩ := ends_lift.1 stands
    obtain ⟨_, _, reported, ran⟩ := ends_bind.1 ran
    obtain ⟨_, embedded, isEmbedded, ran⟩ := ends_bind.1 ran
    obtain ⟨_, _, looked, ran⟩ := ends_bind.1 ran
    obtain ⟨rfl, rfl⟩ := ends_sheet.1 looked
    obtain ⟨symbol, _, lifted, ran⟩ := ends_bind.1 ran
    obtain ⟨made, rfl⟩ := ends_lift.1 lifted
    obtain ⟨_, _, added, ran⟩ := ends_bind.1 ran
    obtain ⟨rfl, rfl⟩ := ends_pure.1 ran
    rw [← ends_report.1 reported] at isEmbedded
    rw [← ends_changeSheet.1 isEmbedded] at made added
    rw [← ends_changeSheet.1 added]
    rw [Sheet.embed_rest d.sheet resolved.symbol] at made
    exact ⟨rfl, .inr ⟨resolved, placement, symbol, found, rfl, ⟨warnings, isPlacement⟩, made, rfl⟩⟩

/-- Placing an instance that stands for nothing leaves the sheet as it is. -/
theorem ends_placeInstance {i : Eagle.Instance} (ran : Ends (discard (placeInstance c i)) d () d') :
    d'.units = d.units ∧ ((∃ cause, c.resolve i = .error cause ∧ d'.sheet = d.sheet) ∨
      ∃ x : PlacedInstance, c.resolve i = .ok x.resolved ∧
        x.At ⟨d.sheet.path, d.sheet.symbols.length⟩ ∧ d'.sheet = d.sheet.place x) := by
  obtain ⟨_, ran⟩ := ends_discard.1 ran
  obtain ⟨units, ⟨cause, failed, _, same⟩ | ⟨resolved, placement, symbol, found, _, _, made, same⟩⟩ :=
    ends_placeInstance_cases ran
  · exact ⟨units, .inl ⟨cause, failed, same⟩⟩
  · exact ⟨units, .inr ⟨⟨symbol, resolved⟩, found, placeSymbol_at made, same⟩⟩

theorem ends_instances {instances : List Eagle.Instance}
    (ran : Ends (instances.forM fun i => discard (placeInstance c i)) d () d') :
    ∃ placed : List PlacedInstance, placed.map (·.resolved) = c.placed instances ∧
      (∀ (n : Nat) (x : PlacedInstance), placed[n]? = some x →
        x.At ⟨d.sheet.path, d.sheet.symbols.length + n⟩) ∧
      d.sheet.Placed d'.sheet placed ∧ d'.units = d.units := by
  induction instances generalizing d with
  | nil =>
    obtain rfl := ends_forM_nil.1 ran
    exact ⟨[], rfl, by simp, .refl _, rfl⟩
  | cons i instances ih =>
    obtain ⟨middle, first, rest⟩ := ends_forM_cons.1 ran
    obtain ⟨placed, resolved, standing, isPlaced, units⟩ := ih rest
    obtain ⟨units', ⟨cause, failed, same⟩ | ⟨x, found, here, same⟩⟩ := ends_placeInstance first
    · rw [same] at standing isPlaced
      refine ⟨placed, ?_, standing, isPlaced, units.trans units'⟩
      rw [resolved, Context.placed, Context.placed, List.filterMap_cons_none (by rw [failed]; rfl)]
    · rw [same] at standing isPlaced
      refine ⟨x :: placed, ?_, ?_, isPlaced.cons, units.trans units'⟩
      · rw [List.map_cons, resolved, Context.placed, Context.placed,
          List.filterMap_cons_some (by rw [found]; rfl)]
      · rintro (_ | n) y member
        · obtain rfl := Option.some.inj member
          exact here
        · have there := standing n y member
          rw [Sheet.place_path, Sheet.place_symbols, List.length_append, List.length_singleton,
            Nat.add_assoc, Nat.add_comm 1 n] at there
          exact there

/-- What each placed instance keeps, the instances keep. -/
theorem ends_instances_keeps (P : Sheet → Prop)
    (keeps : ∀ s i resolved placement symbol, c.resolve i = .ok resolved →
      placeSymbol s.path s.symbols.length i resolved placement = .ok symbol → P s → P (s.place ⟨symbol, resolved⟩))
    {instances : List Eagle.Instance} (holds : P d.sheet)
    (ran : Ends (instances.forM fun i => discard (placeInstance c i)) d () d') : P d'.sheet := by
  induction instances generalizing d with
  | nil =>
    obtain rfl := ends_forM_nil.1 ran
    exact holds
  | cons i instances ih =>
    obtain ⟨middle, first, rest⟩ := ends_forM_cons.1 ran
    obtain ⟨_, first⟩ := ends_discard.1 first
    obtain ⟨_, ⟨_, _, _, same⟩ | ⟨resolved, placement, symbol, found, _, _, made, same⟩⟩ := ends_placeInstance_cases first
    · exact ih (same ▸ holds) rest
    · exact ih (same ▸ keeps _ i resolved placement symbol found made holds) rest

end Instances

/-! ## Corrected labels and joined wires -/

/-- Correcting labels moves some and drops none. -/
theorem Tracker.adjust_length {t : Tracker} {labels places : List Point} {moved : Nat}
    (ran : t.adjust labels = .ok (places, moved)) : places.length = labels.length := by
  refine foldlM_keeps (fun state : List Point × Nat => state.1.length = labels.length) ?_ rfl ran
  intro state g state' same group
  refine foldlM_keeps (fun state : List Point × Nat => state.1.length = labels.length) ?_ same group
  rintro ⟨places, moved⟩ label ⟨places', moved'⟩ same step
  obtain ⟨place, _, step⟩ := bind_ok.1 step
  cases place with
  | none =>
    cases step
    exact same
  | some p =>
    cases step
    simpa using same

theorem Sheet.placeLabels_unplaced (s : Sheet) {places : List Point} (same : places.length = s.labels.length) :
    (s.placeLabels places).labels.map NetLabel.unplaced = s.labels.map NetLabel.unplaced := by
  simp only [Sheet.placeLabels]
  generalize s.labels = labels at same
  induction labels generalizing places with
  | nil => simp
  | cons l labels ih =>
    cases places with
    | nil => simp at same
    | cons p places =>
      simp only [List.zipWith_cons_cons, List.map_cons]
      rw [ih (by simpa using same)]
      rfl

section Content
open Drafting
variable {c : Context} {d d' : Desk}

theorem ends_adjustLabels (ran : Ends (discard adjustLabels) d () d') :
    d'.sheet = { d.sheet with labels := d'.sheet.labels, tracker := d'.sheet.tracker } ∧
      d'.sheet.labels.map NetLabel.unplaced = d.sheet.labels.map NetLabel.unplaced ∧ d'.units = d.units := by
  obtain ⟨_, ran⟩ := ends_discard.1 ran
  obtain ⟨_, _, looked, ran⟩ := ends_bind.1 ran
  obtain ⟨rfl, rfl⟩ := ends_sheet.1 looked
  obtain ⟨⟨places, moved⟩, _, lifted, ran⟩ := ends_bind.1 ran
  obtain ⟨found, rfl⟩ := ends_lift.1 lifted
  obtain ⟨_, _, changed, ran⟩ := ends_bind.1 ran
  obtain ⟨_, rfl⟩ := ends_pure.1 ran
  rw [← ends_changeSheet.1 changed]
  have same : places.length = d.sheet.labels.length := by simpa using Tracker.adjust_length found
  exact ⟨rfl, d.sheet.placeLabels_unplaced same, rfl⟩

theorem ends_joinBuses (ran : Ends (discard joinBuses) d () d') :
    d' = { d with sheet := d.sheet.joinBuses.sheet } := by
  obtain ⟨_, ran⟩ := ends_discard.1 ran
  obtain ⟨_, _, looked, ran⟩ := ends_bind.1 ran
  obtain ⟨rfl, rfl⟩ := ends_sheet.1 looked
  obtain ⟨_, _, changed, ran⟩ := ends_bind.1 ran
  obtain ⟨_, rfl⟩ := ends_pure.1 ran
  exact (ends_changeSheet.1 changed).symm

/-! ## The content of a sheet -/

/-- The lines of an EAGLE sheet in the order in which they are drawn. -/
def Context.lines (c : Context) (e : Eagle.Sheet) : List Line :=
  e.buses.flatMap c.netLines ++ e.nets.flatMap c.netLines ++ e.plain.flatMap c.itemLines

/-- Draws the instances, buses and nets of a sheet, with their labels corrected. -/
def drawConnections (c : Context) (e : Eagle.Sheet) : Drafting Unit := do
  e.instances.forM fun i => discard (placeInstance c i)
  e.buses.forM (drawBus c)
  e.nets.forM fun n => drawNet c n.name false n
  discard adjustLabels

/-- Draws a sheet up to its plain items. -/
def drawContent (c : Context) (e : Eagle.Sheet) : Drafting Unit := do
  e.instances.forM fun i => discard (placeInstance c i)
  e.buses.forM (drawBus c)
  e.nets.forM fun n => drawNet c n.name false n
  discard adjustLabels
  discard joinBuses
  e.plain.forM (drawPlain c)

/-- A desk before and after the connections of a sheet are drawn: the instances placed,
    and the labels of each bus and each net as they were drawn. -/
structure Connected (c : Context) (e : Eagle.Sheet) (before after : Desk) (placed : List PlacedInstance)
    (ofBuses ofNets : List (List NetLabel)) : Prop where
  resolved : placed.map (·.resolved) = c.placed e.instances
  standing : ∀ (n : Nat) (x : PlacedInstance), placed[n]? = some x →
    x.At ⟨before.sheet.path, before.sheet.symbols.length + n⟩
  rest : after.sheet = { before.sheet with
    embedded := after.sheet.embedded, symbols := after.sheet.symbols, lines := after.sheet.lines
    junctions := after.sheet.junctions, notes := after.sheet.notes, labels := after.sheet.labels
    tracker := after.sheet.tracker, joints := after.sheet.joints }
  symbols : after.sheet.symbols = before.sheet.symbols ++ placed.map (·.symbol)
  embedded : ∀ name, after.sheet.symbol? name =
    (before.sheet.symbol? name).or (firstNamed (placed.map (·.resolved.symbol)) name)
  lines : after.sheet.lines = before.sheet.lines ++ (e.buses.flatMap c.netLines ++ e.nets.flatMap c.netLines)
  joints : after.sheet.joints = before.sheet.joints ++ placed.flatMap PlacedInstance.joints ++
    (e.buses.flatMap c.netLines ++ e.nets.flatMap c.netLines).flatMap Line.ends
  buses : List.Forall₂ (fun n labels => c.NetLabels (Name.bus n.name) n labels) e.buses ofBuses
  nets : List.Forall₂ (fun n labels => c.NetLabels n.name n labels) e.nets ofNets
  labels : after.sheet.labels.map NetLabel.unplaced =
    (before.sheet.labels ++ ofBuses.flatten ++ ofNets.flatten).map NetLabel.unplaced
  units : after.units = before.units

/-- A desk before and after the content of a sheet is drawn: the instances placed,
    and the labels of each bus and each net as they were drawn. -/
structure DrawnContent (c : Context) (e : Eagle.Sheet) (before after : Desk) (placed : List PlacedInstance)
    (ofBuses ofNets : List (List NetLabel)) : Prop where
  resolved : placed.map (·.resolved) = c.placed e.instances
  standing : ∀ (n : Nat) (x : PlacedInstance), placed[n]? = some x →
    x.At ⟨before.sheet.path, before.sheet.symbols.length + n⟩
  path : after.sheet.path = before.sheet.path
  symbols : after.sheet.symbols = before.sheet.symbols ++ placed.map (·.symbol)
  embedded : ∀ name, after.sheet.symbol? name =
    (before.sheet.symbol? name).or (firstNamed (placed.map (·.resolved.symbol)) name)
  joints : after.sheet.joints =
    before.sheet.joints ++ placed.flatMap PlacedInstance.joints ++ (c.lines e).flatMap Line.ends
  buses : List.Forall₂ (fun n labels => c.NetLabels (Name.bus n.name) n labels) e.buses ofBuses
  nets : List.Forall₂ (fun n labels => c.NetLabels n.name n labels) e.nets ofNets
  labels : after.sheet.labels.map NetLabel.unplaced =
    (before.sheet.labels ++ ofBuses.flatten ++ ofNets.flatten).map NetLabel.unplaced
  units : after.units = before.units

private theorem flatten_of_nil {items : List Eagle.Item} {made : List (List NetLabel)}
    (none : List.Forall₂ (fun _ labels => labels = []) items made) : made.flatten = [] := by
  induction none with
  | nil => rfl
  | cons first _ ih => rw [List.flatten_cons, first, ih]; rfl

theorem ends_drawConnections {e : Eagle.Sheet} (ran : Ends (drawConnections c e) d () d') :
    ∃ placed ofBuses ofNets, Connected c e d d' placed ofBuses ofNets := by
  obtain ⟨_, instances, isPlaced, ran⟩ := ends_bind.1 ran
  obtain ⟨_, buses, hasBuses, ran⟩ := ends_bind.1 ran
  obtain ⟨_, nets, hasNets, isAdjusted⟩ := ends_bind.1 ran
  obtain ⟨placed, resolved, standing, place, placeUnits⟩ := ends_instances isPlaced
  obtain ⟨ofBuses, busLabels, busesGrown⟩ := hasBuses.forM_grown fun n d d' => grown_drawNet
  obtain ⟨ofNets, netLabels, netsGrown⟩ := hasNets.forM_grown fun n d d' => grown_drawNet
  obtain ⟨adjustRest, adjustLabels, adjustUnits⟩ := ends_adjustLabels isAdjusted
  have grown := busesGrown.trans netsGrown
  have embedded : d'.sheet.embedded = instances.sheet.embedded := by rw [adjustRest, grown.rest]
  have placedLabels : instances.sheet.labels = d.sheet.labels := by rw [place.rest]
  refine ⟨placed, ofBuses, ofNets, resolved, standing, ?_, ?_, fun name => ?_, ?_, ?_, busLabels, netLabels, ?_, ?_⟩
  · rw [adjustRest, grown.rest, place.rest]
  · rw [adjustRest, grown.rest, place.symbols]
  · rw [Sheet.symbol?, embedded, ← place.embedded, Sheet.symbol?]
  · rw [adjustRest, grown.lines, place.rest]
  · rw [adjustRest, grown.joints, place.joints]
  · rw [adjustLabels, grown.labels, placedLabels, List.append_assoc]
  · rw [adjustUnits, grown.units, placeUnits]

/-- The content of a sheet is its connections, with wires joined to buses, and its plain items. -/
theorem ends_drawContent_connections {e : Eagle.Sheet} (ran : Ends (drawContent c e) d () d') :
    ∃ connected, Ends (drawConnections c e) d () connected ∧
      Ends (e.plain.forM (drawPlain c)) { connected with sheet := connected.sheet.joinBuses.sheet } () d' := by
  obtain ⟨_, instances, isPlaced, ran⟩ := ends_bind.1 ran
  obtain ⟨_, buses, hasBuses, ran⟩ := ends_bind.1 ran
  obtain ⟨_, nets, hasNets, ran⟩ := ends_bind.1 ran
  obtain ⟨_, connected, isAdjusted, ran⟩ := ends_bind.1 ran
  obtain ⟨_, joined, isJoined, hasPlain⟩ := ends_bind.1 ran
  obtain rfl := ends_joinBuses isJoined
  exact ⟨connected, ends_bind.2 ⟨_, _, isPlaced, ends_bind.2 ⟨_, _, hasBuses, ends_bind.2 ⟨_, _, hasNets, isAdjusted⟩⟩⟩,
    hasPlain⟩

theorem ends_drawContent {e : Eagle.Sheet} (ran : Ends (drawContent c e) d () d') :
    ∃ placed ofBuses ofNets, DrawnContent c e d d' placed ofBuses ofNets := by
  obtain ⟨connected, isConnected, hasPlain⟩ := ends_drawContent_connections ran
  obtain ⟨placed, ofBuses, ofNets, drawn⟩ := ends_drawConnections isConnected
  obtain ⟨ofPlain, plainLabels, grown⟩ := hasPlain.forM_grown fun n d d' => grown_drawPlain
  have joining := connected.sheet.joinBuses_joinedTo
  have symbols : d'.sheet.symbols = connected.sheet.symbols := by rw [grown.rest, joining.rest]
  have embedded : d'.sheet.embedded = connected.sheet.embedded := by rw [grown.rest, joining.rest]
  have joints : connected.sheet.joinBuses.sheet.joints = connected.sheet.joints := by rw [joining.rest]
  refine ⟨placed, ofBuses, ofNets, drawn.resolved, drawn.standing, ?_, ?_, fun name => ?_, ?_, drawn.buses,
    drawn.nets, ?_, ?_⟩
  · rw [grown.rest, joining.rest, drawn.rest]
  · rw [symbols, drawn.symbols]
  · rw [Sheet.symbol?, embedded, ← drawn.embedded, Sheet.symbol?]
  · rw [grown.joints, joints, drawn.joints]
    simp [Context.lines]
  · rw [grown.labels, flatten_of_nil plainLabels, List.append_nil, joining.labels, drawn.labels]
  · rw [grown.units, drawn.units]

/-- The content of a sheet is its placed instances, with lines, labels and notes around them. -/
theorem ends_drawContent_placed {e : Eagle.Sheet} (ran : Ends (drawContent c e) d () d') :
    ∃ placed, Ends (e.instances.forM fun i => discard (placeInstance c i)) d () placed ∧
      d'.sheet = { placed.sheet with
        lines := d'.sheet.lines, junctions := d'.sheet.junctions, entries := d'.sheet.entries
        notes := d'.sheet.notes, labels := d'.sheet.labels, tracker := d'.sheet.tracker, joints := d'.sheet.joints } ∧
      d'.units = placed.units := by
  obtain ⟨connected, isConnected, hasPlain⟩ := ends_drawContent_connections ran
  obtain ⟨_, placed, isPlaced, rest⟩ := ends_bind.1 isConnected
  obtain ⟨_, buses, hasBuses, rest⟩ := ends_bind.1 rest
  obtain ⟨_, nets, hasNets, isAdjusted⟩ := ends_bind.1 rest
  obtain ⟨_, _, busesGrown⟩ := hasBuses.forM_grown fun n d d' => grown_drawNet
  obtain ⟨_, _, netsGrown⟩ := hasNets.forM_grown fun n d d' => grown_drawNet
  obtain ⟨adjustRest, _, adjustUnits⟩ := ends_adjustLabels isAdjusted
  obtain ⟨_, _, plainGrown⟩ := hasPlain.forM_grown fun n d d' => grown_drawPlain
  have joining := connected.sheet.joinBuses_joinedTo
  refine ⟨placed, isPlaced, ?_, ?_⟩
  · rw [plainGrown.rest, joining.rest, adjustRest, netsGrown.rest, busesGrown.rest]
  · rw [plainGrown.units, adjustUnits, netsGrown.units, busesGrown.units]

/-! ## Implied labels and the finished sheet -/

/-- The labels that a placed symbol implies by the symbol embedded under its name. -/
def Sheet.implied (s : Sheet) (symbol : PlacedSymbol) : List NetLabel :=
  match s.symbol? symbol.name with
  | some source => s.impliedLabels symbol source
  | none => []

theorem Sheet.mem_impliedLabels {s : Sheet} {symbol : PlacedSymbol} {source : Symbol} {l : NetLabel} :
    l ∈ s.impliedLabels symbol source ↔ source.isPower = false ∧ ∃ pin p, (pin, p) ∈ symbol.pinPoints source ∧
      pin.kind = .powerIn ∧ s.isConnected p = false ∧ l = impliedLabel pin p := by
  unfold impliedLabels
  cases power : source.isPower with
  | true => simp
  | false =>
    simp only [Bool.false_eq_true, if_false, true_and, List.mem_filterMap, Prod.exists, Option.ite_none_right_eq_some,
      Bool.and_eq_true, decide_eq_true_eq, Bool.not_eq_true', Option.some.injEq]
    constructor
    · rintro ⟨pin, p, here, ⟨kind, free⟩, same⟩
      exact ⟨pin, p, here, kind, free, same.symm⟩
    · rintro ⟨pin, p, here, kind, free, same⟩
      exact ⟨pin, p, here, ⟨kind, free⟩, same.symm⟩

theorem Sheet.mem_implied {s : Sheet} {symbol : PlacedSymbol} {l : NetLabel} : l ∈ s.implied symbol ↔
    ∃ source, s.symbol? symbol.name = some source ∧ l ∈ s.impliedLabels symbol source := by
  unfold implied
  cases s.symbol? symbol.name with
  | none => simp
  | some source => simp

/-- The record of units with one more symbol of the sheet. -/
def Sheet.recordUnit (s : Sheet) (units : UnitRecord) (symbol : PlacedSymbol) : UnitRecord :=
  match s.symbol? symbol.name with
  | some source => units.place symbol source
  | none => units

/-- How far a sheet is moved to stand in the middle of its fitted page. -/
def Sheet.shift (s : Sheet) : Point := (s.page.fit s.extent).centering s.extent

/-- The sheet with the labels that some symbols imply, on its fitted page. -/
def Sheet.finish (s : Sheet) (symbols : List PlacedSymbol) : Sheet :=
  { s with page := s.page.fit s.extent, labels := s.labels ++ symbols.flatMap s.implied, joints := [] }.move s.shift

theorem Sheet.finish_symbols (s : Sheet) (symbols : List PlacedSymbol) :
    (s.finish symbols).symbols = s.symbols.map (·.move s.shift) := rfl

theorem Sheet.finish_symbol? (s : Sheet) (symbols : List PlacedSymbol) (name : String) :
    (s.finish symbols).symbol? name = s.symbol? name := rfl

/-- Implied labels are told from the joints and embedded symbols, which they leave alone. -/
theorem ends_drawAllImplied {symbols : List PlacedSymbol} (ran : Ends (drawAllImplied symbols) d () d') :
    d'.sheet = { d.sheet with labels := d.sheet.labels ++ symbols.flatMap d.sheet.implied } ∧
      d'.units = symbols.foldl d.sheet.recordUnit d.units := by
  induction symbols generalizing d with
  | nil =>
    obtain rfl := ends_forM_nil.1 ran
    simp
  | cons symbol symbols ih =>
    obtain ⟨middle, first, rest⟩ := ends_forM_cons.1 ran
    obtain ⟨_, _, looked, first⟩ := ends_bind.1 first
    obtain ⟨rfl, rfl⟩ := ends_sheet.1 looked
    have here : middle.sheet = { d.sheet with labels := d.sheet.labels ++ d.sheet.implied symbol } ∧
        middle.units = d.sheet.recordUnit d.units symbol := by
      unfold Sheet.implied Sheet.recordUnit
      cases found : d.sheet.symbol? symbol.name with
      | some source =>
        rw [found] at first
        obtain ⟨_, drawn⟩ := ends_discard.1 first
        obtain ⟨_, _, looked, drawn⟩ := ends_bind.1 drawn
        obtain ⟨rfl, rfl⟩ := ends_sheet.1 looked
        obtain ⟨_, _, added, drawn⟩ := ends_bind.1 drawn
        obtain ⟨_, _, recorded, drawn⟩ := ends_bind.1 drawn
        obtain ⟨_, rfl⟩ := ends_pure.1 drawn
        rw [← ends_modify.1 recorded, ← ends_changeSheet.1 added]
        exact ⟨rfl, rfl⟩
      | none =>
        rw [found] at first
        obtain ⟨_, rfl⟩ := ends_pure.1 first
        simp
    obtain ⟨sheet, units⟩ := ih rest
    have implied : middle.sheet.implied = d.sheet.implied := by rw [here.1]; rfl
    have recorded : middle.sheet.recordUnit = d.sheet.recordUnit := by rw [here.1]; rfl
    rw [implied, here.1] at sheet
    rw [recorded, here.2] at units
    refine ⟨?_, units⟩
    rw [sheet]
    simp

/-- A sheet is drawn by drawing its content and finishing it with its new symbols. -/
theorem ends_drawSheet {e : Eagle.Sheet} (ran : Ends (drawSheet c e) d () d') :
    ∃ content, Ends (drawContent c e) d () content ∧
      d'.sheet = content.sheet.finish (content.sheet.symbols.drop d.sheet.symbols.length) ∧
      d'.units = (content.sheet.symbols.drop d.sheet.symbols.length).foldl content.sheet.recordUnit
        content.units := by
  obtain ⟨_, _, looked, ran⟩ := ends_bind.1 ran
  obtain ⟨rfl, rfl⟩ := ends_sheet.1 looked
  obtain ⟨_, instances, isPlaced, ran⟩ := ends_bind.1 ran
  obtain ⟨_, buses, hasBuses, ran⟩ := ends_bind.1 ran
  obtain ⟨_, nets, hasNets, ran⟩ := ends_bind.1 ran
  obtain ⟨_, adjusted, isAdjusted, ran⟩ := ends_bind.1 ran
  obtain ⟨_, joined, isJoined, ran⟩ := ends_bind.1 ran
  obtain ⟨_, content, hasPlain, ran⟩ := ends_bind.1 ran
  have drawn : Ends (drawContent c e) d () content :=
    ends_bind.2 ⟨_, _, isPlaced, ends_bind.2 ⟨_, _, hasBuses, ends_bind.2 ⟨_, _, hasNets,
      ends_bind.2 ⟨_, _, isAdjusted, ends_bind.2 ⟨_, _, isJoined, hasPlain⟩⟩⟩⟩⟩
  obtain ⟨_, _, looked, ran⟩ := ends_bind.1 ran
  obtain ⟨rfl, rfl⟩ := ends_sheet.1 looked
  obtain ⟨_, fitted, isFitted, ran⟩ := ends_bind.1 ran
  obtain ⟨_, _, looked, ran⟩ := ends_bind.1 ran
  obtain ⟨rfl, rfl⟩ := ends_sheet.1 looked
  obtain ⟨_, implied, isImplied, ran⟩ := ends_bind.1 ran
  obtain ⟨_, moved, isMoved, reported⟩ := ends_bind.1 ran
  obtain ⟨_, _, looked, reported⟩ := ends_bind.1 reported
  obtain ⟨rfl, rfl⟩ := ends_sheet.1 looked
  obtain ⟨sheet, units⟩ := ends_drawAllImplied isImplied
  rw [← ends_changeSheet.1 isFitted] at sheet units
  rw [← ends_report.1 reported, ← ends_changeSheet.1 isMoved]
  refine ⟨content, drawn, ?_, units⟩
  simp only [sheet]
  rfl

theorem ends_drawSheet_file {e : Eagle.Sheet} (ran : Ends (drawSheet c e) d () d') : d'.sheet.file = d.sheet.file := by
  obtain ⟨content, drawn, finished, _⟩ := ends_drawSheet ran
  obtain ⟨placed, isPlaced, rest, _⟩ := ends_drawContent_placed drawn
  obtain ⟨_, _, _, place, _⟩ := ends_instances isPlaced
  rw [finished]
  calc content.sheet.file
    _ = placed.sheet.file := by rw [rest]
    _ = d.sheet.file := by rw [place.rest]

end Content

end Redraft
