import Redraft.Proofs.SheetDrawing
import Redraft.Project.Convert

/-!
# Supply pins

A supply pin that nothing is connected to should get a label. Whether something
is connected is told from the joints: each pin and each end of a line as it was
drawn, whatever it stands for and whether or not it is still there.
-/

namespace Redraft

namespace Sheet

/-- A label at the point reaches over the whole document. -/
def Named (s : Sheet) (p : Point) : Prop := ∃ l ∈ s.labels, l.scope = .document ∧ l.position = p

/-- The points of a symbol's pins by the symbol embedded under its name. -/
def pinPlaces (s : Sheet) (symbol : PlacedSymbol) : List Point :=
  match s.symbol? symbol.name with
  | some source => (symbol.pinPoints source).map (·.2)
  | none => []

/-- A wire or bus ends at the point, or a pin of another placed symbol than that of the number is there. -/
def Meets (s : Sheet) (number : Nat) (p : Point) : Prop :=
  (∃ l ∈ s.drawnLines, l.kind ≠ .notes ∧ (l.start = p ∨ l.stop = p)) ∨
  ∃ other ∈ s.symbols.zipIdx, other.2 ≠ number ∧ p ∈ s.pinPlaces other.1

/-- A supply pin of the symbol of a number stands at the point; those of supply symbols do not count. -/
def HasSupplyPin (s : Sheet) (number : Nat) (p : Point) : Prop :=
  ∃ symbol ∈ s.symbols[number]?, ∃ source ∈ s.symbol? symbol.name, source.isPower = false ∧
    ∃ pin ∈ symbol.pinPoints source, pin.1.kind = .powerIn ∧ pin.2 = p

/-- Nothing is at the point that a supply pin of the symbol could be connected to. -/
def Floats (s : Sheet) (number : Nat) (p : Point) : Prop := ¬ s.Named p ∧ ¬ s.Meets number p

instance (s : Sheet) (number : Nat) (p : Point) : Decidable (s.HasSupplyPin number p) :=
  inferInstanceAs (Decidable (∃ symbol ∈ s.symbols[number]?, _))

instance (s : Sheet) (p : Point) : Decidable (s.Named p) := inferInstanceAs (Decidable (∃ l ∈ s.labels, _))

instance (s : Sheet) (number : Nat) (p : Point) : Decidable (s.Meets number p) := inferInstanceAs (Decidable (_ ∨ _))

instance (s : Sheet) (number : Nat) (p : Point) : Decidable (s.Floats number p) := inferInstanceAs (Decidable (_ ∧ _))

end Sheet

/-! ## Moving -/

namespace Point

theorem add_sub_self (p d : Point) : p + d - d = p := by
  ext
  · simp only [sub_x, add_x]; omega
  · simp only [sub_y, add_y]; omega

theorem sub_add_self (p d : Point) : p - d + d = p := by
  ext
  · simp only [sub_x, add_x]; omega
  · simp only [sub_y, add_y]; omega

theorem add_eq_iff {p q d : Point} : p + d = q ↔ p = q - d := by
  constructor
  · rintro rfl
    exact (add_sub_self p d).symm
  · rintro rfl
    exact sub_add_self q d

theorem add_right_comm (p q d : Point) : p + d + q = p + q + d := by
  ext
  · simp only [add_x]; omega
  · simp only [add_y]; omega

end Point

theorem PlacedSymbol.pinPoints_move (symbol : PlacedSymbol) (source : Symbol) (d : Point) :
    (symbol.move d).pinPoints source = (symbol.pinPoints source).map fun (pin, p) => (pin, p + d) := by
  simp only [PlacedSymbol.pinPoints, List.map_map]
  apply List.map_congr_left
  intro pin _
  simp only [Function.comp, PlacedSymbol.move, Placement.apply, Prod.mk.injEq, true_and]
  exact Point.add_right_comm ..

/-- A pin of a moved symbol stands at the moved point. -/
theorem PlacedSymbol.mem_pinPoints_move {symbol : PlacedSymbol} {source : Symbol} {d p : Point} {pin : Pin} :
    (pin, p) ∈ (symbol.move d).pinPoints source ↔ (pin, p - d) ∈ symbol.pinPoints source := by
  rw [PlacedSymbol.pinPoints_move, List.mem_map]
  constructor
  · rintro ⟨⟨_, q⟩, member, same⟩
    obtain ⟨rfl, rfl⟩ := Prod.mk.inj same
    rwa [Point.add_sub_self]
  · intro member
    exact ⟨(pin, p - d), member, Prod.ext rfl (Point.sub_add_self p d)⟩

namespace Sheet
variable {s : Sheet} {symbols : List PlacedSymbol} {number : Nat} {p : Point}

theorem named_finish : (s.finish symbols).Named p ↔
    s.Named (p - s.shift) ∨ ∃ symbol ∈ symbols, ∃ l ∈ s.implied symbol, l.position = p - s.shift := by
  have labels : (s.finish symbols).labels = (s.labels ++ symbols.flatMap s.implied).map
      fun l => { l with position := l.position + s.shift } := rfl
  unfold Named
  rw [labels]
  constructor
  · rintro ⟨_, member, scope, there⟩
    obtain ⟨l, unmoved, rfl⟩ := List.mem_map.1 member
    have here : l.position = p - s.shift := Point.add_eq_iff.1 there
    rcases List.mem_append.1 unmoved with drawn | implied
    · exact .inl ⟨l, drawn, scope, here⟩
    · obtain ⟨symbol, isPlaced, isImplied⟩ := List.mem_flatMap.1 implied
      exact .inr ⟨symbol, isPlaced, l, isImplied, here⟩
  · rintro (⟨l, member, scope, here⟩ | ⟨symbol, isPlaced, l, isImplied, here⟩)
    · exact ⟨_, List.mem_map.2 ⟨l, List.mem_append_left _ member, rfl⟩, scope, Point.add_eq_iff.2 here⟩
    · obtain ⟨_, _, labelled⟩ := mem_implied.1 isImplied
      obtain ⟨_, _, _, _, _, _, rfl⟩ := mem_impliedLabels.1 labelled
      have member := List.mem_append_right s.labels (List.mem_flatMap.2 ⟨symbol, isPlaced, isImplied⟩)
      exact ⟨_, List.mem_map.2 ⟨_, member, rfl⟩, rfl, Point.add_eq_iff.2 here⟩

theorem hasSupplyPin_finish :
    (s.finish symbols).HasSupplyPin number p ↔ s.HasSupplyPin number (p - s.shift) := by
  unfold HasSupplyPin
  simp only [finish_symbols, finish_symbol?, List.getElem?_map, Option.mem_def, Option.map_eq_some_iff]
  constructor
  · rintro ⟨_, ⟨symbol, here, rfl⟩, source, found, other, ⟨pin, _⟩, member, kind, rfl⟩
    exact ⟨symbol, here, source, found, other, _, PlacedSymbol.mem_pinPoints_move.1 member, kind, rfl⟩
  · rintro ⟨symbol, here, source, found, other, ⟨pin, q⟩, member, kind, rfl⟩
    refine ⟨_, ⟨symbol, here, rfl⟩, source, found, other, (pin, p), ?_, kind, rfl⟩
    exact PlacedSymbol.mem_pinPoints_move.2 member

/-- A supply pin's point is labelled by implication just if fewer than two joints are there. -/
theorem implied_iff (supply : s.HasSupplyPin number p) :
    (∃ symbol ∈ s.symbols, ∃ l ∈ s.implied symbol, l.position = p) ↔ s.joints.count p < 2 := by
  have free : s.isConnected p = false ↔ s.joints.count p < 2 := by
    rw [isConnected, decide_eq_false_iff_not]
    omega
  rw [← free]
  constructor
  · rintro ⟨symbol, _, l, isImplied, rfl⟩
    obtain ⟨_, _, labelled⟩ := mem_implied.1 isImplied
    obtain ⟨_, _, _, _, _, unconnected, rfl⟩ := mem_impliedLabels.1 labelled
    exact unconnected
  · intro unconnected
    obtain ⟨symbol, here, source, found, other, ⟨pin, _⟩, member, kind, rfl⟩ := supply
    exact ⟨symbol, List.mem_of_getElem? here, impliedLabel pin _, mem_implied.2 ⟨source, found,
      mem_impliedLabels.2 ⟨other, pin, _, member, kind, unconnected, rfl⟩⟩, rfl⟩

end Sheet

/-! ## Pins that float -/

open Drafting in
/-- A supply pin floats just if two joints or more were counted at its point, no net names the
    point, and nothing real is there. -/
theorem supply_pin_floats_iff {c : Context} {e : Eagle.Sheet} {name file : String} {path : SheetPath} {page : Page}
    {report : Report} {units : UnitRecord} {done : Desk}
    (ran : Ends (drawSheet c e) ⟨c.newSheet name file path page, report, units⟩ () done) :
    ∃ (content : Desk) (placed : List PlacedInstance),
      Ends (drawContent c e) ⟨c.newSheet name file path page, report, units⟩ () content ∧
      placed.map (·.resolved) = c.placed e.instances ∧
      done.sheet.symbols = placed.map (fun x => x.symbol.move content.sheet.shift) ∧
      ∀ number p, done.sheet.HasSupplyPin number p →
        (done.sheet.Floats number p ↔
          2 ≤ (placed.flatMap PlacedInstance.joints ++ (c.lines e).flatMap Line.ends).count
            (p - content.sheet.shift) ∧
          ¬ content.sheet.Named (p - content.sheet.shift) ∧ ¬ done.sheet.Meets number p) := by
  obtain ⟨content, drawn, sheet, _⟩ := ends_drawSheet ran
  obtain ⟨placed, ofBuses, ofNets, isContent⟩ := ends_drawContent drawn
  have symbols : content.sheet.symbols = placed.map (·.symbol) := isContent.symbols
  have joints : content.sheet.joints =
      placed.flatMap PlacedInstance.joints ++ (c.lines e).flatMap Line.ends := isContent.joints
  have finished : done.sheet = content.sheet.finish content.sheet.symbols := sheet
  refine ⟨content, placed, drawn, isContent.resolved, ?_, fun number p supply => ?_⟩
  · rw [finished, Sheet.finish_symbols, symbols, List.map_map]
    rfl
  · rw [finished, Sheet.hasSupplyPin_finish] at supply
    have named : done.sheet.Named p ↔ content.sheet.Named (p - content.sheet.shift) ∨
        content.sheet.joints.count (p - content.sheet.shift) < 2 := by
      rw [finished, Sheet.named_finish, Sheet.implied_iff supply]
    rw [Sheet.Floats, named, joints, not_or, Nat.not_lt]
    constructor
    · rintro ⟨⟨unnamed, counted⟩, alone⟩
      exact ⟨counted, unnamed, alone⟩
    · rintro ⟨counted, unnamed, alone⟩
      exact ⟨⟨unnamed, counted⟩, alone⟩

/-- A sheet with one instance of a part. -/
def onePart : Eagle.Sheet := ⟨none, [], [⟨"U1", "G", ⟨0, 0⟩, false, none, [], []⟩], [], []⟩

/-- A document with one part, the supply pin of which is connected to two pads. -/
def twoPads : Eagle.Schematic where
  libraries := [("a", {
    name := "a"
    symbols := [("S", ⟨"S", [.pin ⟨"VCC", ⟨0, 0⟩, none, none, some "pwr", none, none⟩]⟩)]
    deviceSets := [⟨"X", "U", [⟨"G", "S", ⟨0, 0⟩⟩], [⟨"", some "P", [⟨"G", "VCC", "1 2"⟩]⟩]⟩] })]
  parts := [("U1", ⟨"U1", "a", "X", "", none, none, [], []⟩)]
  sheets := [onePart]

open Drafting in
theorem twoPads_drawn : ∃ c report, ∃ done : Desk, Context.ofDocument twoPads "demo" "demo" = .ok (c, report) ∧
    Ends (drawSheet c onePart)
      ⟨c.newSheet "demo" "demo.kicad_sch" .root ⟨some "A4", ⟨2970000, 2100000⟩⟩, report, []⟩ () done ∧
    done.sheet.HasSupplyPin 0 ⟨1422400, 1041400⟩ ∧ done.sheet.Floats 0 ⟨1422400, 1041400⟩ := by
  have checked : (Context.ofDocument twoPads "demo" "demo").toOption.any (fun shared =>
      let drawn := (drawSheet shared.1 onePart).outcome
        ⟨shared.1.newSheet "demo" "demo.kicad_sch" .root ⟨some "A4", ⟨2970000, 2100000⟩⟩, shared.2, []⟩
      drawn.1.toBool && decide (drawn.2.sheet.HasSupplyPin 0 ⟨1422400, 1041400⟩ ∧
        drawn.2.sheet.Floats 0 ⟨1422400, 1041400⟩)) = true := by decide +kernel
  obtain ⟨⟨c, report⟩, shared, holds⟩ := (Option.any_eq_true ..).1 checked
  obtain ⟨ran, floats⟩ := Bool.and_eq_true_iff.1 holds
  exact ⟨c, report, _, ok_of_toOption shared, .of_toBool ran, of_decide_eq_true floats⟩

open Drafting in
theorem twoPads_floats_iff : ∃ c report, ∃ done : Desk,
    Context.ofDocument twoPads "demo" "demo" = .ok (c, report) ∧ ∃ (content : Desk) (placed : List PlacedInstance),
      placed.map (·.resolved) = c.placed onePart.instances ∧
      (done.sheet.Floats 0 ⟨1422400, 1041400⟩ ↔
        2 ≤ (placed.flatMap PlacedInstance.joints ++ (c.lines onePart).flatMap Line.ends).count
          (⟨1422400, 1041400⟩ - content.sheet.shift) ∧
        ¬ content.sheet.Named (⟨1422400, 1041400⟩ - content.sheet.shift) ∧
        ¬ done.sheet.Meets 0 ⟨1422400, 1041400⟩) := by
  obtain ⟨c, report, done, shared, ran, supply, _⟩ := twoPads_drawn
  obtain ⟨content, placed, _, resolved, _, floats⟩ := supply_pin_floats_iff ran
  exact ⟨c, report, done, shared, content, placed, resolved, floats _ _ supply⟩

open Drafting in
/-- Both copies of the pin are counted, so that it gets no label and floats. -/
theorem not_all_supply_pins_connected : ¬ ∀ (document : Eagle.Schematic) (library project name file : String)
    (c : Context) (e : Eagle.Sheet) (path : SheetPath) (page : Page) (shared report : Report) (units : UnitRecord)
    (done : Desk), Context.ofDocument document library project = .ok (c, shared) → e ∈ document.sheets →
    Ends (drawSheet c e) ⟨c.newSheet name file path page, report, units⟩ () done →
    ∀ number p, done.sheet.HasSupplyPin number p → ¬ done.sheet.Floats number p := by
  intro claim
  obtain ⟨c, report, done, shared, ran, supply, floats⟩ := twoPads_drawn
  exact claim _ _ _ _ _ _ _ _ _ _ _ _ _ shared (.head _) ran _ _ supply floats

end Redraft
