import Redraft.Proofs.SegmentOwners
import Redraft.Proofs.Setbacks

/-!
# Labels carried off

Joining wires to buses does not ask which segment a label was drawn for. A label
goes with each wire that runs through its place when that wire is drawn back, so
where segments touch a label may go with a wire of another one.
-/

namespace Redraft
open Drafting

section Carried
variable {l : NetLabel}

theorem NetLabel.carried_cons (l : NetLabel) (b : Setback) (rest : List Setback) :
    l.carried (b :: rest) = (l.carried [b]).carried rest := l.carried_append [b] rest

theorem NetLabel.carried_one (l : NetLabel) (b : Setback) :
    l.carried [b] = if b.wire.hits l.position then { l with position := b.target } else l := by
  simp only [carried, List.foldl_cons, List.foldl_nil, Setback.carry]
  split <;> rfl

theorem NetLabel.carried_of_clear {setbacks : List Setback} (clear : ∀ b ∈ setbacks, ¬ b.wire.hits l.position) :
    l.carried setbacks = l := by
  induction setbacks with
  | nil => rfl
  | cons b rest ih =>
    rw [carried_cons, carried_one, if_neg (clear b (.head _))]
    exact ih fun b member => clear b (.tail _ member)

/-- While a label is at some place a numbered wire is drawn back. -/
def NetLabel.Meets (l : NetLabel) (setbacks : List (Nat × Setback)) (number : Nat) (b : Setback) (p : Point) : Prop :=
  ∃ earlier later, setbacks = earlier ++ (number, b) :: later ∧ (l.carried (earlier.map (·.2))).position = p

/-- Wires that never run through the label's place when they are drawn back may be left out. -/
theorem NetLabel.carried_filter {setbacks : List (Nat × Setback)} {own : Nat → Bool}
    (others : ∀ number b p, l.Meets setbacks number b p → b.wire.hits p → own number) :
    l.carried (setbacks.map (·.2)) = l.carried ((setbacks.filter (own ·.1)).map (·.2)) := by
  induction setbacks generalizing l with
  | nil => rfl
  | cons first rest ih =>
    obtain ⟨number, b⟩ := first
    have later := ih (l := l.carried [b]) fun number' b' p ⟨earlier, after, split, place⟩ hit =>
      others number' b' p ⟨(number, b) :: earlier, after, by rw [split]; rfl, by
        rwa [List.map_cons, carried_cons]⟩ hit
    rw [List.map_cons, carried_cons, later, List.filter_cons]
    split
    · rw [List.map_cons, carried_cons l b (List.map _ (rest.filter _))]
    · rename_i other
      have misses : ¬ b.wire.hits l.position := fun hit => other (others number b _ ⟨[], rest, rfl, rfl⟩ hit)
      rw [carried_one, if_neg misses]

end Carried

namespace Sheet

/-- A wire is drawn back in the turn of a bus that one of its ends is on. -/
def DrawsBack (s : Sheet) (number : Nat) (b : Setback) : Prop :=
  ∃ wire before bus after, s.lines[number]? = some wire ∧ wire.kind = .wire ∧
    s.busSegments = before ++ bus :: after ∧ b ∈ ((wire.after before).turn bus).setbacks ∧
    (bus.hits b.wire.a ∨ bus.hits b.wire.b)

theorem drawsBack_of_mem {s : Sheet} {number : Nat} {b : Setback} (member : (number, b) ∈ s.setbacks) :
    s.DrawsBack number b := by
  obtain ⟨wire, before, bus, after, found, split, back⟩ := mem_setbacksOf member
  obtain ⟨kind, touches⟩ := Line.mem_turn back
  exact ⟨wire, before, bus, after, found, (wire.after_kind before).symm.trans kind, split, back, touches⟩

/-- Where a label of a segment goes when all wires are joined to all buses. -/
structure LabelGoes (s : Sheet) (own : Nat → Bool) (n : Nat) (l : NetLabel) : Prop where
  goes : s.joinBuses.sheet.labels[n]? = some (l.carried (s.setbacks.map (·.2)))
  moved : ∀ number b p, l.Meets s.setbacks number b p → Setback.carry p b ≠ p →
    b.wire.hits p ∧ Setback.carry p b = b.target ∧ s.DrawsBack number b
  own : (∀ number b p, l.Meets s.setbacks number b p → b.wire.hits p → own number) →
    l.carried (s.setbacks.map (·.2)) = l.carried ((s.setbacks.filter (own ·.1)).map (·.2))
  stays : (∀ number b, (number, b) ∈ s.setbacks → ¬ b.wire.hits l.position) → l.carried (s.setbacks.map (·.2)) = l

theorem labelGoes {s : Sheet} (own : Nat → Bool) {n : Nat} {l : NetLabel} (found : s.labels[n]? = some l) :
    s.LabelGoes own n l := by
  refine ⟨?_, fun number b p ⟨earlier, later, split, _⟩ moves => ?_, NetLabel.carried_filter, fun clear => ?_⟩
  · rw [joinBuses_labels, List.getElem?_map, found]
    rfl
  · have hit : b.wire.hits p := Classical.byContradiction fun misses => moves (if_neg misses)
    exact ⟨hit, if_pos hit, drawsBack_of_mem (by rw [split]; simp)⟩
  · apply NetLabel.carried_of_clear
    intro b member
    obtain ⟨⟨number, _⟩, isBack, rfl⟩ := List.mem_map.1 member
    exact clear number _ isBack

end Sheet

/-- The wire of a given number is of the segment of a given number. -/
def Eagle.Sheet.ownsWire (e : Eagle.Sheet) (i number : Nat) : Bool := e.wireOwners[number]? = some i

/-- The lines of a sheet are of the segments that own their numbers. -/
def Context.LinesOwned (c : Context) (e : Eagle.Sheet) (s : Sheet) : Prop :=
  ∀ (number : Nat) (line : Line), s.lines[number]? = some line → ∃ i x, e.wireOwners[number]? = some i ∧
    e.drawnSegments[i]? = some x ∧ line ∈ c.segmentLines x

/-- A label goes with the wires that run through its place when they are drawn back, be they of its
    own segment or not. -/
theorem labels_go_with_touching_wires {c : Context} {e : Eagle.Sheet} {d connected : Desk}
    (ran : Ends (drawConnections c e) d () connected) (noLines : d.sheet.lines = []) (noLabels : d.sheet.labels = [])
    {n : Nat} {l : NetLabel} (found : connected.sheet.labels[n]? = some l) :
    c.LinesOwned e connected.sheet ∧ ∃ i x, (c.labelOwners e)[n]? = some i ∧ e.drawnSegments[i]? = some x ∧
      l.text = Name.label x.net ∧ connected.sheet.LabelGoes (e.ownsWire i) n l := by
  obtain ⟨labels, drawn⟩ := ends_drawConnections_segments ran noLines noLabels
  obtain ⟨i, x, owner, segment, text⟩ := drawn.label_owner found
  exact ⟨fun number line isLine => drawn.line_owner isLine, i, x, owner, segment, text, Sheet.labelGoes _ found⟩

def busWire (start stop : Point) : Eagle.Wire := { start, stop, width := 0, layer := 92, curve := none }

/-- A sheet on which a bus and two nets have labels or wires at one point, and a second piece each of
    the bus and of one net makes them need a label. -/
def touchingSheet : Eagle.Sheet where
  description := none
  plain := []
  instances := []
  buses := [⟨"D", [⟨[busWire ⟨0, 0⟩ ⟨0, mils 1000⟩], [], []⟩,
    ⟨[busWire ⟨mils 5000, 0⟩ ⟨mils 5000, mils 1000⟩], [], []⟩]⟩]
  nets := [⟨"X", [⟨[netWire ⟨0, 0⟩ ⟨mils 1000, 0⟩], [], []⟩]⟩,
    ⟨"Y", [⟨[netWire ⟨0, 0⟩ ⟨-mils 1000, 0⟩], [], []⟩,
      ⟨[netWire ⟨0, mils 3000⟩ ⟨mils 1000, mils 3000⟩], [], []⟩]⟩]

def touchingNets : Eagle.Schematic where
  layers := [(91, "Nets"), (92, "Busses")]
  sheets := [touchingSheet]

/-- The labels of the bus and of the net Y go with the wire of the net X. The bus itself stays, and the
    wire of Y is drawn back to the other side. -/
theorem touchingNets_taken : ∃ c report, ∃ connected : Desk,
    Context.ofDocument touchingNets "demo" "demo" = .ok (c, report) ∧
    Ends (drawConnections c touchingSheet)
      ⟨c.newSheet "demo" "demo.kicad_sch" .root ⟨some "A4", ⟨2970000, 2100000⟩⟩, report, []⟩ () connected ∧
    touchingSheet.wireOwners = [0, 1, 2, 3, 4] ∧ c.labelOwners touchingSheet = [0, 1, 3, 4] ∧
    connected.sheet.labels.map (·.position) = [⟨0, 0⟩, ⟨mils 5000, 0⟩, ⟨0, 0⟩, ⟨0, -mils 3000⟩] ∧
    connected.sheet.joinBuses.sheet.labels.map (·.position) =
      [⟨mils 100, 0⟩, ⟨mils 5000, 0⟩, ⟨mils 100, 0⟩, ⟨0, -mils 3000⟩] ∧
    connected.sheet.joinBuses.sheet.lines[0]? = connected.sheet.lines[0]? ∧
    connected.sheet.joinBuses.sheet.lines[2]?.map (·.start) = some ⟨mils 100, 0⟩ ∧
    connected.sheet.joinBuses.sheet.lines[3]?.map (·.start) = some ⟨-mils 100, 0⟩ := by
  have checked : (Context.ofDocument touchingNets "demo" "demo").toOption.any (fun shared =>
      let drawn := (drawConnections shared.1 touchingSheet).outcome
        ⟨shared.1.newSheet "demo" "demo.kicad_sch" .root ⟨some "A4", ⟨2970000, 2100000⟩⟩, shared.2, []⟩
      drawn.1.toBool && decide (touchingSheet.wireOwners = [0, 1, 2, 3, 4] ∧
        shared.1.labelOwners touchingSheet = [0, 1, 3, 4] ∧
        drawn.2.sheet.labels.map (·.position) = [⟨0, 0⟩, ⟨mils 5000, 0⟩, ⟨0, 0⟩, ⟨0, -mils 3000⟩] ∧
        drawn.2.sheet.joinBuses.sheet.labels.map (·.position) =
          [⟨mils 100, 0⟩, ⟨mils 5000, 0⟩, ⟨mils 100, 0⟩, ⟨0, -mils 3000⟩] ∧
        drawn.2.sheet.joinBuses.sheet.lines[0]? = drawn.2.sheet.lines[0]? ∧
        drawn.2.sheet.joinBuses.sheet.lines[2]?.map (·.start) = some ⟨mils 100, 0⟩ ∧
        drawn.2.sheet.joinBuses.sheet.lines[3]?.map (·.start) = some ⟨-mils 100, 0⟩)) = true := by decide +kernel
  have drawn := (Option.any_eq_true ..).1 checked
  obtain ⟨⟨c, report⟩, shared, holds⟩ := drawn
  simp only [Bool.and_eq_true, decide_eq_true_eq] at holds
  exact ⟨c, report, _, ok_of_toOption shared, .of_toBool holds.1, holds.2⟩

/-- A label may be moved while all wires of its own segment stay. -/
theorem not_all_labels_with_own_wires : ¬ ∀ (document : Eagle.Schematic) (library project name file : String)
    (c : Context) (e : Eagle.Sheet) (path : SheetPath) (page : Page) (shared report : Report) (units : UnitRecord)
    (connected : Desk), Context.ofDocument document library project = .ok (c, shared) → e ∈ document.sheets →
    Ends (drawConnections c e) ⟨c.newSheet name file path page, report, units⟩ () connected →
    ∀ (n i : Nat) (l l' : NetLabel), (c.labelOwners e)[n]? = some i → connected.sheet.labels[n]? = some l →
      connected.sheet.joinBuses.sheet.labels[n]? = some l' → l'.position ≠ l.position →
      ∃ number : Nat, e.wireOwners[number]? = some i ∧
        connected.sheet.joinBuses.sheet.lines[number]? ≠ connected.sheet.lines[number]? := by
  intro claim
  obtain ⟨c, report, connected, shared, ran, wires, labels, before, after, stays, _⟩ := touchingNets_taken
  have first (labels : List NetLabel) {p : Point} {rest : List Point} (places : labels.map (·.position) = p :: rest) :
      ∃ l, labels[0]? = some l ∧ l.position = p := by
    cases labels with
    | nil => cases places
    | cons l _ => exact ⟨l, rfl, (List.cons.inj places).1⟩
  obtain ⟨l, isLabel, place⟩ := first _ before
  obtain ⟨l', isMoved, place'⟩ := first _ after
  obtain ⟨number, owner, changed⟩ := claim _ _ _ _ _ c _ _ _ _ _ _ connected shared (.head _) ran 0 0 l l'
    (by rw [labels]; rfl) isLabel isMoved (by rw [place, place']; decide)
  rw [wires] at owner
  have bus : number = 0 := by
    match number, owner with
    | 0, _ => rfl
    | 1, other | 2, other | 3, other | 4, other => simp at other
    | _ + 5, outside => simp at outside
  subst bus
  exact changed stays

/-- The label of the bus goes with the wires that run through its place. -/
theorem touchingNets_labels_go : ∃ c report, ∃ connected : Desk,
    Context.ofDocument touchingNets "demo" "demo" = .ok (c, report) ∧ ∃ l, connected.sheet.labels[0]? = some l ∧
    c.LinesOwned touchingSheet connected.sheet ∧
    ∃ i x, (c.labelOwners touchingSheet)[0]? = some i ∧ touchingSheet.drawnSegments[i]? = some x ∧
      l.text = Name.label x.net ∧ connected.sheet.LabelGoes (touchingSheet.ownsWire i) 0 l := by
  obtain ⟨c, report, connected, shared, ran, _, _, before, _⟩ := touchingNets_taken
  have some : 0 < connected.sheet.labels.length := by
    rw [← List.length_map (f := (·.position)), before]
    decide
  have found := List.getElem?_eq_getElem some
  exact ⟨c, report, connected, shared, _, found, labels_go_with_touching_wires ran rfl rfl found⟩

end Redraft
