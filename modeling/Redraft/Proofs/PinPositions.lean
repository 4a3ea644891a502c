import Redraft.Proofs.SupplyPins

/-!
# Where pins stand

EAGLE turns a symbol counter-clockwise, then reflects it about the vertical axis,
then moves it; Y points up all the way. On the sheet Y points down, and a symbol is
flipped into that before it is turned and reflected. Both ways lead to one place,
so that a pin and the end of a wire meet just if they met in EAGLE.
-/

namespace Redraft

/-! ## Turning and reflecting -/

namespace Turn

def cosine : Turn → Int
  | zero => 1
  | quarter => 0
  | half => -1
  | threeQuarters => 0

def sine : Turn → Int
  | zero => 0
  | quarter => 1
  | half => 0
  | threeQuarters => -1

/-- A displacement turned counter-clockwise, where Y points up. -/
def rotate (t : Turn) (p : Point) : Point := ⟨t.cosine * p.x - t.sine * p.y, t.sine * p.x + t.cosine * p.y⟩

theorem apply_flip (t : Turn) (p : Point) : t.apply p.flip = (t.rotate p).flip := by
  cases t <;> simp [apply, rotate, cosine, sine, Point.flip]

theorem rotate_inj {t : Turn} {p q : Point} : t.rotate p = t.rotate q ↔ p = q := by
  simp only [rotate, Point.ext_iff]
  cases t
  all_goals
    simp only [cosine, sine]
    omega

end Turn

namespace Point

/-- A displacement reflected about the vertical axis, or left as it is. -/
def reflect (mirrored : Bool) (p : Point) : Point := if mirrored then ⟨-p.x, p.y⟩ else p

theorem reflect_inj {mirrored : Bool} {p q : Point} : p.reflect mirrored = q.reflect mirrored ↔ p = q := by
  cases mirrored <;> simp [reflect, Point.ext_iff]

theorem flip_inj {p q : Point} : p.flip = q.flip ↔ p = q := by
  simp [flip, Point.ext_iff]

theorem add_left_inj {p q d : Point} : d + p = d + q ↔ p = q := by
  simp [Point.ext_iff]

end Point

/-- Where a point of a symbol is on the EAGLE sheet, for an instance that is turned and maybe mirrored. -/
def Eagle.Instance.spot (i : Eagle.Instance) (turn : Turn) (p : Point) : Point :=
  i.position + (turn.rotate p).reflect (i.rotation.any (·.mirrored))

theorem Eagle.Instance.spot_inj {i : Eagle.Instance} {turn : Turn} {p q : Point} :
    i.spot turn p = i.spot turn q ↔ p = q := by
  rw [spot, spot, Point.add_left_inj, Point.reflect_inj, Turn.rotate_inj]

/-! ## Placed pins -/

/-- An instance that is turned by a whole number of quarters has each point of its symbol where EAGLE has it. -/
theorem Eagle.Instance.placement_apply {i : Eagle.Instance} {turn : Turn} {warnings : Report} {placement : Placement}
    (turned : Eagle.wholeDegreesOf i.rotation = .ok turn.degrees) (placed : i.placement = .ok (warnings, placement))
    (p : Point) : placement.apply p = (i.spot turn p).flip := by
  unfold Eagle.Instance.placement at placed
  obtain ⟨degrees, isDegrees, placed⟩ := bind_ok.1 placed
  obtain rfl : turn.degrees = degrees := Except.ok.inj (turned.symm.trans isDegrees)
  rw [Turn.ofDegrees?_degrees] at placed
  obtain rfl := (Prod.mk.inj (Except.ok.inj placed)).2
  unfold Placement.apply spot
  dsimp only [Option.getD_some]
  rw [Turn.apply_flip]
  cases i.rotation.any (·.mirrored)
  · simp [Flip.apply, Point.reflect, Point.flip, Point.ext_iff]
    omega
  · simp [Flip.apply, Point.reflect, Point.flip, Point.ext_iff]
    omega

/-- The pins of a placed instance are where EAGLE has them, seen with Y pointing down. So they meet the ends of
    wires, and each other, just as they do there. -/
structure Context.StandsAs (c : Context) (i : Eagle.Instance) (turn : Turn) (x : PlacedInstance) : Prop where
  pins : x.symbol.pinPoints x.resolved.symbol =
    (x.resolved.symbol.pins x.resolved.unit).map fun pin => (pin, (i.spot turn pin.position).flip)
  meets : ∀ pin p, (pin, p) ∈ x.symbol.pinPoints x.resolved.symbol → ∀ w : Eagle.Wire,
    (w.start = i.spot turn pin.position ↔ (c.line w).start = p) ∧
    (w.stop = i.spot turn pin.position ↔ (c.line w).stop = p)
  apart : ∀ pin p pin' p', (pin, p) ∈ x.symbol.pinPoints x.resolved.symbol →
    (pin', p') ∈ x.symbol.pinPoints x.resolved.symbol → (p = p' ↔ pin.position = pin'.position)

theorem Context.standsAs_of_pins {c : Context} {i : Eagle.Instance} {turn : Turn} {x : PlacedInstance}
    (pins : x.symbol.pinPoints x.resolved.symbol =
      (x.resolved.symbol.pins x.resolved.unit).map fun pin => (pin, (i.spot turn pin.position).flip)) :
    c.StandsAs i turn x := by
  have point {pin : Pin} {p : Point} (member : (pin, p) ∈ x.symbol.pinPoints x.resolved.symbol) :
      p = (i.spot turn pin.position).flip := by
    rw [pins] at member
    obtain ⟨_, _, same⟩ := List.mem_map.1 member
    cases same
    rfl
  refine ⟨pins, ?_, ?_⟩
  · intro pin p member w
    rw [point member]
    constructor
    · exact Point.flip_inj.symm
    · exact Point.flip_inj.symm
  · intro pin p pin' p' member member'
    rw [point member, point member', Point.flip_inj, Eagle.Instance.spot_inj]

/-- An instance and what it is placed as. -/
def Context.Places (c : Context) (i : Eagle.Instance) (x : PlacedInstance) : Prop :=
  c.resolve i = .ok x.resolved ∧ x.symbol.unit = x.resolved.unit ∧
    ∃ warnings, i.placement = .ok (warnings, x.symbol.placement)

theorem Context.Places.standsAs {c : Context} {i : Eagle.Instance} {x : PlacedInstance} {turn : Turn}
    (places : c.Places i x) (turned : Eagle.wholeDegreesOf i.rotation = .ok turn.degrees) : c.StandsAs i turn x := by
  obtain ⟨_, unit, warnings, placed⟩ := places
  apply Context.standsAs_of_pins
  unfold PlacedSymbol.pinPoints
  rw [unit]
  apply List.map_congr_left
  intro pin _
  rw [Eagle.Instance.placement_apply turned placed]

/-- The instances that stand for something, in order. -/
def Context.placeable (c : Context) (instances : List Eagle.Instance) : List Eagle.Instance :=
  instances.filter fun i => (c.resolve i).toBool

section Placeable
variable {c : Context} {i : Eagle.Instance} {instances : List Eagle.Instance}

theorem placeable_cons_ok {resolved : Resolved} (found : c.resolve i = .ok resolved) :
    c.placeable (i :: instances) = i :: c.placeable instances := by
  simp [Context.placeable, found, Except.toBool]

theorem placeable_cons_error {cause : Unplaced} (failed : c.resolve i = .error cause) :
    c.placeable (i :: instances) = c.placeable instances := by
  simp [Context.placeable, failed, Except.toBool]

theorem placed_of_places {placed : List PlacedInstance}
    (places : List.Forall₂ c.Places (c.placeable instances) placed) :
    placed.map (·.resolved) = c.placed instances := by
  induction instances generalizing placed with
  | nil =>
    cases places
    rfl
  | cons i instances ih =>
    unfold Context.placed at ih ⊢
    cases found : c.resolve i with
    | error cause =>
      rw [placeable_cons_error found] at places
      rw [List.filterMap_cons_none (by rw [found]; rfl)]
      exact ih places
    | ok resolved =>
      rw [placeable_cons_ok found] at places
      rw [List.filterMap_cons_some (by rw [found]; rfl)]
      cases places with
      | cons here places =>
        rw [List.map_cons, ih places, Except.ok.inj (found.symm.trans here.1)]

end Placeable

section Drawn
open Drafting
variable {c : Context} {d d' : Desk}

theorem placeSymbol_placement {path : SheetPath} {number : Nat} {i : Eagle.Instance} {resolved : Resolved}
    {placement : Placement} {symbol : PlacedSymbol}
    (made : placeSymbol path number i resolved placement = .ok symbol) : symbol.placement = placement := by
  obtain ⟨fields, _, same⟩ := bind_ok.1 made
  cases same
  rfl

/-- A placed instance adds its symbol to the sheet, and its pins to the joints. -/
theorem ends_placeInstance_places {i : Eagle.Instance} (ran : Ends (placeInstance c i) d true d') :
    ∃ x, c.Places i x ∧ d'.sheet = d.sheet.place x := by
  obtain ⟨_, ⟨_, _, none, _⟩ | ⟨resolved, placement, symbol, found, _, standing, made, sheet⟩⟩ :=
    ends_placeInstance_cases ran
  · cases none
  · have here := placeSymbol_at made
    have same := placeSymbol_placement made
    exact ⟨⟨symbol, resolved⟩, ⟨found, here.unit, same ▸ standing⟩, sheet⟩

/-- The instances of a sheet that stand for something are placed, each as EAGLE has it. -/
theorem ends_instances_places {instances : List Eagle.Instance}
    (ran : Ends (instances.forM fun i => discard (placeInstance c i)) d () d') :
    ∃ placed, List.Forall₂ c.Places (c.placeable instances) placed ∧
      d.sheet.Placed d'.sheet placed := by
  induction instances generalizing d with
  | nil =>
    obtain rfl := ends_forM_nil.1 ran
    exact ⟨[], .nil, .refl _⟩
  | cons i instances ih =>
    obtain ⟨middle, first, rest⟩ := ends_forM_cons.1 ran
    obtain ⟨placed, places, isPlaced⟩ := ih rest
    obtain ⟨isFirst, first⟩ := ends_discard.1 first
    cases isFirst with
    | true =>
      obtain ⟨x, here, same⟩ := ends_placeInstance_places first
      rw [same] at isPlaced
      refine ⟨x :: placed, ?_, isPlaced.cons⟩
      rw [placeable_cons_ok here.1]
      exact .cons here places
    | false =>
      obtain ⟨_, ⟨cause, failed, _, same⟩ | ⟨_, _, _, _, placed, _⟩⟩ := ends_placeInstance_cases first
      · rw [same] at isPlaced
        refine ⟨placed, ?_, isPlaced⟩
        rw [placeable_cons_error failed]
        exact places
      · cases placed

theorem placedInstances_ext {placed placed' : List PlacedInstance}
    (symbols : placed.map (·.symbol) = placed'.map (·.symbol))
    (resolved : placed.map (·.resolved) = placed'.map (·.resolved)) : placed = placed' := by
  induction placed generalizing placed' with
  | nil => exact (List.map_eq_nil_iff.1 symbols.symm).symm
  | cons x placed ih =>
    cases placed' with
    | nil => cases symbols
    | cons y placed' =>
      obtain ⟨symbol, symbols⟩ := List.cons_eq_cons.1 symbols
      obtain ⟨source, resolved⟩ := List.cons_eq_cons.1 resolved
      have here : x = y := by
        obtain ⟨_, _⟩ := x
        obtain ⟨_, _⟩ := y
        subst symbol source
        rfl
      rw [here, ih symbols resolved]

/-- On a drawn sheet the joints are the pins of the placed instances, each where EAGLE has it, and the ends of the
    drawn lines. A pin and the end of a wire are at one point just if they are on the EAGLE sheet. -/
theorem pins_meet_wires {e : Eagle.Sheet} (ran : Ends (drawSheet c e) d () d') :
    ∃ (content : Desk) (placed : List PlacedInstance), Ends (drawContent c e) d () content ∧
      content.sheet.symbols = d.sheet.symbols ++ placed.map (·.symbol) ∧
      content.sheet.joints =
        d.sheet.joints ++ placed.flatMap PlacedInstance.joints ++ (c.lines e).flatMap Line.ends ∧
      d'.sheet.symbols = content.sheet.symbols.map (·.move content.sheet.shift) ∧
      List.Forall₂ (fun i x => c.resolve i = .ok x.resolved ∧
          ∀ turn : Turn, Eagle.wholeDegreesOf i.rotation = .ok turn.degrees → c.StandsAs i turn x)
        (c.placeable e.instances) placed := by
  obtain ⟨content, drawn, finished, _⟩ := ends_drawSheet ran
  obtain ⟨instances, isPlaced, rest, _⟩ := ends_drawContent_placed drawn
  obtain ⟨placed, places, standing⟩ := ends_instances_places isPlaced
  obtain ⟨placed', _, _, isContent⟩ := ends_drawContent drawn
  have symbols : content.sheet.symbols = d.sheet.symbols ++ placed.map (·.symbol) := by
    rw [rest, standing.symbols]
  have same : placed = placed' := by
    apply placedInstances_ext
    · exact List.append_cancel_left (symbols.symm.trans isContent.symbols)
    · rw [placed_of_places places, isContent.resolved]
  refine ⟨content, placed, drawn, symbols, same ▸ isContent.joints, ?_, ?_⟩
  · rw [finished, Sheet.finish_symbols]
  · refine places.imp ?_
    intro i x here
    exact ⟨here.1, fun turn turned => here.standsAs turned⟩

end Drawn

/-- A sheet with a part that is turned and mirrored, and a wire from its pin. -/
def turnedPart : Eagle.Sheet where
  description := none
  plain := []
  instances := [⟨"U1", "G", ⟨101600, 0⟩, false, some ⟨270.0, true, false⟩, [], []⟩]
  buses := []
  nets := [⟨"N", [⟨[⟨⟨76200, -50800⟩, ⟨0, -50800⟩, 1524, 91, none⟩], [], []⟩]⟩]

/-- A document with that sheet. -/
def turnedParts : Eagle.Schematic where
  layers := [(91, "Nets")]
  libraries := [("a", {
    name := "a"
    symbols := [("S", ⟨"S", [.pin ⟨"A", ⟨50800, 25400⟩, none, none, none, none, none⟩]⟩)]
    deviceSets := [⟨"X", "U", [⟨"G", "S", ⟨0, 0⟩⟩], [⟨"", some "P", [⟨"G", "A", "1"⟩]⟩]⟩] })]
  parts := [("U1", ⟨"U1", "a", "X", "", none, none, [], []⟩)]
  sheets := [turnedPart]

open Drafting in
/-- The pin is at the end of the wire, which is counted twice among the joints. -/
theorem turnedPart_meets_wire : ∃ c report, ∃ done : Desk,
    Context.ofDocument turnedParts "demo" "demo" = .ok (c, report) ∧
    Ends (drawSheet c turnedPart)
      ⟨c.newSheet "demo" "demo.kicad_sch" .root ⟨some "A4", ⟨2970000, 2100000⟩⟩, report, []⟩ () done ∧
    ∃ (content : Desk) (placed : List PlacedInstance),
      content.sheet.joints = [⟨76200, 50800⟩, ⟨76200, 50800⟩, ⟨0, 50800⟩] ∧
      List.Forall₂ (fun i x => Eagle.wholeDegreesOf i.rotation = .ok Turn.threeQuarters.degrees ∧
        i.spot .threeQuarters ⟨50800, 25400⟩ = ⟨76200, -50800⟩ ∧ c.StandsAs i .threeQuarters x)
        turnedPart.instances placed := by
  have checked : (Context.ofDocument turnedParts "demo" "demo").toOption.any (fun shared =>
      let before : Desk :=
        ⟨shared.1.newSheet "demo" "demo.kicad_sch" .root ⟨some "A4", ⟨2970000, 2100000⟩⟩, shared.2, []⟩
      ((drawSheet shared.1 turnedPart).outcome before).1.toBool &&
        decide (((drawContent shared.1 turnedPart).outcome before).2.sheet.joints =
            [⟨76200, 50800⟩, ⟨76200, 50800⟩, ⟨0, 50800⟩] ∧
          ∀ i ∈ turnedPart.instances, (shared.1.resolve i).toBool)) = true := by decide +kernel
  obtain ⟨⟨c, report⟩, shared, holds⟩ := (Option.any_eq_true ..).1 checked
  obtain ⟨ran, found⟩ := Bool.and_eq_true_iff.1 holds
  obtain ⟨joints, stand⟩ := of_decide_eq_true found
  have drawn := Ends.of_toBool ran
  obtain ⟨content, placed, isContent, _, _, _, standing⟩ := pins_meet_wires drawn
  have all : c.placeable turnedPart.instances = turnedPart.instances := List.filter_eq_self.2 stand
  have degrees : (Eagle.wholeDegreesOf (some ⟨270.0, true, false⟩)).toOption = some Turn.threeQuarters.degrees := by
    decide +kernel
  have turned := ok_of_toOption degrees
  refine ⟨c, report, _, ok_of_toOption shared, drawn, content, placed, ?_, ?_⟩
  · rw [← joints, isContent]
  · rw [all] at standing
    obtain ⟨x, _, here, none, rfl⟩ := List.forall₂_cons_left_iff.1 standing
    obtain rfl := List.forall₂_nil_left_iff.1 none
    exact .cons ⟨turned, by decide, here.2 _ turned⟩ .nil

end Redraft
