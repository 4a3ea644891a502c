import Mathlib.Data.List.Basic
import Redraft.Proofs.BusJoining

/-!
# Wires drawn back

What joining does to a line hangs on that line and on the buses, not on what
else is on the sheet. Each time a wire is drawn back it carries the labels that
lie on it, whichever net they name.
-/

namespace Redraft
open Joining

/-- A wire drawn back: the segment that it covered, and the point its end goes to. -/
structure Setback where
  wire : Segment
  target : Point
deriving DecidableEq, Repr

/-- Where a label at a point goes when a wire is drawn back. -/
def Setback.carry (p : Point) (b : Setback) : Point := if b.wire.hits p then b.target else p

/-- The label after some wires were drawn back, one after the other. -/
def NetLabel.carried (l : NetLabel) (setbacks : List Setback) : NetLabel :=
  { l with position := setbacks.foldl Setback.carry l.position }

/-- A grid neighbour of the point lies on the segment. -/
def Segment.hasRoom (s : Segment) (p : Point) : Bool := p.gridNeighbours.any s.hits

/-- A line in the turn of a bus: what becomes of it, and how it is drawn back. -/
structure Retreat where
  wire : Line
  setbacks : List Setback

/-- The retreat followed by what the wire does next. -/
def Retreat.andThen (r : Retreat) (next : Line → Retreat) : Retreat :=
  ⟨(next r.wire).wire, r.setbacks ++ (next r.wire).setbacks⟩

namespace Line

/-- The direction from an end of the line to the other one. -/
def heading (l : Line) (e : LineEnd) : Point :=
  ⟨((l.farEnd e).x - (l.atEnd e).x).sign, ((l.farEnd e).y - (l.atEnd e).y).sign⟩

def still (l : Line) : Retreat := ⟨l, []⟩

def pull (l : Line) (e : LineEnd) (target : Point) : Retreat := ⟨l.moveEnd e target, [⟨l.segment, target⟩]⟩

def erase (l : Line) (target : Point) : Retreat := ⟨{ l with erased := true }, [⟨l.segment, target⟩]⟩

/-- An end of a perpendicular wire on the bus goes a grid step toward the other one, if the bus has room. -/
def across (bus : Segment) (e : LineEnd) (l : Line) : Retreat :=
  let touch := l.atEnd e
  if bus.hits touch && bus.hasRoom touch then l.pull e (touch + (l.heading e).scale grid) else l.still

/-- An end of a slanted wire on the bus goes a grid step along both axes, over the whole wire if it is that short. -/
def aslant (bus : Segment) (e : LineEnd) (l : Line) : Retreat :=
  let touch := l.atEnd e
  let far := l.farEnd e
  let target := touch + ⟨stepToward (far.x - touch.x), stepToward (far.y - touch.y)⟩
  if l.erased || !bus.hits touch then l.still else if target = far then l.erase target else l.pull e target

/-- The line is a wire that is drawn. -/
def live (l : Line) : Bool := l.kind = .wire && !l.erased

/-- The turn of a bus for a line. -/
def turn (l : Line) (bus : Segment) : Retreat :=
  let w := l.segment
  if !l.live || w.a = w.b || bus.a = bus.b then l.still
  else if perpendicular w bus then (l.across bus .start).andThen (across bus .stop)
  else if w.isHorizontal || w.isVertical then l.still
  else (l.aslant bus .start).andThen (aslant bus .stop)

/-- The line after the turns of some buses. -/
def after (l : Line) (buses : List Segment) : Line := buses.foldl (fun l bus => (l.turn bus).wire) l

end Line

/-- How numbered lines are drawn back in the turn of a bus. -/
def setbacksIn (bus : Segment) (lines : List (Line × Nat)) : List (Nat × Setback) :=
  lines.flatMap fun (l, number) => (l.turn bus).setbacks.map fun b => (number, b)

/-- How lines are drawn back in the turns of some buses, each time with the number of the line. -/
def setbacksOf : List Segment → List Line → List (Nat × Setback)
  | [], _ => []
  | bus :: buses, lines => setbacksIn bus lines.zipIdx ++ setbacksOf buses (lines.map fun l => (l.turn bus).wire)

/-- How wires are drawn back when all wires are joined to all buses. -/
def Sheet.setbacks (s : Sheet) : List (Nat × Setback) := setbacksOf s.busSegments s.lines

/-! ## Labels -/

theorem NetLabel.carried_append (l : NetLabel) (first second : List Setback) :
    l.carried (first ++ second) = (l.carried first).carried second := by
  simp [carried, List.foldl_append]

theorem NetLabel.map_carried_append (labels : List NetLabel) (first second : List Setback) :
    labels.map (·.carried (first ++ second)) = (labels.map (·.carried first)).map (·.carried second) := by
  rw [List.map_map]
  apply List.map_congr_left
  intro l _
  exact l.carried_append first second

theorem NetLabel.map_carried_nil (labels : List NetLabel) : labels.map (·.carried []) = labels := by
  simp [carried]

theorem Sheet.moveLabels_labels (s : Sheet) (wire : Segment) (target : Point) :
    (s.moveLabels wire target).labels = s.labels.map (·.carried [⟨wire, target⟩]) := by
  simp only [moveLabels]
  apply List.map_congr_left
  intro l _
  simp only [NetLabel.carried, List.foldl_cons, List.foldl_nil, Setback.carry]
  split <;> rfl

/-! ## The turn of one wire -/

namespace Joining
variable {bus : Segment} {j k m : Joining} {number : Nat} {wire : Line} {e : LineEnd} {r : Retreat}

/-- A step of joining does to one line and to all labels what a retreat says. -/
structure Follows (before after : Joining) (number : Nat) (r : Retreat) : Prop where
  lines : after.sheet.lines = before.sheet.lines.set number r.wire
  labels : after.sheet.labels = before.sheet.labels.map (·.carried r.setbacks)

namespace Follows

theorem found (follows : Follows j k number r) (found : j.line? number = some wire) :
    k.line? number = some r.wire := by
  have inside : number < j.sheet.lines.length := (List.getElem?_eq_some_iff.1 found).1
  simp [line?, follows.lines, inside]

theorem still (found : j.line? number = some wire) (same : k.sheet.lines = j.sheet.lines)
    (labels : k.sheet.labels = j.sheet.labels) : Follows j k number wire.still := by
  obtain ⟨inside, here⟩ := List.getElem?_eq_some_iff.1 found
  refine ⟨?_, labels.trans (NetLabel.map_carried_nil _).symm⟩
  rw [same, Line.still, ← here, List.set_getElem_self]

theorem drawBack (found : j.line? number = some wire) (entry : BusEntry) (target : Point) (count : Nat) :
    Follows j ⟨(j.sheet.addEntry entry).drawBack number wire e target, count⟩ number (wire.pull e target) := by
  have here : j.sheet.lines[number]? = some wire := found
  exact ⟨by simp [Sheet.drawBack, Sheet.moveLabels, Sheet.addEntry, Line.pull, List.modify_eq_set_getElem?, here],
    Sheet.moveLabels_labels ..⟩

theorem eraseLine (found : j.line? number = some wire) (entry : BusEntry) (target : Point) (count : Nat) :
    Follows j ⟨((j.sheet.addEntry entry).moveLabels wire.segment target).eraseLine number, count⟩ number
      (wire.erase target) := by
  have here : j.sheet.lines[number]? = some wire := found
  exact ⟨by simp [Sheet.eraseLine, Sheet.moveLabels, Sheet.addEntry, Line.erase, List.modify_eq_set_getElem?, here],
    Sheet.moveLabels_labels ..⟩

theorem andThen {next : Line → Retreat} (first : Follows j k number r) (second : Follows k m number (next r.wire)) :
    Follows j m number (r.andThen next) := by
  constructor
  · rw [second.lines, first.lines, List.set_set]
    rfl
  · rw [second.labels, first.labels, Retreat.andThen, NetLabel.map_carried_append]

end Follows

/-- A perpendicular wire leaves its bus toward its far end. -/
theorem leaving_back (perp : perpendicular wire.segment bus) (touches : bus.hits (wire.atEnd e)) :
    (leaving wire bus e).back = wire.heading e := by
  rcases perpendicular_iff.1 perp with ⟨level, upright⟩ | ⟨upright, level⟩
  · have flat : wire.start.y = wire.stop.y := (Segment.isHorizontal_iff.1 level).1
    have wide : wire.start.x ≠ wire.stop.x := (Segment.isHorizontal_iff.1 level).2
    have here : (wire.atEnd e).x = bus.a.x := ((Segment.hits_of_isVertical upright).1 touches).1
    have side : wire.heading e = ⟨if (wire.farEnd e).x < bus.a.x then -1 else 1, 0⟩ := by
      unfold Line.heading
      ext
      · have apart : (wire.farEnd e).x ≠ (wire.atEnd e).x := by
          cases e
          · exact wide.symm
          · exact wide
        dsimp only
        split
        · exact Int.sign_eq_neg_one_of_neg (by omega)
        · exact Int.sign_eq_one_of_pos (by omega)
      · cases e <;> simp [Line.farEnd, Line.atEnd, flat]
    rw [side, leaving, if_pos flat]
    by_cases toLeft : (wire.farEnd e).x < bus.a.x
    · cases e <;> simp [leaveAcross, toLeft]
    · cases e <;> simp [leaveAcross, toLeft]
  · have tall : wire.start.y ≠ wire.stop.y := (Segment.isVertical_iff.1 upright).2
    have plumb : wire.start.x = wire.stop.x := (Segment.isVertical_iff.1 upright).1
    have here : (wire.atEnd e).y = bus.a.y := ((Segment.hits_of_isHorizontal level).1 touches).1
    rw [leaving, if_neg tall]
    unfold leaveUpright Line.heading
    ext
    · cases e <;> simp [Line.farEnd, Line.atEnd, plumb]
    · have apart : (wire.farEnd e).y ≠ (wire.atEnd e).y := by
        cases e
        · exact tall.symm
        · exact tall
      by_cases above : (wire.farEnd e).y < bus.a.y
      · simp only [above, decide_true, if_true]
        exact (Int.sign_eq_neg_one_of_neg (by omega)).symm
      · simp only [above, decide_false, Bool.false_eq_true, if_false]
        exact (Int.sign_eq_one_of_pos (by omega)).symm

theorem hasRoom_iff (perp : perpendicular wire.segment bus) (touches : bus.hits (wire.atEnd e)) :
    bus.hasRoom (wire.atEnd e) ↔ ¬ bus.Cramped (wire.atEnd e) := by
  have axis : (bus.isHorizontal || bus.isVertical) = true := by
    rcases perpendicular_iff.1 perp with ⟨_, upright⟩ | ⟨_, level⟩
    · simp [upright]
    · simp [level]
  simp [Segment.hasRoom, Segment.Cramped, axis, touches]

theorem across_away (away : ¬ bus.hits (wire.atEnd e)) : wire.across bus e = wire.still := by
  simp [Line.across, away]

theorem joinPerpendicular_follows_away (found : j.line? number = some wire) (away : ¬ bus.hits (wire.atEnd e)) :
    Follows j (joinPerpendicular bus number j e) number (wire.across bus e) := by
  rw [joinPerpendicular_away found away, across_away away]
  exact .still found rfl rfl

/-- Joining an end of a perpendicular wire is a retreat across the bus. -/
theorem joinPerpendicular_follows (found : j.line? number = some wire) (perp : perpendicular wire.segment bus) :
    Follows j (joinPerpendicular bus number j e) number (wire.across bus e) := by
  by_cases touches : bus.hits (wire.atEnd e)
  · have room := hasRoom_iff perp touches
    obtain ⟨cramped, same⟩ | ⟨along, way, joint, same⟩ := joinPerpendicular_leaving (e := e) found perp touches
    · have none : bus.hasRoom (wire.atEnd e) = false := Bool.eq_false_iff.2 fun some => room.1 some cramped
      rw [same, Line.across]
      simp only [none, Bool.and_false, Bool.false_eq_true, if_false]
      exact .still found rfl rfl
    · have some : bus.hasRoom (wire.atEnd e) = true :=
        room.2 fun cramped => ((way.cramped_iff touches).1 cramped).1 joint
      rw [same, Line.across, leaving_back perp touches]
      simp only [touches, some, Bool.and_self, if_true]
      exact .drawBack found ..
  · exact joinPerpendicular_follows_away found touches

/-- Joining an end of a slanted wire is a retreat aslant to the bus. -/
theorem joinSlanted_follows (bus : Segment) (found : j.line? number = some wire) :
    Follows j (joinSlanted bus number j e) number (wire.aslant bus e) := by
  unfold joinSlanted Line.aslant
  simp only [found]
  split
  · exact .still found rfl rfl
  · split
    · exact .eraseLine found ..
    · exact .drawBack found ..

/-- Joining both ends of a perpendicular wire is two retreats. -/
theorem joinEnds_across (found : j.line? number = some wire) (perp : perpendicular wire.segment bus) :
    Follows j ([LineEnd.start, .stop].foldl (joinPerpendicular bus number) j) number
      ((wire.across bus .start).andThen (Line.across bus .stop)) := by
  have first := joinPerpendicular_follows (e := .start) found perp
  apply first.andThen
  by_cases touches : bus.hits (wire.atEnd .start)
  · -- the wire may have been drawn back past its other end, but that end is off the bus
    have stays : (wire.across bus .start).wire.atEnd .stop = wire.farEnd .start := by
      unfold Line.across
      dsimp only
      split <;> rfl
    exact joinPerpendicular_follows_away (first.found found) (stays ▸ far_away perp touches)
  · have same := across_away touches
    rw [same] at first ⊢
    exact joinPerpendicular_follows (first.found found) perp

/-- The turn of a bus for one wire. -/
theorem joinWire_follows (found : j.line? number = some wire) (live : wire.live) (long : bus.a ≠ bus.b) :
    Follows j (joinWire bus j number) number (wire.turn bus) := by
  simp only [joinWire, found]
  unfold Line.turn
  simp only [live, long, Bool.not_true, Bool.false_or, decide_false, Bool.or_false, decide_eq_true_eq,
    Bool.or_eq_true]
  split
  · exact .still found rfl rfl
  · split
    · rename_i perp
      exact joinEnds_across found perp
    · split
      · exact .still found rfl rfl
      · have first := joinSlanted_follows bus (e := .start) found
        exact first.andThen (joinSlanted_follows bus (first.found found))

/-! ## All wires and buses -/

theorem Line.turn_of_dead {l : Line} (dead : l.live = false) (bus : Segment) : l.turn bus = l.still := by
  simp [Line.turn, dead]

/-- The lines after the turn of a bus, and what carries the labels in it. -/
theorem joinWires_follow (long : bus.a ≠ bus.b) (done rest : List Line) (j : Joining)
    (same : j.sheet.lines = done ++ rest) :
    let after := (((rest.zipIdx done.length).filter (·.1.live)).map (·.2)).foldl (joinWire bus) j
    after.sheet.lines = done ++ rest.map (fun l => (l.turn bus).wire) ∧
      after.sheet.labels =
        j.sheet.labels.map (·.carried ((setbacksIn bus (rest.zipIdx done.length)).map (·.2))) := by
  induction rest generalizing done j with
  | nil => exact ⟨same, (NetLabel.map_carried_nil _).symm⟩
  | cons l rest ih =>
    have here : j.line? done.length = some l := by simp [line?, same]
    obtain ⟨k, stepped, follows⟩ : ∃ k, ((((l :: rest).zipIdx done.length).filter (·.1.live)).map (·.2)).foldl
        (joinWire bus) j = (((rest.zipIdx (done.length + 1)).filter (·.1.live)).map (·.2)).foldl (joinWire bus) k ∧
        Follows j k done.length (l.turn bus) := by
      rw [List.zipIdx_cons, List.filter_cons]
      cases live : l.live with
      | true => exact ⟨_, rfl, joinWire_follows here live long⟩
      | false =>
        rw [Line.turn_of_dead live]
        exact ⟨j, rfl, .still here rfl rfl⟩
    have lines : k.sheet.lines = (done ++ [(l.turn bus).wire]) ++ rest := by
      rw [follows.lines, same]
      simp
    have later := ih (done ++ [(l.turn bus).wire]) k lines
    rw [List.length_append, List.length_singleton] at later
    dsimp only at later ⊢
    rw [stepped, later.1, later.2, follows.labels, ← NetLabel.map_carried_append]
    constructor
    · simp
    · simp [setbacksIn, Function.comp_def]

theorem Line.turn_of_short {bus : Segment} (short : bus.a = bus.b) (l : Line) : l.turn bus = l.still := by
  simp [Line.turn, short]

theorem setbacksIn_of_short {bus : Segment} (short : bus.a = bus.b) (lines : List (Line × Nat)) :
    setbacksIn bus lines = [] := by
  simp [setbacksIn, Line.turn_of_short short, Line.still]

end Joining

theorem Sheet.wires_eq (s : Sheet) : s.wires = (s.lines.zipIdx.filter (·.1.live)).map (·.2) := by
  have numbers : List.range s.lines.length = s.lines.zipIdx.map (·.2) := by
    rw [List.zipIdx_map_snd, List.range_eq_range']
  rw [wires, lineNumbers, numbers, List.filter_map]
  congr 1
  apply List.filter_congr
  rintro ⟨l, number⟩ member
  have here : s.lines[number]? = some l := by simpa using List.mem_zipIdx_iff_getElem?.1 member
  simp [here, Line.live]

namespace Joining

theorem joinSegment_follows (j : Joining) (bus : Segment) :
    (j.joinSegment bus).sheet.lines = j.sheet.lines.map (fun l => (l.turn bus).wire) ∧
      (j.joinSegment bus).sheet.labels =
        j.sheet.labels.map (·.carried ((setbacksIn bus j.sheet.lines.zipIdx).map (·.2))) := by
  unfold joinSegment
  split
  · rename_i short
    rw [setbacksIn_of_short short]
    exact ⟨by simp [Line.turn_of_short short, Line.still], (NetLabel.map_carried_nil _).symm⟩
  · rename_i long
    rw [Sheet.wires_eq]
    exact joinWires_follow long [] j.sheet.lines j rfl

theorem joinSegments_follow (buses : List Segment) (j : Joining) :
    (buses.foldl joinSegment j).sheet.lines = j.sheet.lines.map (·.after buses) ∧
      (buses.foldl joinSegment j).sheet.labels =
        j.sheet.labels.map (·.carried ((setbacksOf buses j.sheet.lines).map (·.2))) := by
  induction buses generalizing j with
  | nil => exact ⟨(List.map_id' _).symm, (NetLabel.map_carried_nil _).symm⟩
  | cons bus buses ih =>
    obtain ⟨lines, labels⟩ := joinSegment_follows j bus
    obtain ⟨linesAfter, labelsAfter⟩ := ih (j.joinSegment bus)
    rw [List.foldl_cons, linesAfter, labelsAfter, lines, labels, ← NetLabel.map_carried_append, List.map_map]
    constructor
    · rfl
    · simp [setbacksOf]

end Joining

namespace Sheet

/-- Joining does to each line what it does to that line alone. -/
theorem joinBuses_lines (s : Sheet) : s.joinBuses.sheet.lines = s.lines.map (·.after s.busSegments) := by
  rw [joinBuses_eq]
  exact (joinSegments_follow s.busSegments ⟨s, 0⟩).1

/-- Joining carries the labels with the wires that are drawn back, and no further. -/
theorem joinBuses_labels (s : Sheet) :
    s.joinBuses.sheet.labels = s.labels.map (·.carried (s.setbacks.map (·.2))) := by
  rw [joinBuses_eq]
  exact (joinSegments_follow s.busSegments ⟨s, 0⟩).2

end Sheet

/-! ## Single setbacks -/

namespace Line
variable {l : Line} {bus : Segment} {e : LineEnd} {b : Setback}

theorem mem_across (member : b ∈ (l.across bus e).setbacks) : b.wire = l.segment ∧ bus.hits (l.atEnd e) := by
  simp only [across] at member
  split at member
  · rename_i free
    obtain rfl := List.mem_singleton.1 member
    exact ⟨rfl, (Bool.and_eq_true_iff.1 free).1⟩
  · cases member

theorem mem_aslant (member : b ∈ (l.aslant bus e).setbacks) : b.wire = l.segment ∧ bus.hits (l.atEnd e) := by
  simp only [aslant] at member
  split at member
  · cases member
  · rename_i touching
    have touches : bus.hits (l.atEnd e) := by
      simp only [Bool.or_eq_true, Bool.not_eq_true', not_or, Bool.not_eq_false] at touching
      exact touching.2
    split at member
    · obtain rfl := List.mem_singleton.1 member
      exact ⟨rfl, touches⟩
    · obtain rfl := List.mem_singleton.1 member
      exact ⟨rfl, touches⟩

/-- Only a wire is drawn back in the turn of a bus, and one of its ends is on the bus then. -/
theorem mem_turn (member : b ∈ (l.turn bus).setbacks) :
    l.kind = .wire ∧ (bus.hits b.wire.a ∨ bus.hits b.wire.b) := by
  have touch {w : Line} {e : LineEnd} (back : b.wire = w.segment ∧ bus.hits (w.atEnd e)) :
      bus.hits b.wire.a ∨ bus.hits b.wire.b := by
    obtain ⟨same, hit⟩ := back
    rw [same]
    cases e
    · exact .inl hit
    · exact .inr hit
  simp only [turn] at member
  split at member
  · cases member
  · rename_i skip
    have kind : l.kind = .wire := by
      simp only [live, Bool.or_eq_true, not_or, Bool.not_eq_true', Bool.not_eq_false, Bool.and_eq_true,
        decide_eq_true_eq] at skip
      exact skip.1.1.1
    refine ⟨kind, ?_⟩
    split at member
    · rcases List.mem_append.1 member with first | second
      · exact touch (mem_across first)
      · exact touch (mem_across second)
    · split at member
      · cases member
      · rcases List.mem_append.1 member with first | second
        · exact touch (mem_aslant first)
        · exact touch (mem_aslant second)

theorem across_kind (l : Line) (bus : Segment) (e : LineEnd) : (l.across bus e).wire.kind = l.kind := by
  simp only [across]
  split
  · cases e <;> rfl
  · rfl

theorem aslant_kind (l : Line) (bus : Segment) (e : LineEnd) : (l.aslant bus e).wire.kind = l.kind := by
  simp only [aslant]
  split
  · rfl
  · split
    · rfl
    · cases e <;> rfl

theorem turn_kind (l : Line) (bus : Segment) : (l.turn bus).wire.kind = l.kind := by
  simp only [turn]
  split
  · rfl
  · split
    · exact (across_kind ..).trans (across_kind ..)
    · split
      · rfl
      · exact (aslant_kind ..).trans (aslant_kind ..)

theorem after_kind (l : Line) (buses : List Segment) : (l.after buses).kind = l.kind := by
  induction buses generalizing l with
  | nil => rfl
  | cons bus buses ih => exact (ih _).trans (l.turn_kind bus)

end Line

/-- A setback is that of a line in the turn of some bus, after the turns of those before it. -/
theorem mem_setbacksOf {buses : List Segment} {lines : List Line} {number : Nat} {b : Setback}
    (member : (number, b) ∈ setbacksOf buses lines) : ∃ l before bus after,
      lines[number]? = some l ∧ buses = before ++ bus :: after ∧ b ∈ ((l.after before).turn bus).setbacks := by
  induction buses generalizing lines with
  | nil => cases member
  | cons bus buses ih =>
    rcases List.mem_append.1 member with here | later
    · obtain ⟨⟨l, _⟩, numbered, isHere⟩ := List.mem_flatMap.1 here
      obtain ⟨_, isBack, same⟩ := List.mem_map.1 isHere
      cases same
      exact ⟨l, [], bus, buses, by simpa using List.mem_zipIdx_iff_getElem?.1 numbered, rfl, isBack⟩
    · obtain ⟨turned, before, next, after, found, split, isBack⟩ := ih later
      obtain ⟨l, isLine, rfl⟩ := Option.map_eq_some_iff.1 ((List.getElem?_map ..).symm.trans found)
      exact ⟨l, bus :: before, next, after, isLine, by rw [split]; rfl, isBack⟩

end Redraft
