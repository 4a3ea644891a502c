import Mathlib.Tactic.Ring
import Redraft.Proofs.BusEntries

/-!
# Wires that are shortened

A wire along an axis is never erased, and each bus draws one end of it back by a
whole grid step, however long the wire is. The wire stays a part of what it was
as long as the steps together are shorter than it; the next step makes a point
of it or turns it around.
-/

namespace Redraft
open Joining

/-- A step of one unit along an axis. -/
def Point.IsUnit (u : Point) : Prop := (u.x = 0 ∧ (u.y = 1 ∨ u.y = -1)) ∨ (u.y = 0 ∧ (u.x = 1 ∨ u.x = -1))

namespace Line

/-- The line runs along an axis. -/
def isAxial (l : Line) : Bool := l.segment.isHorizontal || l.segment.isVertical

/-- The length of a line along an axis. -/
def axisLength (l : Line) : Nat := (l.stop.x - l.start.x).natAbs + (l.stop.y - l.start.y).natAbs

/-- The line is no point, and runs in the direction of another one within it. -/
structure IsPartOf (w l : Line) : Prop where
  long : w.start ≠ w.stop
  direction : w.heading .start = l.heading .start
  inside : l.segment.hits w.start ∧ l.segment.hits w.stop

/-- How often the line is drawn back in the turns of some buses. -/
def drawBacks (l : Line) : List Segment → Nat
  | [] => 0
  | bus :: buses => (l.turn bus).setbacks.length + (l.turn bus).wire.drawBacks buses

/-- The line is drawn, and is another one with some length taken from its ends. -/
structure Tucked (l w : Line) (taken : Int) : Prop where
  live : w.live
  ends : ∃ first last : Int, 0 ≤ first ∧ 0 ≤ last ∧ first + last = taken ∧
    w.start = l.start + (l.heading .start).scale first ∧ w.stop = l.stop - (l.heading .start).scale last

variable {l w : Line} {bus : Segment} {e : LineEnd} {taken : Int}

theorem isAxial_iff : l.isAxial ↔
    (l.start.y = l.stop.y ∧ l.start.x ≠ l.stop.x) ∨ (l.start.x = l.stop.x ∧ l.start.y ≠ l.stop.y) := by
  rw [isAxial, Bool.or_eq_true, Segment.isHorizontal_iff, Segment.isVertical_iff]
  rfl

/-- A line along an axis runs its length in its direction. -/
theorem stop_eq (axial : l.isAxial) : (l.heading .start).IsUnit ∧
    l.stop = l.start + (l.heading .start).scale l.axisLength := by
  have whole (n : Int) : (n.natAbs : Int) * n.sign = n := by rw [Int.mul_comm, Int.sign_mul_natAbs]
  have unit {n : Int} (apart : n ≠ 0) : n.sign = 1 ∨ n.sign = -1 := by
    rcases Int.lt_or_gt_of_ne apart with below | above
    · exact .inr (Int.sign_eq_neg_one_of_neg below)
    · exact .inl (Int.sign_eq_one_of_pos above)
  simp only [heading, atEnd, farEnd, axisLength, Point.IsUnit]
  rcases isAxial_iff.1 axial with ⟨level, wide⟩ | ⟨upright, tall⟩
  · have flat : l.stop.y - l.start.y = 0 := by omega
    have spread : l.stop.x - l.start.x ≠ 0 := by omega
    refine ⟨.inr ⟨by rw [flat]; rfl, unit spread⟩, ?_⟩
    ext
    · simp only [flat, Int.natAbs_zero, Nat.add_zero, Point.add_x, Point.scale, whole]; omega
    · simp only [flat, Int.sign_zero, Int.mul_zero, Point.add_y, Point.scale]; omega
  · have plumb : l.stop.x - l.start.x = 0 := by omega
    have spread : l.stop.y - l.start.y ≠ 0 := by omega
    refine ⟨.inl ⟨by rw [plumb]; rfl, unit spread⟩, ?_⟩
    ext
    · simp only [plumb, Int.sign_zero, Int.mul_zero, Point.add_x, Point.scale]; omega
    · simp only [plumb, Int.natAbs_zero, Nat.zero_add, Point.add_y, Point.scale, whole]; omega

/-- A wire along an axis is left alone in the turn of a bus, or one end of it is drawn back a grid step. -/
theorem turn_axial (axial : l.isAxial) (bus : Segment) :
    l.turn bus = l.still ∨ ∃ e, l.turn bus = l.pull e (l.atEnd e + (l.heading e).scale grid) := by
  have across_cases (w : Line) (e : LineEnd) :
      w.across bus e = w.still ∨ w.across bus e = w.pull e (w.atEnd e + (w.heading e).scale grid) := by
    simp only [across]
    split
    · exact .inr rfl
    · exact .inl rfl
  simp only [turn]
  split
  · exact .inl rfl
  · split
    · rename_i perp
      by_cases touches : bus.hits (l.atEnd .start)
      · have far : ¬ bus.hits (l.farEnd .start) := far_away perp touches
        change ¬ bus.hits (l.atEnd .stop) at far
        have away : ¬ bus.hits ((l.across bus .start).wire.atEnd .stop) := by rwa [across_atEnd_of_away far]
        rcases across_cases l .start with same | same
        · rw [Retreat.andThen, across_away away, same]
          exact .inl rfl
        · rw [Retreat.andThen, across_away away, same]
          exact .inr ⟨.start, rfl⟩
      · rw [across_away touches]
        exact (across_cases l .stop).imp_right fun same => ⟨.stop, same⟩
    · split
      · exact .inl rfl
      · rename_i slanted
        exact absurd axial slanted

/-- What is left of a line along an axis runs the rest of its length. -/
theorem Tucked.run (tucked : l.Tucked w taken) (axial : l.isAxial) :
    w.stop = w.start + (l.heading .start).scale (l.axisLength - taken) := by
  obtain ⟨first, last, _, _, total, start, stop⟩ := tucked.ends
  rw [start, stop, (stop_eq axial).2]
  ext
  · simp only [Point.add_x, Point.sub_x, Point.scale, ← total]; ring
  · simp only [Point.add_y, Point.sub_y, Point.scale, ← total]; ring

/-- A run in steps of a unit has the direction of that unit exactly if it goes on. -/
theorem heading_iff {u : Point} (unit : u.IsUnit) {n : Int} (run : w.stop = w.start + u.scale n) :
    w.heading .start = u ↔ 0 < n := by
  have way : w.heading .start = ⟨(n * u.x).sign, (n * u.y).sign⟩ := by
    have x : w.stop.x - w.start.x = n * u.x := by rw [run, Point.add_x]; exact add_sub_cancel_left ..
    have y : w.stop.y - w.start.y = n * u.y := by rw [run, Point.add_y]; exact add_sub_cancel_left ..
    simp only [heading, atEnd, farEnd, x, y]
  rw [way]
  obtain ⟨x, y⟩ := u
  rcases unit with ⟨rfl, rfl | rfl⟩ | ⟨rfl, rfl | rfl⟩
  · simp
  · simp
  · simp
  · simp

theorem heading_stop (w : Line) : w.heading .stop = -w.heading .start := by
  ext
  · simp only [heading, atEnd, farEnd, Point.neg_x, ← Int.sign_neg, Int.neg_sub]
  · simp only [heading, atEnd, farEnd, Point.neg_y, ← Int.sign_neg, Int.neg_sub]

theorem isAxial_of_heading (unit : (w.heading .start).IsUnit) : w.isAxial := by
  rw [isAxial_iff]
  simp only [heading, atEnd, farEnd, Point.IsUnit] at unit
  rcases unit with ⟨plumb, spread⟩ | ⟨flat, spread⟩
  · have same := Int.sign_eq_zero_iff_zero.1 plumb
    refine .inr ⟨by omega, fun level => ?_⟩
    simp [level] at spread
  · have same := Int.sign_eq_zero_iff_zero.1 flat
    refine .inl ⟨by omega, fun upright => ?_⟩
    simp [upright] at spread

/-- A line along an axis is on every point from its start to its length. -/
theorem hits_along (axial : l.isAxial) {n : Int} (first : 0 ≤ n) (last : n ≤ l.axisLength) :
    l.segment.hits (l.start + (l.heading .start).scale n) := by
  obtain ⟨unit, run⟩ := stop_eq axial
  have x : l.stop.x = l.start.x + l.axisLength * (l.heading .start).x := congrArg Point.x run
  have y : l.stop.y = l.start.y + l.axisLength * (l.heading .start).y := congrArg Point.y run
  revert unit x y
  generalize l.heading .start = u
  obtain ⟨ux, uy⟩ := u
  intro unit x y
  rcases Bool.or_eq_true_iff.1 axial with level | upright
  · obtain ⟨flat, wide⟩ : l.start.y = l.stop.y ∧ l.start.x ≠ l.stop.x := Segment.isHorizontal_iff.1 level
    rw [Segment.hits_of_isHorizontal level]
    simp only [segment, Point.add_x, Point.add_y, Point.scale] at x y ⊢
    rcases unit with ⟨rfl, _⟩ | ⟨rfl, rfl | rfl⟩
    · omega
    · omega
    · omega
  · obtain ⟨plumb, tall⟩ : l.start.x = l.stop.x ∧ l.start.y ≠ l.stop.y := Segment.isVertical_iff.1 upright
    rw [Segment.hits_of_isVertical upright]
    simp only [segment, Point.add_x, Point.add_y, Point.scale] at x y ⊢
    rcases unit with ⟨rfl, rfl | rfl⟩ | ⟨rfl, _⟩
    · omega
    · omega
    · omega

/-- What is left of a line along an axis is part of it exactly if less than all was taken. -/
theorem Tucked.isPartOf_iff (tucked : l.Tucked w taken) (axial : l.isAxial) :
    w.IsPartOf l ↔ taken < l.axisLength := by
  have unit := (stop_eq axial).1
  have onward := heading_iff unit (tucked.run axial)
  constructor
  · intro part
    have rest := onward.1 part.direction
    omega
  · intro short
    have direction : w.heading .start = l.heading .start := onward.2 (by omega)
    obtain ⟨first, last, fromStart, fromStop, total, start, stop⟩ := tucked.ends
    have stop' : w.stop = l.start + (l.heading .start).scale (l.axisLength - last) := by
      rw [stop, (stop_eq axial).2]
      ext
      · simp only [Point.add_x, Point.sub_x, Point.scale]; ring
      · simp only [Point.add_y, Point.sub_y, Point.scale]; ring
    refine ⟨fun same => ?_, direction, ?_, ?_⟩
    · rw [← direction] at unit
      simp [Point.IsUnit, heading, atEnd, farEnd, same] at unit
    · rw [start]
      exact hits_along axial fromStart (by omega)
    · rw [stop']
      exact hits_along axial (by omega) (by omega)

/-- In the turn of a bus what is left of a wire along an axis stays, or a grid step more is taken. -/
theorem Tucked.turn (tucked : l.Tucked w taken) (axial : l.isAxial) (short : taken < l.axisLength) (bus : Segment) :
    w.turn bus = w.still ∨ (w.turn bus).setbacks.length = 1 ∧ l.Tucked (w.turn bus).wire (taken + grid) := by
  have unit := (stop_eq axial).1
  have direction : w.heading .start = l.heading .start := (heading_iff unit (tucked.run axial)).2 (by omega)
  have wAxial : w.isAxial := isAxial_of_heading (direction ▸ unit)
  refine (turn_axial wAxial bus).imp_right ?_
  rintro ⟨e, pulled⟩
  rw [pulled]
  obtain ⟨first, last, fromStart, fromStop, total, start, stop⟩ := tucked.ends
  have step := grid_pos
  cases e with
  | start =>
    refine ⟨rfl, tucked.live, first + grid, last, by omega, fromStop, by omega, ?_, stop⟩
    simp only [pull, moveEnd, atEnd, direction, start]
    ext
    · simp only [Point.add_x, Point.scale]; ring
    · simp only [Point.add_y, Point.scale]; ring
  | stop =>
    refine ⟨rfl, tucked.live, first, last + grid, fromStart, by omega, by omega, start, ?_⟩
    simp only [pull, moveEnd, atEnd, heading_stop, direction, stop]
    ext
    · simp only [Point.add_x, Point.sub_x, Point.neg_x, Point.scale]; ring
    · simp only [Point.add_y, Point.sub_y, Point.neg_y, Point.scale]; ring

/-- All along, what is left of a wire along an axis is part of it exactly if less than all is taken. -/
theorem isPartOf_after_iff (axial : l.isAxial) (buses : List Segment) (tucked : l.Tucked w taken)
    (short : taken < l.axisLength) : (∀ k, (w.after (buses.take k)).IsPartOf l) ↔
      taken + w.drawBacks buses * grid < l.axisLength := by
  induction buses generalizing w taken with
  | nil => simpa [after, drawBacks, short] using (tucked.isPartOf_iff axial).2 short
  | cons bus buses ih =>
    have step := grid_pos
    have split : (∀ k, (w.after ((bus :: buses).take k)).IsPartOf l) ↔
        ∀ k, ((w.turn bus).wire.after (buses.take k)).IsPartOf l := by
      refine ⟨fun all k => all (k + 1), fun all k => ?_⟩
      cases k with
      | zero => exact (tucked.isPartOf_iff axial).2 short
      | succ k => exact all k
    rw [split, drawBacks]
    rcases tucked.turn axial short bus with same | ⟨one, tucked'⟩
    · rw [same]
      simpa [still] using ih tucked short
    · rw [one]
      by_cases fits : taken + grid < l.axisLength
      · rw [ih tucked' fits]
        push_cast
        rw [Int.add_mul, Int.one_mul, Int.add_assoc]
      · -- the step goes over the whole rest, at once or past the other end
        have overshoots : ¬ (w.turn bus).wire.IsPartOf l := fun part => fits ((tucked'.isPartOf_iff axial).1 part)
        refine iff_of_false (fun all => overshoots (all 0)) ?_
        push_cast
        have rest := Int.mul_nonneg (Int.natCast_nonneg ((w.turn bus).wire.drawBacks buses)) (Int.le_of_lt step)
        rw [Int.add_mul, Int.one_mul]
        omega

theorem Tucked.after (axial : l.isAxial) (buses : List Segment) (tucked : l.Tucked w taken)
    (short : taken + w.drawBacks buses * grid < l.axisLength) :
    l.Tucked (w.after buses) (taken + w.drawBacks buses * grid) := by
  induction buses generalizing w taken with
  | nil => simpa [Line.after, drawBacks] using tucked
  | cons bus buses ih =>
    have step := grid_pos
    have fits : taken < l.axisLength := by
      have rest := Int.mul_nonneg (Int.natCast_nonneg (w.drawBacks (bus :: buses))) (Int.le_of_lt step)
      omega
    rcases tucked.turn axial fits bus with same | ⟨one, tucked'⟩
    · rw [drawBacks, same] at short ⊢
      rw [Line.after, List.foldl_cons, same]
      simp only [still, List.length_nil, Nat.zero_add] at short ⊢
      exact ih tucked short
    · have sum : taken + w.drawBacks (bus :: buses) * grid =
          taken + grid + (w.turn bus).wire.drawBacks buses * grid := by
        rw [drawBacks, one]
        push_cast
        ring
      rw [sum] at short ⊢
      exact ih tucked' short

theorem axisLength_of_run {u : Point} (unit : u.IsUnit) {n : Int} (onward : 0 < n)
    (run : w.stop = w.start + u.scale n) : (w.axisLength : Int) = n := by
  obtain ⟨x, y⟩ := u
  rw [axisLength, run]
  simp only [Point.add_x, Point.add_y, Point.scale]
  rcases unit with ⟨rfl, rfl | rfl⟩ | ⟨rfl, rfl | rfl⟩
  · omega
  · omega
  · omega
  · omega

theorem tucked_self (live : l.live) : l.Tucked l 0 := by
  refine ⟨live, 0, 0, Int.le_refl _, Int.le_refl _, rfl, ?_, ?_⟩
  · ext <;> simp [Point.scale]
  · ext <;> simp [Point.scale]

end Line

namespace Sheet

/-- A wire along an axis is never erased. Through all turns of the buses it is a part of what it was
    exactly if it is drawn back by less than its length in all, and is shorter by just that then. -/
theorem joinBuses_shortens {s : Sheet} {n : Nat} {l : Line} (isWire : n ∈ s.wires) (found : s.lines[n]? = some l)
    (axial : l.isAxial) : ∃ l', s.joinBuses.sheet.lines[n]? = some l' ∧ l'.live ∧
      ((∀ k, ∃ w, s.wireBefore? n k = some w ∧ w.IsPartOf l) ↔
        l.drawBacks s.busSegments * grid < l.axisLength) ∧
      (l.drawBacks s.busSegments * grid < l.axisLength →
        l'.IsPartOf l ∧ (l'.axisLength : Int) = l.axisLength - l.drawBacks s.busSegments * grid) := by
  have live : l.live := (mem_wires_iff_live found).1 isWire
  have before (k : Nat) : s.wireBefore? n k = some (l.after (s.busSegments.take k)) := line?_joinedIn_of_line found
  have final : s.joinBuses.sheet.lines[n]? = some (l.after s.busSegments) := by simp [joinBuses_lines, found]
  have long : (0 : Int) < l.axisLength := by
    have part := Line.isAxial_iff.1 axial
    simp only [Line.axisLength]
    omega
  have all := Line.isPartOf_after_iff axial s.busSegments (Line.tucked_self live) long
  rw [Int.zero_add] at all
  refine ⟨_, final, ?_, ?_, fun short => ?_⟩
  · obtain ⟨w, here, since⟩ := wireSince isWire found s.busSegments.length
    obtain rfl : l.after s.busSegments = w := by
      rw [before, List.take_length] at here
      exact Option.some.inj here
    refine Line.live_iff.2 ⟨since.kind, ?_⟩
    rcases Line.isAxial_iff.1 axial with ⟨level, _⟩ | ⟨upright, _⟩
    · exact (since.level level).2
    · exact (since.upright upright).2
  · simpa only [before, Option.some.injEq, exists_eq_left'] using all
  · have tucked := (Line.tucked_self live).after axial s.busSegments (by rwa [Int.zero_add])
    rw [Int.zero_add] at tucked
    refine ⟨(tucked.isPartOf_iff axial).2 short, ?_⟩
    exact Line.axisLength_of_run (Line.stop_eq axial).1 (by omega) (tucked.run axial)

theorem betweenBuses_shortens :
    let wire : Line := { kind := .wire, start := ⟨0, mils 500⟩, stop := ⟨mils 1000, mils 500⟩ }
    2 ∈ betweenBuses.wires ∧ betweenBuses.lines[2]? = some wire ∧ wire.isAxial ∧
      wire.drawBacks betweenBuses.busSegments = 2 ∧
      ∃ l', betweenBuses.joinBuses.sheet.lines[2]? = some l' ∧ l'.IsPartOf wire ∧ l'.axisLength = mils 800 := by
  intro wire
  have isWire : 2 ∈ betweenBuses.wires := by decide +kernel
  have found : betweenBuses.lines[2]? = some wire := rfl
  have axial : wire.isAxial := by decide
  have draws : wire.drawBacks betweenBuses.busSegments = 2 := by decide +kernel
  obtain ⟨l', ended, _, _, shortened⟩ := joinBuses_shortens isWire found axial
  rw [draws] at shortened
  obtain ⟨part, length⟩ := shortened (by decide +kernel)
  exact ⟨isWire, found, axial, draws, l', ended, part, length.trans (by decide +kernel)⟩

/-- Wires of one grid step, and of half of one, that end on a bus. -/
def shortWires : Sheet := ofLines [
  { kind := .bus, start := ⟨0, 0⟩, stop := ⟨0, mils 1000⟩ },
  { kind := .wire, start := ⟨0, mils 500⟩, stop := ⟨mils 100, mils 500⟩ },
  { kind := .wire, start := ⟨0, mils 700⟩, stop := ⟨mils 50, mils 700⟩ }]

/-- The first wire becomes a point, and the second one is turned around beside what it was. -/
theorem shortWires_joined : shortWires.joinBuses.sheet.lines = [
    { kind := .bus, start := ⟨0, 0⟩, stop := ⟨0, mils 1000⟩ },
    { kind := .wire, start := ⟨mils 100, mils 500⟩, stop := ⟨mils 100, mils 500⟩ },
    { kind := .wire, start := ⟨mils 100, mils 700⟩, stop := ⟨mils 50, mils 700⟩ }] := by
  decide +kernel

theorem not_all_wires_shortened : ¬ ∀ (s : Sheet) (n : Nat) (l l' : Line), n ∈ s.wires → s.lines[n]? = some l →
    l.isAxial → s.joinBuses.sheet.lines[n]? = some l' → l'.erased ∨ l'.IsPartOf l := by
  intro claim
  have point := claim shortWires 1 { kind := .wire, start := ⟨0, mils 500⟩, stop := ⟨mils 100, mils 500⟩ }
    { kind := .wire, start := ⟨mils 100, mils 500⟩, stop := ⟨mils 100, mils 500⟩ } (by decide +kernel) rfl
    (by decide) (by rw [shortWires_joined]; rfl)
  rcases point with erased | part
  · exact absurd erased (by decide)
  · exact part.long rfl

/-- Without notes no end is marked. -/
theorem not_marksPoint {s : Sheet} {p : Point} (none : s.joinBuses.sheet.notes = []) :
    ¬ s.MarksPoint s.joinBuses.sheet p := by
  rintro ⟨note, new, _⟩
  rw [none] at new
  simp at new

/-- A wire of one grid step between two buses: the first entry takes all of it. -/
def closeBuses : Sheet := ofLines [
  { kind := .bus, start := ⟨0, 0⟩, stop := ⟨0, mils 1000⟩ },
  { kind := .bus, start := ⟨mils 100, 0⟩, stop := ⟨mils 100, mils 1000⟩ },
  { kind := .wire, start := ⟨0, mils 500⟩, stop := ⟨mils 100, mils 500⟩ }]

/-- The end of a wire that has become a point is neither joined nor marked. -/
theorem closeBuses_neither : ∃ (wire final : Line), 2 ∈ closeBuses.wires ∧
    closeBuses.lines[2]? = some wire ∧ closeBuses.joinBuses.sheet.lines[2]? = some final ∧
    (∃ bus, closeBuses.EndsOn wire .stop bus) ∧ ¬ closeBuses.Joined wire final .stop ∧
    ¬ closeBuses.MarksPoint closeBuses.joinBuses.sheet (wire.atEnd .stop) := by
  have endsOn : closeBuses.EndsOn { kind := .wire, start := ⟨0, mils 500⟩, stop := ⟨mils 100, mils 500⟩ } .stop
      ⟨⟨mils 100, 0⟩, ⟨mils 100, mils 1000⟩⟩ := ⟨by decide +kernel, ⟨by decide, by decide, .inl rfl⟩, rfl⟩
  refine ⟨_, { kind := .wire, start := ⟨mils 100, mils 500⟩, stop := ⟨mils 100, mils 500⟩ }, by decide +kernel, rfl,
    by decide +kernel, ⟨_, endsOn⟩, ?_, not_marksPoint (by decide +kernel)⟩
  rintro ⟨bus, ⟨isBus, _, touches⟩, entry, new, p, hit, runs⟩
  have buses : closeBuses.busSegments =
    [⟨⟨0, 0⟩, ⟨0, mils 1000⟩⟩, ⟨⟨mils 100, 0⟩, ⟨mils 100, mils 1000⟩⟩] := by decide +kernel
  have entries : closeBuses.joinBuses.sheet.entries = [⟨⟨0, mils 400⟩, ⟨mils 100, mils 100⟩⟩] := by
    decide +kernel
  rw [buses] at isBus
  rw [entries] at new
  obtain rfl := List.mem_singleton.1 new
  simp only [List.mem_cons, List.not_mem_nil, or_false] at isBus
  rcases isBus with rfl | rfl
  · exact absurd touches (by decide)
  · rcases runs with (⟨rfl, _⟩ | ⟨here, _⟩) | ⟨erased, _⟩
    · exact absurd hit (by decide)
    · exact absurd here (by decide)
    · exact absurd erased (by decide)

/-- A wire across two buses a grid step apart: its end is drawn back from the first bus onto the second. -/
def nearBuses : Sheet := ofLines [
  { kind := .bus, start := ⟨0, 0⟩, stop := ⟨0, mils 1000⟩ },
  { kind := .bus, start := ⟨mils 100, 0⟩, stop := ⟨mils 100, mils 1000⟩ },
  { kind := .wire, start := ⟨0, mils 500⟩, stop := ⟨mils 900, mils 500⟩ }]

/-- An end that moves twice is neither joined to its first bus nor marked there. -/
theorem nearBuses_neither : ∃ (wire final : Line), 2 ∈ nearBuses.wires ∧
    nearBuses.lines[2]? = some wire ∧ nearBuses.joinBuses.sheet.lines[2]? = some final ∧
    (∃ bus, nearBuses.EndsOn wire .start bus) ∧ ¬ nearBuses.Joined wire final .start ∧
    ¬ nearBuses.MarksPoint nearBuses.joinBuses.sheet (wire.atEnd .start) := by
  have endsOn : nearBuses.EndsOn { kind := .wire, start := ⟨0, mils 500⟩, stop := ⟨mils 900, mils 500⟩ } .start
      ⟨⟨0, 0⟩, ⟨0, mils 1000⟩⟩ := ⟨by decide +kernel, ⟨by decide, by decide, .inl rfl⟩, rfl⟩
  refine ⟨_, { kind := .wire, start := ⟨mils 200, mils 500⟩, stop := ⟨mils 900, mils 500⟩ }, by decide +kernel, rfl,
    by decide +kernel, ⟨_, endsOn⟩, ?_, not_marksPoint (by decide +kernel)⟩
  rintro ⟨bus, ⟨isBus, _, touches⟩, entry, new, p, hit, runs⟩
  have buses : nearBuses.busSegments =
    [⟨⟨0, 0⟩, ⟨0, mils 1000⟩⟩, ⟨⟨mils 100, 0⟩, ⟨mils 100, mils 1000⟩⟩] := by decide +kernel
  have entries : nearBuses.joinBuses.sheet.entries =
    [⟨⟨0, mils 400⟩, ⟨mils 100, mils 100⟩⟩, ⟨⟨mils 100, mils 400⟩, ⟨mils 100, mils 100⟩⟩] := by decide +kernel
  have new := List.mem_of_mem_drop new
  rw [buses] at isBus
  rw [entries] at new
  simp only [List.mem_cons, List.not_mem_nil, or_false] at isBus new
  have runs := runs.resolve_right fun ⟨erased, _⟩ => absurd erased (by decide)
  rcases isBus with rfl | rfl
  · -- the second entry runs to the end, but not from the bus that the end was drawn on
    rcases new with rfl | rfl
    · rcases runs with ⟨_, there⟩ | ⟨there, _⟩
      · exact absurd there (by decide)
      · exact absurd there (by decide)
    · rcases runs with ⟨rfl, _⟩ | ⟨there, _⟩
      · exact absurd hit (by decide)
      · exact absurd there (by decide)
  · exact absurd touches (by decide)

end Sheet

end Redraft
