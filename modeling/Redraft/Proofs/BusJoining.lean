import Redraft.Sheet.BusJoin

/-!
# What joining wires to buses changes

Joining changes lines and the places of labels, adds diagonal entries, and adds
markers where a bus is too short for an entry. Of the lines only the wire whose
turn it is changes, so the buses themselves stay.
-/

namespace Redraft

/-- The label at the origin: all of it but its place. -/
def NetLabel.unplaced (l : NetLabel) : NetLabel := { l with position := Point.origin }

/-- The entry runs between two points. -/
def BusEntry.Joins (entry : BusEntry) (p q : Point) : Prop :=
  (entry.position = p ∧ entry.position + entry.size = q) ∨ (entry.position = q ∧ entry.position + entry.size = p)

/-- The point is a grid step from another one along both axes. -/
def Point.IsDiagonal (p q : Point) : Prop :=
  (p.x - q.x = grid ∨ p.x - q.x = -grid) ∧ (p.y - q.y = grid ∨ p.y - q.y = -grid)

/-- The points a grid step along an axis from a point. -/
def Point.gridNeighbours (p : Point) : List Point :=
  [p + ⟨grid, 0⟩, p + ⟨-grid, 0⟩, p + ⟨0, grid⟩, p + ⟨0, -grid⟩]

/-- The point lies on the segment, which runs along an axis but ends less than a
    grid step from the point on both sides. -/
def Segment.Cramped (s : Segment) (p : Point) : Prop :=
  (s.isHorizontal || s.isVertical) ∧ s.hits p ∧ ∀ q ∈ p.gridNeighbours, ¬ s.hits q

theorem grid_pos : 0 < grid := by decide

theorem Point.neg_mk (x y : Int) : -(⟨x, y⟩ : Point) = ⟨-x, -y⟩ := rfl

theorem Point.isDiagonal_comm {p q : Point} (diagonal : p.IsDiagonal q) : q.IsDiagonal p := by
  obtain ⟨x, y⟩ := diagonal
  exact ⟨by omega, by omega⟩

theorem BusEntry.joins_comm {entry : BusEntry} {p q : Point} (joins : entry.Joins p q) : entry.Joins q p :=
  joins.symm

theorem BusEntry.between_joins (p q : Point) : (BusEntry.between p q).Joins p q := by
  have there (a b : Point) : a + (b - a) = b := by
    ext
    · simp only [Point.add_x, Point.sub_x]; omega
    · simp only [Point.add_y, Point.sub_y]; omega
  unfold BusEntry.between
  split
  · exact .inr ⟨rfl, there q p⟩
  · exact .inl ⟨rfl, there p q⟩

namespace Sheet

/-- A sheet before and after wires are joined to some buses. -/
structure JoinedTo (buses : List Segment) (before after : Sheet) : Prop where
  rest : after = { before with
    lines := after.lines, labels := after.labels, entries := after.entries, notes := after.notes }
  labels : after.labels.map NetLabel.unplaced = before.labels.map NetLabel.unplaced
  entries : ∃ added, after.entries = before.entries ++ added ∧
    ∀ entry ∈ added, ∃ p q : Point, p.IsDiagonal q ∧ entry.Joins p q
  markers : ∃ added, after.notes = before.notes ++ added ∧
    ∀ note ∈ added, note.isMarker ∧ note.text = entryNeeded ∧ ∃ bus ∈ buses, bus.Cramped note.position

namespace JoinedTo
variable {buses : List Segment} {a b c : Sheet}

theorem refl (s : Sheet) : s.JoinedTo buses s := ⟨rfl, rfl, ⟨[], by simp⟩, ⟨[], by simp⟩⟩

theorem trans (first : a.JoinedTo buses b) (second : b.JoinedTo buses c) : a.JoinedTo buses c := by
  obtain ⟨entries, entriesEq, diagonal⟩ := first.entries
  obtain ⟨moreEntries, moreEntriesEq, moreDiagonal⟩ := second.entries
  obtain ⟨notes, notesEq, cramped⟩ := first.markers
  obtain ⟨moreNotes, moreNotesEq, moreCramped⟩ := second.markers
  refine ⟨?_, second.labels.trans first.labels, ⟨entries ++ moreEntries, ?_, ?_⟩, ⟨notes ++ moreNotes, ?_, ?_⟩⟩
  · rw [second.rest, first.rest]
  · rw [moreEntriesEq, entriesEq, List.append_assoc]
  · exact List.forall_mem_append.2 ⟨diagonal, moreDiagonal⟩
  · rw [moreNotesEq, notesEq, List.append_assoc]
  · exact List.forall_mem_append.2 ⟨cramped, moreCramped⟩

theorem mono {more : List Segment} (inside : buses ⊆ more) (joined : a.JoinedTo buses b) : a.JoinedTo more b := by
  obtain ⟨notes, notesEq, cramped⟩ := joined.markers
  refine ⟨joined.rest, joined.labels, joined.entries, ⟨notes, notesEq, fun note member => ?_⟩⟩
  obtain ⟨marker, text, bus, busMember, short⟩ := cramped note member
  exact ⟨marker, text, bus, inside busMember, short⟩

theorem addEntry (s : Sheet) {entry : BusEntry} {p q : Point} (diagonal : p.IsDiagonal q)
    (joins : entry.Joins p q) : s.JoinedTo buses (s.addEntry entry) := by
  refine ⟨rfl, rfl, ⟨[entry], rfl, ?_⟩, ⟨[], by simp [Sheet.addEntry]⟩⟩
  intro one member
  rw [List.mem_singleton.1 member]
  exact ⟨p, q, diagonal, joins⟩

theorem addMarker (s : Sheet) {bus : Segment} {p : Point} (member : bus ∈ buses) (cramped : bus.Cramped p) :
    s.JoinedTo buses (s.addMarker p entryNeeded) := by
  refine ⟨rfl, rfl, ⟨[], by simp [Sheet.addMarker, Sheet.addNote]⟩, ⟨_, rfl, ?_⟩⟩
  intro note here
  rw [List.mem_singleton.1 here]
  exact ⟨rfl, rfl, bus, member, cramped⟩

theorem moveLabels (s : Sheet) (wire : Segment) (target : Point) :
    s.JoinedTo buses (s.moveLabels wire target) := by
  refine ⟨rfl, ?_, ⟨[], by simp [Sheet.moveLabels]⟩, ⟨[], by simp [Sheet.moveLabels]⟩⟩
  simp only [Sheet.moveLabels, List.map_map]
  apply List.map_congr_left
  intro l _
  simp only [Function.comp]
  split <;> rfl

theorem setLines (s : Sheet) (lines : List Line) : s.JoinedTo buses { s with lines } :=
  ⟨rfl, rfl, ⟨[], by simp⟩, ⟨[], by simp⟩⟩

theorem drawBack (s : Sheet) (number : Nat) (wire : Line) (e : LineEnd) (target : Point) :
    s.JoinedTo buses (s.drawBack number wire e target) :=
  (moveLabels s wire.segment target).trans (setLines _ _)

theorem eraseLine (s : Sheet) (number : Nat) : s.JoinedTo buses (s.eraseLine number) := setLines s _

end JoinedTo

end Sheet

/-! ## Ways off a bus -/

namespace Segment
variable {s : Segment} {p : Point}

theorem isHorizontal_iff : s.isHorizontal = true ↔ s.a.y = s.b.y ∧ s.a.x ≠ s.b.x := by
  simp [isHorizontal]

theorem isVertical_iff : s.isVertical = true ↔ s.a.x = s.b.x ∧ s.a.y ≠ s.b.y := by
  simp [isVertical]

theorem hits_of_isHorizontal (horizontal : s.isHorizontal) :
    s.hits p ↔ p.y = s.a.y ∧ min s.a.x s.b.x ≤ p.x ∧ p.x ≤ max s.a.x s.b.x := by
  obtain ⟨level, wide⟩ := isHorizontal_iff.1 horizontal
  have spread : s.b.x - s.a.x ≠ 0 := by omega
  have flat : s.b.y - s.a.y = 0 := by omega
  simp only [hits, cross, direction, Point.sub_x, Point.sub_y, Bool.and_eq_true, beq_iff_eq, decide_eq_true_eq,
    flat, Int.zero_mul, Int.sub_zero, Int.mul_eq_zero, spread, false_or]
  omega

theorem hits_of_isVertical (vertical : s.isVertical) :
    s.hits p ↔ p.x = s.a.x ∧ min s.a.y s.b.y ≤ p.y ∧ p.y ≤ max s.a.y s.b.y := by
  obtain ⟨level, tall⟩ := isVertical_iff.1 vertical
  have spread : s.b.y - s.a.y ≠ 0 := by omega
  have flat : s.b.x - s.a.x = 0 := by omega
  simp only [hits, cross, direction, Point.sub_x, Point.sub_y, Bool.and_eq_true, beq_iff_eq, decide_eq_true_eq,
    flat, Int.zero_mul, Int.zero_sub, Int.neg_eq_zero, Int.mul_eq_zero, spread, false_or]
  omega

end Segment

namespace Joining
variable {bus : Segment} {j : Joining} {number : Nat} {wire : Line} {e : LineEnd}

theorem perpendicular_iff {a b : Segment} : perpendicular a b ↔
    (a.isHorizontal ∧ b.isVertical) ∨ (a.isVertical ∧ b.isHorizontal) := by
  simp [perpendicular]

/-- A way off a bus: a step back along the wire, and the step tried first along the bus. -/
inductive Way (wire bus : Segment) : Point → Point → Prop
  | across {back along : Int} (level : wire.isHorizontal) (upright : bus.isVertical)
      (backUnit : back = 1 ∨ back = -1) (alongUnit : along = 1 ∨ along = -1) : Way wire bus ⟨back, 0⟩ ⟨0, along⟩
  | upright {back along : Int} (upright : wire.isVertical) (level : bus.isHorizontal)
      (backUnit : back = 1 ∨ back = -1) (alongUnit : along = 1 ∨ along = -1) : Way wire bus ⟨0, back⟩ ⟨along, 0⟩

/-- The second step along the bus is the first one the other way. -/
theorem leaving_way (perp : perpendicular wire.segment bus) (e : LineEnd) :
    ∃ back along, leaving wire bus e = ⟨back, along, -along⟩ ∧ Way wire.segment bus back along := by
  rcases perpendicular_iff.1 perp with ⟨level, upright⟩ | ⟨upright, level⟩
  · have flat : wire.start.y = wire.stop.y := (Segment.isHorizontal_iff.1 level).1
    unfold leaving
    rw [if_pos flat]
    generalize decide ((wire.farEnd e).x < bus.a.x) = toLeft
    cases e <;> cases toLeft <;> exact ⟨_, _, rfl, .across level upright (by simp) (by simp)⟩
  · have tall : wire.start.y ≠ wire.stop.y := (Segment.isVertical_iff.1 upright).2
    unfold leaving
    rw [if_neg tall]
    generalize decide ((wire.farEnd e).y < bus.a.y) = above
    cases above <;> exact ⟨_, _, rfl, .upright upright level (by simp) (by simp)⟩

namespace Way
variable {w : Segment} {back along : Point}

theorem isDiagonal (way : Way w bus back along) (p : Point) :
    (p + back.scale grid).IsDiagonal (p + along.scale grid) := by
  have step : 0 < grid := grid_pos
  cases way with
  | across _ _ backUnit alongUnit =>
    rcases backUnit with rfl | rfl <;> rcases alongUnit with rfl | rfl <;>
      constructor <;> simp only [Point.add_x, Point.add_y, Point.scale] <;> omega
  | upright _ _ backUnit alongUnit =>
    rcases backUnit with rfl | rfl <;> rcases alongUnit with rfl | rfl <;>
      constructor <;> simp only [Point.add_x, Point.add_y, Point.scale] <;> omega

theorem turned (way : Way w bus back along) : Way w bus back (-along) := by
  cases way with
  | across level upright backUnit alongUnit =>
    exact .across level upright backUnit (by simp only; omega)
  | upright upright level backUnit alongUnit =>
    exact .upright upright level backUnit (by simp only; omega)

theorem back_ne (way : Way w bus back along) (p : Point) : p + back.scale grid ≠ p := by
  have step : 0 < grid := grid_pos
  intro same
  have sameX := congrArg Point.x same
  have sameY := congrArg Point.y same
  cases way with
  | across _ _ backUnit _ =>
    simp only [Point.add_x, Point.scale] at sameX
    rcases backUnit with rfl | rfl <;> omega
  | upright _ _ backUnit _ =>
    simp only [Point.add_y, Point.scale] at sameY
    rcases backUnit with rfl | rfl <;> omega

/-- Of the grid neighbours of a point on the bus, only those along it can lie on it. -/
theorem cramped_iff (way : Way w bus back along) {p : Point} (touches : bus.hits p) :
    bus.Cramped p ↔ ¬ bus.hits (p + along.scale grid) ∧ ¬ bus.hits (p + (-along).scale grid) := by
  have step : grid ≠ 0 := by decide
  cases way with
  | across _ upright _ alongUnit =>
    have beside (d : Int) (ne : d ≠ 0) : bus.hits (p + ⟨d, 0⟩) = false := by
      refine Bool.eq_false_iff.2 fun hit => ?_
      have here := ((Segment.hits_of_isVertical upright).1 touches).1
      have there := ((Segment.hits_of_isVertical upright).1 hit).1
      simp only [Point.add_x] at there
      omega
    rcases alongUnit with rfl | rfl <;>
      simp [Segment.Cramped, Point.gridNeighbours, upright, touches, Point.scale, Point.neg_mk, beside, step,
        and_comm]
  | upright _ level _ alongUnit =>
    have beside (d : Int) (ne : d ≠ 0) : bus.hits (p + ⟨0, d⟩) = false := by
      refine Bool.eq_false_iff.2 fun hit => ?_
      have here := ((Segment.hits_of_isHorizontal level).1 touches).1
      have there := ((Segment.hits_of_isHorizontal level).1 hit).1
      simp only [Point.add_y] at there
      omega
    rcases alongUnit with rfl | rfl <;>
      simp [Segment.Cramped, Point.gridNeighbours, level, touches, Point.scale, Point.neg_mk, beside, step,
        and_comm]

end Way

/-! ## One end of a wire -/

theorem joinPerpendicular_away (found : j.line? number = some wire) (away : ¬ bus.hits (wire.atEnd e)) :
    joinPerpendicular bus number j e = j := by
  simp [joinPerpendicular, found, away]

/-- An end of a perpendicular wire on the bus is marked, or drawn back the way it leaves the bus. -/
theorem joinPerpendicular_leaving (found : j.line? number = some wire) (perp : perpendicular wire.segment bus)
    (touches : bus.hits (wire.atEnd e)) :
    (bus.Cramped (wire.atEnd e) ∧ joinPerpendicular bus number j e =
      ⟨j.sheet.addMarker (wire.atEnd e) entryNeeded, j.count⟩) ∨
    ∃ along, Way wire.segment bus (leaving wire bus e).back along ∧ bus.hits (wire.atEnd e + along.scale grid) ∧
      joinPerpendicular bus number j e =
        ⟨(j.sheet.addEntry (.between (wire.atEnd e + (leaving wire bus e).back.scale grid)
          (wire.atEnd e + along.scale grid))).drawBack number wire e
            (wire.atEnd e + (leaving wire bus e).back.scale grid), j.count + 1⟩ := by
  obtain ⟨back, along, ways, way⟩ := leaving_way perp e
  unfold joinPerpendicular
  simp only [found, touches, ways, Bool.not_true, Bool.false_eq_true, if_false]
  by_cases first : bus.hits (wire.atEnd e + along.scale grid)
  · right
    refine ⟨along, way, first, ?_⟩
    simp [first, addEntry]
  · by_cases second : bus.hits (wire.atEnd e + (-along).scale grid)
    · right
      refine ⟨-along, way.turned, second, ?_⟩
      simp [first, second, addEntry]
    · left
      refine ⟨(way.cramped_iff touches).2 ⟨first, second⟩, ?_⟩
      simp [first, second]

theorem joinPerpendicular_cases (found : j.line? number = some wire) (perp : perpendicular wire.segment bus)
    (touches : bus.hits (wire.atEnd e)) :
    (bus.Cramped (wire.atEnd e) ∧ joinPerpendicular bus number j e =
      ⟨j.sheet.addMarker (wire.atEnd e) entryNeeded, j.count⟩) ∨
    ∃ back along, Way wire.segment bus back along ∧ bus.hits (wire.atEnd e + along.scale grid) ∧
      joinPerpendicular bus number j e =
        ⟨(j.sheet.addEntry (.between (wire.atEnd e + back.scale grid) (wire.atEnd e + along.scale grid))).drawBack
          number wire e (wire.atEnd e + back.scale grid), j.count + 1⟩ :=
  (joinPerpendicular_leaving found perp touches).imp_right fun ⟨along, leaves⟩ => ⟨_, along, leaves⟩

theorem joinSlanted_away (found : j.line? number = some wire)
    (away : wire.erased ∨ ¬ bus.hits (wire.atEnd e)) : joinSlanted bus number j e = j := by
  rcases away with erased | away
  · simp [joinSlanted, found, erased]
  · simp [joinSlanted, found, away]

theorem stepToward_unit (n : Int) : stepToward n = grid ∨ stepToward n = -grid := by
  unfold stepToward
  split
  · exact .inl rfl
  · exact .inr rfl

/-- An end of a slanted wire on the bus is drawn back to a diagonal point, or the wire is erased. -/
theorem joinSlanted_cases (found : j.line? number = some wire) (alive : wire.erased = false)
    (touches : bus.hits (wire.atEnd e)) :
    ∃ target, (wire.atEnd e).IsDiagonal target ∧
      ((target = wire.farEnd e ∧ joinSlanted bus number j e =
        ⟨((j.sheet.addEntry (.between (wire.atEnd e) target)).moveLabels wire.segment target).eraseLine number,
          j.count + 1⟩) ∨
      (target ≠ wire.farEnd e ∧ joinSlanted bus number j e =
        ⟨(j.sheet.addEntry (.between (wire.atEnd e) target)).drawBack number wire e target, j.count + 1⟩)) := by
  let far := wire.farEnd e
  let touch := wire.atEnd e
  refine ⟨touch + ⟨stepToward (far.x - touch.x), stepToward (far.y - touch.y)⟩, ?_, ?_⟩
  · have across := stepToward_unit (far.x - touch.x)
    have along := stepToward_unit (far.y - touch.y)
    constructor
    · simp only [Point.add_x, touch] at across ⊢; omega
    · simp only [Point.add_y, touch] at along ⊢; omega
  · by_cases spanned : touch + ⟨stepToward (far.x - touch.x), stepToward (far.y - touch.y)⟩ = far
    · refine .inl ⟨spanned, ?_⟩
      simp only [joinSlanted, found, alive, touches, Bool.not_true, Bool.or_false, Bool.false_eq_true, if_false]
      rw [if_pos spanned]
      rfl
    · refine .inr ⟨spanned, ?_⟩
      simp only [joinSlanted, found, alive, touches, Bool.not_true, Bool.or_false, Bool.false_eq_true, if_false]
      rw [if_neg spanned]
      rfl

theorem joinPerpendicular_joinedTo (found : j.line? number = some wire) (perp : perpendicular wire.segment bus) :
    j.sheet.JoinedTo [bus] (joinPerpendicular bus number j e).sheet := by
  by_cases touches : bus.hits (wire.atEnd e)
  · rcases joinPerpendicular_cases (e := e) found perp touches with ⟨cramped, same⟩ | ⟨back, along, way, _, same⟩
    · rw [same]
      exact .addMarker _ (.head _) cramped
    · rw [same]
      exact (Sheet.JoinedTo.addEntry _ (way.isDiagonal _) (BusEntry.between_joins ..)).trans (.drawBack ..)
  · rw [joinPerpendicular_away found touches]
    exact .refl _

theorem joinSlanted_joinedTo : j.sheet.JoinedTo [bus] (joinSlanted bus number j e).sheet := by
  cases found : j.line? number with
  | none =>
    simp only [joinSlanted, found]
    exact .refl _
  | some wire =>
    by_cases away : wire.erased ∨ ¬ bus.hits (wire.atEnd e)
    · rw [joinSlanted_away found away]
      exact .refl _
    · simp only [not_or, Bool.not_eq_true, Bool.not_eq_false] at away
      obtain ⟨target, diagonal, ⟨_, same⟩ | ⟨_, same⟩⟩ := joinSlanted_cases (e := e) found away.1 away.2
      · rw [same]
        exact (Sheet.JoinedTo.addEntry _ diagonal (BusEntry.between_joins ..)).trans
          ((Sheet.JoinedTo.moveLabels ..).trans (.eraseLine ..))
      · rw [same]
        exact (Sheet.JoinedTo.addEntry _ diagonal (BusEntry.between_joins ..)).trans (.drawBack ..)

/-! ## Both ends of a wire -/

/-- The far end of a perpendicular wire is off the bus that the other end is on. -/
theorem far_away (perp : perpendicular wire.segment bus) (touches : bus.hits (wire.atEnd e)) :
    ¬ bus.hits (wire.farEnd e) := by
  intro hit
  rcases perpendicular_iff.1 perp with ⟨level, upright⟩ | ⟨upright, level⟩
  · have here := ((Segment.hits_of_isVertical upright).1 touches).1
    have there := ((Segment.hits_of_isVertical upright).1 hit).1
    have wide : wire.start.x ≠ wire.stop.x := (Segment.isHorizontal_iff.1 level).2
    cases e <;> simp only [Line.atEnd, Line.farEnd] at here there <;> omega
  · have here := ((Segment.hits_of_isHorizontal level).1 touches).1
    have there := ((Segment.hits_of_isHorizontal level).1 hit).1
    have tall : wire.start.y ≠ wire.stop.y := (Segment.isVertical_iff.1 upright).2
    cases e <;> simp only [Line.atEnd, Line.farEnd] at here there <;> omega

/-- A line that is drawn back or erased is still there. -/
theorem line?_drawBack (found : j.line? number = some wire) (entry : BusEntry) (target : Point) (count : Nat) :
    line? ⟨(j.sheet.addEntry entry).drawBack number wire e target, count⟩ number =
      some (wire.moveEnd e target) := by
  have here : j.sheet.lines[number]? = some wire := found
  simp [line?, Sheet.drawBack, Sheet.moveLabels, Sheet.addEntry, here]

theorem line?_eraseLine (found : j.line? number = some wire) (entry : BusEntry) (target : Point) (count : Nat) :
    line? ⟨((j.sheet.addEntry entry).moveLabels wire.segment target).eraseLine number, count⟩ number =
      some { wire with erased := true } := by
  have here : j.sheet.lines[number]? = some wire := found
  simp [line?, Sheet.eraseLine, Sheet.moveLabels, Sheet.addEntry, here]

/-- Joining a perpendicular wire joins the one end of it that touches the bus, if one does. -/
theorem joinEnds_perpendicular (found : j.line? number = some wire) (perp : perpendicular wire.segment bus) :
    ((∀ e, ¬ bus.hits (wire.atEnd e)) ∧ [LineEnd.start, .stop].foldl (joinPerpendicular bus number) j = j) ∨
    ∃ e, bus.hits (wire.atEnd e) ∧
      [LineEnd.start, .stop].foldl (joinPerpendicular bus number) j = joinPerpendicular bus number j e := by
  simp only [List.foldl_cons, List.foldl_nil]
  by_cases atStart : bus.hits (wire.atEnd .start)
  · refine .inr ⟨.start, atStart, ?_⟩
    have far : ¬ bus.hits (wire.farEnd .start) := far_away perp atStart
    change ¬ bus.hits (wire.atEnd .stop) at far
    obtain ⟨_, same⟩ | ⟨back, along, _, _, same⟩ := joinPerpendicular_cases (e := .start) found perp atStart
    · rw [same]
      exact joinPerpendicular_away found far
    · rw [same]
      exact joinPerpendicular_away (line?_drawBack found ..) far
  · rw [joinPerpendicular_away found atStart]
    by_cases atStop : bus.hits (wire.atEnd .stop)
    · exact .inr ⟨.stop, atStop, rfl⟩
    · refine .inl ⟨?_, joinPerpendicular_away found atStop⟩
      rintro (_ | _)
      · exact atStart
      · exact atStop

theorem joinWire_joinedTo (bus : Segment) (j : Joining) (number : Nat) :
    j.sheet.JoinedTo [bus] (joinWire bus j number).sheet := by
  cases found : j.line? number with
  | none =>
    simp only [joinWire, found]
    exact .refl _
  | some wire =>
    simp only [joinWire, found]
    by_cases point : wire.segment.a = wire.segment.b
    · rw [if_pos point]
      exact .refl _
    rw [if_neg point]
    by_cases perp : perpendicular wire.segment bus
    · rw [if_pos perp]
      obtain ⟨_, same⟩ | ⟨e, _, same⟩ := joinEnds_perpendicular found perp
      · rw [same]
        exact .refl _
      · rw [same]
        exact joinPerpendicular_joinedTo found perp
    · rw [if_neg perp]
      split
      · exact .refl _
      · exact joinSlanted_joinedTo.trans joinSlanted_joinedTo

/-! ## The wires of a sheet -/

/-- All wires joined to a bus, unless the bus is a point. -/
def joinSegment (j : Joining) (bus : Segment) : Joining :=
  if bus.a = bus.b then j else j.sheet.wires.foldl (joinWire bus) j

theorem line?_joinPerpendicular_of_ne {other : Nat} (ne : other ≠ number) :
    (joinPerpendicular bus number j e).line? other = j.line? other := by
  unfold joinPerpendicular
  split
  · rfl
  · dsimp only
    split
    · rfl
    · split
      · simp [line?, Sheet.drawBack, Sheet.moveLabels, addEntry, Sheet.addEntry, Ne.symm ne]
      · rfl

theorem line?_joinSlanted_of_ne {other : Nat} (ne : other ≠ number) :
    (joinSlanted bus number j e).line? other = j.line? other := by
  unfold joinSlanted
  split
  · rfl
  · dsimp only
    split
    · rfl
    · split
      · simp [line?, Sheet.eraseLine, Sheet.moveLabels, addEntry, Sheet.addEntry, Ne.symm ne]
      · simp [line?, Sheet.drawBack, Sheet.moveLabels, addEntry, Sheet.addEntry, Ne.symm ne]

/-- In the turn of a wire no other line changes. -/
theorem line?_joinWire_of_ne {other : Nat} (ne : other ≠ number) :
    (joinWire bus j number).line? other = j.line? other := by
  unfold joinWire
  split
  · rfl
  · dsimp only
    split
    · rfl
    · split
      · simp only [List.foldl_cons, List.foldl_nil, line?_joinPerpendicular_of_ne ne]
      · split
        · rfl
        · simp only [List.foldl_cons, List.foldl_nil, line?_joinSlanted_of_ne ne]

theorem line?_joinWires_of_not_mem {other : Nat} {numbers : List Nat} (absent : other ∉ numbers) :
    (numbers.foldl (joinWire bus) j).line? other = j.line? other := by
  induction numbers generalizing j with
  | nil => rfl
  | cons first rest ih =>
    rw [List.mem_cons, not_or] at absent
    rw [List.foldl_cons, ih absent.2, line?_joinWire_of_ne absent.1]

/-- What every step does to the sheet, all steps together do. -/
theorem foldl_joinedTo {α : Type} {buses : List Segment} {f : Joining → α → Joining} {l : List α}
    (step : ∀ (k : Joining), ∀ a ∈ l, k.sheet.JoinedTo buses (f k a).sheet) (j : Joining) :
    j.sheet.JoinedTo buses (l.foldl f j).sheet := by
  induction l generalizing j with
  | nil => exact .refl _
  | cons a l ih => exact (step j a (.head _)).trans (ih (fun k b member => step k b (.tail _ member)) _)

theorem joinWires_joinedTo (bus : Segment) (numbers : List Nat) (j : Joining) :
    j.sheet.JoinedTo [bus] (numbers.foldl (joinWire bus) j).sheet :=
  foldl_joinedTo (fun k number _ => joinWire_joinedTo bus k number) j

theorem joinSegment_joinedTo (j : Joining) (bus : Segment) : j.sheet.JoinedTo [bus] (j.joinSegment bus).sheet := by
  unfold joinSegment
  split
  · exact .refl _
  · exact joinWires_joinedTo ..

end Joining

namespace Sheet
variable {s : Sheet} {number : Nat} {l : Line}

theorem mem_lineNumbers {p : Line → Bool} : number ∈ s.lineNumbers p ↔ ∃ l, s.lines[number]? = some l ∧ p l := by
  rw [lineNumbers, List.mem_filter, Option.any_eq_true, List.mem_range]
  constructor
  · exact fun ⟨_, found⟩ => found
  · rintro ⟨l, found, passes⟩
    exact ⟨(List.getElem?_eq_some_iff.1 found).1, l, found, passes⟩

theorem mem_wires : number ∈ s.wires ↔ ∃ l, s.lines[number]? = some l ∧ l.kind = .wire ∧ l.erased = false := by
  simp [wires, mem_lineNumbers]

theorem mem_buses : number ∈ s.buses ↔ ∃ l, s.lines[number]? = some l ∧ l.kind = .bus := by
  simp [buses, mem_lineNumbers]

theorem wires_nodup (s : Sheet) : s.wires.Nodup := List.nodup_range.filter _

/-- The segments of the buses, in order. -/
def busSegments (s : Sheet) : List Segment := s.buses.filterMap fun number => s.lines[number]?.map Line.segment

end Sheet

namespace Joining

/-- A line that is no wire stays through the turn of a bus. -/
theorem line?_joinSegment_of_kind {j : Joining} {bus : Segment} {number : Nat} {l : Line}
    (found : j.line? number = some l) (kind : l.kind ≠ .wire) : (j.joinSegment bus).line? number = some l := by
  have absent : number ∉ j.sheet.wires := by
    intro member
    obtain ⟨wire, here, isWire, _⟩ := Sheet.mem_wires.1 member
    have same : l = wire := Option.some.inj (found.symm.trans here)
    exact kind (same ▸ isWire)
  unfold joinSegment
  split
  · exact found
  · rw [line?_joinWires_of_not_mem absent, found]

theorem joinBus_eq {j : Joining} {number : Nat} {l : Line} (found : j.line? number = some l) :
    joinBus j number = j.joinSegment l.segment := by
  simp [joinBus, joinSegment, found]

/-- While wires are joined the buses stay, so each has the segment it began with. -/
theorem foldl_joinBus {s : Sheet} (numbers : List Nat) (isBus : ∀ number ∈ numbers, number ∈ s.buses) (j : Joining)
    (same : ∀ number ∈ numbers, j.line? number = s.lines[number]?) :
    numbers.foldl joinBus j =
      (numbers.filterMap fun number => s.lines[number]?.map Line.segment).foldl joinSegment j := by
  induction numbers generalizing j with
  | nil => rfl
  | cons number rest ih =>
    obtain ⟨bus, found, kind⟩ := Sheet.mem_buses.1 (isBus number (.head _))
    have here : j.line? number = some bus := (same number (.head _)).trans found
    rw [List.foldl_cons, joinBus_eq here, List.filterMap_cons_some (b := bus.segment) (by simp [found]),
      List.foldl_cons]
    apply ih (fun other member => isBus other (.tail _ member))
    intro other member
    obtain ⟨otherBus, otherFound, otherKind⟩ := Sheet.mem_buses.1 (isBus other (.tail _ member))
    rw [otherFound]
    apply line?_joinSegment_of_kind ((same other (.tail _ member)).trans otherFound)
    rw [otherKind]
    decide

end Joining

namespace Sheet

theorem joinBuses_eq (s : Sheet) : s.joinBuses = s.busSegments.foldl Joining.joinSegment ⟨s, 0⟩ :=
  Joining.foldl_joinBus s.buses (fun _ member => member) ⟨s, 0⟩ fun _ _ => rfl

theorem joinSegments_joinedTo (buses : List Segment) (j : Joining) :
    j.sheet.JoinedTo buses (buses.foldl Joining.joinSegment j).sheet :=
  Joining.foldl_joinedTo
    (fun k bus member => (Joining.joinSegment_joinedTo k bus).mono (by simpa using member)) j

theorem joinBuses_joinedTo (s : Sheet) : s.JoinedTo s.busSegments s.joinBuses.sheet := by
  rw [joinBuses_eq]
  exact joinSegments_joinedTo s.busSegments ⟨s, 0⟩

end Sheet

end Redraft
