import Redraft.Proofs.BusJoining

/-!
# Wires that end on a bus

An end of a wire on a bus gets an entry or a marker when the turn of the bus
comes. A turn may move either end, so what a later bus finds is not the wire as
it was drawn.
-/

namespace Redraft
open Joining

/-- Neither the wire nor the bus is a point, and the wire is perpendicular to the bus or slanted. -/
def Segment.Meets (wire bus : Segment) : Prop :=
  wire.a ≠ wire.b ∧ bus.a ≠ bus.b ∧ (perpendicular wire bus ∨ ¬ (wire.isHorizontal || wire.isVertical))

namespace Segment
variable {wire bus : Segment}

theorem Meets.of_level (meets : wire.Meets bus) (level : wire.a.y = wire.b.y) :
    wire.isHorizontal ∧ bus.isVertical := by
  have wide : wire.a.x ≠ wire.b.x := fun same => meets.1 (Point.ext same level)
  have flat : wire.isHorizontal := isHorizontal_iff.2 ⟨level, wide⟩
  refine ⟨flat, ?_⟩
  rcases meets.2.2 with perp | sloping
  · rcases perpendicular_iff.1 perp with ⟨_, upright⟩ | ⟨upright, _⟩
    · exact upright
    · exact absurd level (isVertical_iff.1 upright).2
  · simp [flat] at sloping

theorem Meets.of_upright (meets : wire.Meets bus) (upright : wire.a.x = wire.b.x) :
    wire.isVertical ∧ bus.isHorizontal := by
  have tall : wire.a.y ≠ wire.b.y := fun same => meets.1 (Point.ext upright same)
  have steep : wire.isVertical := isVertical_iff.2 ⟨upright, tall⟩
  refine ⟨steep, ?_⟩
  rcases meets.2.2 with perp | sloping
  · rcases perpendicular_iff.1 perp with ⟨level, _⟩ | ⟨_, level⟩
    · exact absurd upright (isHorizontal_iff.1 level).2
    · exact level
  · simp [steep] at sloping

end Segment

namespace Sheet

/-- A new entry runs from the bus to the end of the wire, or over the whole of an erased wire. -/
def JoinsEnd (before after : Sheet) (bus : Segment) (wire : Line) (e : LineEnd) : Prop :=
  ∃ entry ∈ after.entries.drop before.entries.length, ∃ p, bus.hits p ∧
    (entry.Joins p (wire.atEnd e) ∨ (wire.erased ∧ p = wire.atEnd e ∧ entry.Joins p (wire.farEnd e)))

/-- A new marker at the point asks for an entry. -/
def MarksPoint (before after : Sheet) (p : Point) : Prop :=
  ∃ note ∈ after.notes.drop before.notes.length, note.isMarker ∧ note.text = entryNeeded ∧ note.position = p

/-- A new entry runs over the whole of the wire. -/
def Spans (before after : Sheet) (wire : Line) : Prop :=
  ∃ entry ∈ after.entries.drop before.entries.length, entry.Joins wire.start wire.stop

end Sheet

/-- What the turn of a bus comes to for an end of a wire. -/
inductive EndTurn (bus : Segment) (before after : Sheet) (wire wire' : Line) (e : LineEnd) : Prop
  | untouched (away : ¬ (wire.segment.Meets bus ∧ bus.hits (wire.atEnd e))) (same : wire'.atEnd e = wire.atEnd e)
  | marked (meets : wire.segment.Meets bus) (touches : bus.hits (wire.atEnd e))
      (cramped : bus.Cramped (wire.atEnd e)) (marker : before.MarksPoint after (wire.atEnd e)) (same : wire' = wire)
  | joined (meets : wire.segment.Meets bus) (touches : bus.hits (wire.atEnd e))
      (room : perpendicular wire.segment bus → ¬ bus.Cramped (wire.atEnd e))
      (moved : wire'.atEnd e ≠ wire.atEnd e ∨ wire'.erased) (entry : before.JoinsEnd after bus wire' e)

/-- What the turn of a bus comes to for a wire. A wire along an axis stays along it and is not erased. -/
structure WireTurn (bus : Segment) (before after : Sheet) (wire wire' : Line) : Prop where
  kind : wire'.kind = wire.kind
  ends : ∀ e, EndTurn bus before after wire wire' e
  level : wire.start.y = wire.stop.y → wire'.start.y = wire'.stop.y ∧ wire'.erased = wire.erased
  upright : wire.start.x = wire.stop.x → wire'.start.x = wire'.stop.x ∧ wire'.erased = wire.erased
  spanned : wire'.erased → wire.erased ∨ before.Spans after wire'

theorem Sheet.marksPoint_addMarker (s : Sheet) (p : Point) : s.MarksPoint (s.addMarker p entryNeeded) p := by
  refine ⟨{ text := entryNeeded, position := p, angle := 0, effects := .square textSize, isMarker := true },
    ?_, rfl, rfl, rfl⟩
  simp [addMarker, addNote]

/-! ## Longer stretches -/

section Widen
variable {buses : List Segment} {a b c d : Sheet} {bus : Segment} {wire wire' : Line} {e : LineEnd} {p : Point}

private theorem drop_subset {α : Type} (first more second rest : List α) :
    second.drop (first ++ more).length ⊆ (second ++ rest).drop first.length := by
  intro x member
  rw [List.length_append, ← List.drop_drop] at member
  rw [List.drop_append]
  exact List.mem_append_left _ (List.mem_of_mem_drop member)

theorem Sheet.JoinedTo.newEntries_subset (first : a.JoinedTo buses b) (second : c.JoinedTo buses d) :
    c.entries.drop b.entries.length ⊆ d.entries.drop a.entries.length := by
  obtain ⟨more, same, _⟩ := first.entries
  obtain ⟨rest, same', _⟩ := second.entries
  rw [same, same']
  exact drop_subset ..

theorem Sheet.JoinedTo.newNotes_subset (first : a.JoinedTo buses b) (second : c.JoinedTo buses d) :
    c.notes.drop b.notes.length ⊆ d.notes.drop a.notes.length := by
  obtain ⟨more, same, _⟩ := first.markers
  obtain ⟨rest, same', _⟩ := second.markers
  rw [same, same']
  exact drop_subset ..

theorem Sheet.JoinsEnd.widen (joins : b.JoinsEnd c bus wire e) (first : a.JoinedTo buses b)
    (second : c.JoinedTo buses d) : a.JoinsEnd d bus wire e := by
  obtain ⟨entry, member, p, hit, runs⟩ := joins
  exact ⟨entry, first.newEntries_subset second member, p, hit, runs⟩

theorem Sheet.MarksPoint.widen (marks : b.MarksPoint c p) (first : a.JoinedTo buses b)
    (second : c.JoinedTo buses d) : a.MarksPoint d p := by
  obtain ⟨note, member, marker⟩ := marks
  exact ⟨note, first.newNotes_subset second member, marker⟩

theorem Sheet.Spans.widen (spans : b.Spans c wire) (first : a.JoinedTo buses b)
    (second : c.JoinedTo buses d) : a.Spans d wire := by
  obtain ⟨entry, member, runs⟩ := spans
  exact ⟨entry, first.newEntries_subset second member, runs⟩

theorem EndTurn.widen (turn : EndTurn bus b c wire wire' e) (first : a.JoinedTo buses b)
    (second : c.JoinedTo buses d) : EndTurn bus a d wire wire' e := by
  cases turn with
  | untouched away same => exact .untouched away same
  | marked meets touches cramped marker same =>
    exact .marked meets touches cramped (marker.widen first second) same
  | joined meets touches room moved entry => exact .joined meets touches room moved (entry.widen first second)

theorem WireTurn.widen (turn : WireTurn bus b c wire wire') (first : a.JoinedTo buses b)
    (second : c.JoinedTo buses d) : WireTurn bus a d wire wire' := by
  refine ⟨turn.kind, fun e => (turn.ends e).widen first second, turn.level, turn.upright, fun erased => ?_⟩
  exact (turn.spanned erased).imp_right fun spans => spans.widen first second

theorem WireTurn.none (away : ∀ e, ¬ (wire.segment.Meets bus ∧ bus.hits (wire.atEnd e))) :
    WireTurn bus a b wire wire :=
  ⟨rfl, fun e => .untouched (away e) rfl, fun level => ⟨level, rfl⟩, fun upright => ⟨upright, rfl⟩, .inl⟩

end Widen

/-! ## The turn of a wire -/

namespace Joining
variable {bus : Segment} {j : Joining} {number : Nat} {wire : Line} {e : LineEnd}

theorem atEnd_moveEnd (wire : Line) (e : LineEnd) (p : Point) : (wire.moveEnd e p).atEnd e = p := by
  cases e <;> rfl

theorem farEnd_moveEnd (wire : Line) (e : LineEnd) (p : Point) : (wire.moveEnd e p).farEnd e = wire.farEnd e := by
  cases e <;> rfl

/-- An end is a given one or the far end of it. -/
theorem atEnd_or_far (e f : LineEnd) : e = f ∨ ∀ wire : Line, wire.atEnd f = wire.farEnd e := by
  cases e <;> cases f <;> simp [Line.atEnd, Line.farEnd]

theorem not_perpendicular_of_slanted (slanted : ¬ (wire.segment.isHorizontal || wire.segment.isVertical)) :
    ¬ perpendicular wire.segment bus := by
  intro perp
  rcases perpendicular_iff.1 perp with ⟨level, _⟩ | ⟨upright, _⟩
  · exact slanted (by simp [level])
  · exact slanted (by simp [upright])

/-- The turn of a perpendicular wire. -/
theorem joinPerpendicular_turn (found : j.line? number = some wire) (meets : wire.segment.Meets bus)
    (perp : perpendicular wire.segment bus) (touches : bus.hits (wire.atEnd e)) :
    ∃ wire', (joinPerpendicular bus number j e).line? number = some wire' ∧
      WireTurn bus j.sheet (joinPerpendicular bus number j e).sheet wire wire' := by
  have far : ¬ bus.hits (wire.farEnd e) := far_away perp touches
  rcases joinPerpendicular_cases found perp touches with ⟨cramped, same⟩ | ⟨back, along, way, joint, same⟩
  · refine ⟨wire, by rw [same]; exact found, rfl, fun f => ?_, fun level => ⟨level, rfl⟩,
      fun upright => ⟨upright, rfl⟩, .inl⟩
    rcases atEnd_or_far e f with rfl | isFar
    · refine .marked meets touches cramped ?_ rfl
      rw [same]
      exact Sheet.marksPoint_addMarker ..
    · refine .untouched (fun both => far ?_) rfl
      rw [← isFar]
      exact both.2
  · refine ⟨wire.moveEnd e (wire.atEnd e + back.scale grid), by rw [same]; exact line?_drawBack found ..,
      by cases e <;> rfl, fun f => ?_, fun level => ?_, fun upright => ?_,
      fun erased => .inl (by cases e <;> exact erased)⟩
    · rcases atEnd_or_far e f with rfl | isFar
      · refine .joined meets touches (fun _ cramped => ((way.cramped_iff touches).1 cramped).1 joint)
          (.inl ?_) ⟨.between (wire.atEnd e + back.scale grid) (wire.atEnd e + along.scale grid), ?_,
            _, joint, .inl ?_⟩
        · rw [atEnd_moveEnd]
          exact way.back_ne _
        · simp [same, Sheet.drawBack, Sheet.moveLabels, Sheet.addEntry]
        · rw [atEnd_moveEnd]
          exact BusEntry.joins_comm (BusEntry.between_joins ..)
      · refine .untouched (fun both => far ?_) ?_
        · rw [← isFar]
          exact both.2
        · rw [isFar, isFar, farEnd_moveEnd]
    · cases way with
      | across _ _ _ _ =>
        cases e <;> simp [Line.moveEnd, Line.atEnd, Point.scale, level]
      | upright upright _ _ _ => exact absurd level (Segment.isVertical_iff.1 upright).2
    · cases way with
      | across level _ _ _ => exact absurd upright (Segment.isHorizontal_iff.1 level).2
      | upright _ _ _ _ =>
        cases e <;> simp [Line.moveEnd, Line.atEnd, Point.scale, upright]

/-- What joining an end comes to for a slanted wire: it stays, or a new entry runs from the end to
    where it is drawn back to, or over the whole wire, which is erased. -/
inductive SlantedEnd (bus : Segment) (before after : Sheet) (wire wire' : Line) (e : LineEnd) : Prop
  | away (off : wire.erased ∨ ¬ bus.hits (wire.atEnd e)) (same : after = before) (still : wire' = wire)
  | drawn (touches : bus.hits (wire.atEnd e)) {entry : BusEntry} {target : Point}
      (member : entry ∈ after.entries.drop before.entries.length) (joins : entry.Joins (wire.atEnd e) target)
      (moved : target ≠ wire.atEnd e) (alive : wire.erased = false) (back : wire' = wire.moveEnd e target)
  | spanned (touches : bus.hits (wire.atEnd e)) {entry : BusEntry}
      (member : entry ∈ after.entries.drop before.entries.length)
      (joins : entry.Joins (wire.atEnd e) (wire.farEnd e)) (alive : wire.erased = false)
      (erased : wire' = { wire with erased := true })

namespace SlantedEnd
variable {before after last : Sheet} {wire' wire'' : Line}

theorem kind (result : SlantedEnd bus before after wire wire' e) : wire'.kind = wire.kind := by
  cases result with
  | away _ _ still => rw [still]
  | drawn _ _ _ _ _ back => rw [back]; cases e <;> rfl
  | spanned _ _ _ _ erased => rw [erased]

theorem farEnd (result : SlantedEnd bus before after wire wire' e) : wire'.farEnd e = wire.farEnd e := by
  cases result with
  | away _ _ still => rw [still]
  | drawn _ _ _ _ _ back => rw [back, farEnd_moveEnd]
  | spanned _ _ _ _ erased => rw [erased]; cases e <;> rfl

/-- An end on the bus is joined. -/
theorem joins (result : SlantedEnd bus before after wire wire' e) (alive : wire.erased = false)
    (touches : bus.hits (wire.atEnd e)) :
    (wire'.atEnd e ≠ wire.atEnd e ∨ wire'.erased) ∧ before.JoinsEnd after bus wire' e := by
  cases result with
  | away off _ _ => exact absurd off (by simp [alive, touches])
  | drawn _ member joins moved _ back =>
    rw [back, Sheet.JoinsEnd, atEnd_moveEnd]
    exact ⟨.inl moved, _, member, _, touches, .inl joins⟩
  | spanned _ member joins _ erased =>
    rw [erased]
    exact ⟨.inr rfl, _, member, _, touches, .inr ⟨rfl, by cases e <;> rfl, by cases e <;> exact joins⟩⟩

theorem same_of_erased (result : SlantedEnd bus before after wire wire' e) (erased : wire.erased) :
    wire' = wire := by
  cases result with
  | away _ _ still => exact still
  | drawn _ _ _ _ alive _ => simp [erased] at alive
  | spanned _ _ _ alive _ => simp [erased] at alive

theorem same_of_off (result : SlantedEnd bus before after wire wire' e) (off : ¬ bus.hits (wire.atEnd e)) :
    wire' = wire := by
  cases result with
  | away _ _ still => exact still
  | drawn touches _ _ _ _ _ => exact absurd touches off
  | spanned touches _ _ _ _ => exact absurd touches off

theorem spans (result : SlantedEnd bus before after wire wire' e) (erased : wire'.erased) :
    wire.erased ∨ before.Spans after wire' := by
  cases result with
  | away _ _ still => exact .inl (still ▸ erased)
  | drawn _ _ _ _ _ back => exact .inl (by rw [back] at erased; cases e <;> exact erased)
  | spanned _ member joins _ gone =>
    rw [gone]
    refine .inr ⟨_, member, ?_⟩
    cases e with
    | start => exact joins
    | stop => exact BusEntry.joins_comm joins

end SlantedEnd

theorem joinSlanted_end (bus : Segment) (e : LineEnd) (found : j.line? number = some wire) :
    ∃ wire', (joinSlanted bus number j e).line? number = some wire' ∧
      SlantedEnd bus j.sheet (joinSlanted bus number j e).sheet wire wire' e := by
  by_cases off : wire.erased ∨ ¬ bus.hits (wire.atEnd e)
  · have same := joinSlanted_away found off
    exact ⟨wire, by rw [same]; exact found, .away off (by rw [same]) rfl⟩
  · simp only [not_or, Bool.not_eq_true, Bool.not_eq_false] at off
    obtain ⟨alive, touches⟩ := off
    obtain ⟨target, diagonal, ⟨spans, same⟩ | ⟨_, same⟩⟩ := joinSlanted_cases (e := e) found alive touches
    · have joins := BusEntry.between_joins (wire.atEnd e) target
      rw [spans] at joins
      refine ⟨{ wire with erased := true }, by rw [same]; exact line?_eraseLine found ..,
        .spanned touches ?_ joins alive rfl⟩
      simp [same, Sheet.eraseLine, Sheet.moveLabels, Sheet.addEntry, spans]
    · refine ⟨wire.moveEnd e target, by rw [same]; exact line?_drawBack found ..,
        .drawn touches ?_ (BusEntry.between_joins (wire.atEnd e) target) ?_ alive rfl⟩
      · simp [same, Sheet.drawBack, Sheet.moveLabels, Sheet.addEntry]
      · intro still
        have step := grid_pos
        have across := diagonal.1
        rw [still] at across
        omega

namespace SlantedEnd
variable {before middle after : Sheet} {mid last : Line}

/-- Joining the stop leaves the start where joining it has put it. -/
theorem startTurn (atStart : SlantedEnd bus before middle wire mid .start)
    (atStop : SlantedEnd bus middle after mid last .stop) (second : middle.JoinedTo [bus] after)
    (meets : wire.segment.Meets bus) (sloping : ¬ perpendicular wire.segment bus) (alive : wire.erased = false) :
    EndTurn bus before after wire last .start := by
  have stays : last.atEnd .start = mid.atEnd .start := atStop.farEnd
  by_cases touches : bus.hits (wire.atEnd .start)
  · obtain ⟨moved, joins⟩ := atStart.joins alive touches
    by_cases gone : mid.erased
    · rw [atStop.same_of_erased gone]
      exact .joined meets touches (absurd · sloping) moved (joins.widen (.refl _) second)
    · obtain ⟨entry, member, p, hit, runs | ⟨erased, _⟩⟩ := joins
      · have new := (Sheet.JoinedTo.refl before).newEntries_subset second member
        rw [← stays] at moved runs
        have leaves := moved.resolve_right gone
        exact .joined meets touches (absurd · sloping) (.inl leaves) ⟨entry, new, p, hit, .inl runs⟩
      · exact absurd erased gone
  · refine .untouched (fun both => touches both.2) ?_
    rw [stays, atStart.same_of_off touches]

/-- The stop is joined where it was drawn, unless joining the start has erased the wire. -/
theorem stopTurn (atStart : SlantedEnd bus before middle wire mid .start)
    (atStop : SlantedEnd bus middle after mid last .stop) (first : before.JoinedTo [bus] middle)
    (second : middle.JoinedTo [bus] after) (meets : wire.segment.Meets bus)
    (sloping : ¬ perpendicular wire.segment bus) (alive : wire.erased = false) :
    EndTurn bus before after wire last .stop := by
  have stays : mid.atEnd .stop = wire.atEnd .stop := atStart.farEnd
  by_cases touches : bus.hits (wire.atEnd .stop)
  · by_cases gone : mid.erased
    · obtain ⟨entry, member, runs⟩ := (atStart.spans gone).resolve_left (by simp [alive])
      have new := (Sheet.JoinedTo.refl before).newEntries_subset second member
      rw [← stays] at touches
      rw [atStop.same_of_erased gone]
      exact .joined meets (stays ▸ touches) (absurd · sloping) (.inr gone)
        ⟨entry, new, mid.stop, touches, .inr ⟨gone, rfl, BusEntry.joins_comm runs⟩⟩
    · obtain ⟨moved, joins⟩ := atStop.joins (by simpa using gone) (stays ▸ touches)
      rw [stays] at moved
      exact .joined meets touches (absurd · sloping) moved (joins.widen first (.refl _))
  · have off : ¬ bus.hits (mid.atEnd .stop) := stays ▸ touches
    refine .untouched (fun both => touches both.2) ?_
    rw [atStop.same_of_off off, stays]

/-- A wire that is erased in the end was so before, or an entry runs over the whole of it. -/
theorem spansTurn (atStart : SlantedEnd bus before middle wire mid .start)
    (atStop : SlantedEnd bus middle after mid last .stop) (first : before.JoinedTo [bus] middle)
    (second : middle.JoinedTo [bus] after) (erased : last.erased) : wire.erased ∨ before.Spans after last := by
  rcases atStop.spans erased with gone | spans
  · rw [atStop.same_of_erased gone]
    exact (atStart.spans gone).imp_right fun spans => spans.widen (.refl _) second
  · exact .inr (spans.widen first (.refl _))

end SlantedEnd

/-- The turn of a slanted wire: its start is joined first, then its stop as it then is. -/
theorem joinSlanted_turn (found : j.line? number = some wire) (meets : wire.segment.Meets bus)
    (slanted : ¬ (wire.segment.isHorizontal || wire.segment.isVertical)) (alive : wire.erased = false) :
    ∃ wire', ([LineEnd.start, .stop].foldl (joinSlanted bus number) j).line? number = some wire' ∧
      WireTurn bus j.sheet ([LineEnd.start, .stop].foldl (joinSlanted bus number) j).sheet wire wire' := by
  simp only [List.foldl_cons, List.foldl_nil]
  obtain ⟨middle, middleFound, atStart⟩ := joinSlanted_end bus .start found
  obtain ⟨last, lastFound, atStop⟩ := joinSlanted_end bus .stop middleFound
  have first : j.sheet.JoinedTo [bus] (joinSlanted bus number j .start).sheet := joinSlanted_joinedTo
  have second : (joinSlanted bus number j .start).sheet.JoinedTo [bus]
      (joinSlanted bus number (joinSlanted bus number j .start) .stop).sheet := joinSlanted_joinedTo
  have sloping : ¬ perpendicular wire.segment bus := not_perpendicular_of_slanted slanted
  have level : wire.start.y ≠ wire.stop.y := fun level => slanted (by simp [(meets.of_level level).1])
  have upright : wire.start.x ≠ wire.stop.x := fun upright => slanted (by simp [(meets.of_upright upright).1])
  refine ⟨last, lastFound, atStop.kind.trans atStart.kind, fun e => ?_, (absurd · level), (absurd · upright),
    atStart.spansTurn atStop first second⟩
  cases e with
  | start => exact atStart.startTurn atStop second meets sloping alive
  | stop => exact atStart.stopTurn atStop first second meets sloping alive

theorem joinWire_turn (found : j.line? number = some wire) (line : bus.a ≠ bus.b) (alive : wire.erased = false) :
    ∃ wire', (joinWire bus j number).line? number = some wire' ∧
      WireTurn bus j.sheet (joinWire bus j number).sheet wire wire' := by
  simp only [joinWire, found]
  by_cases point : wire.segment.a = wire.segment.b
  · rw [if_pos point]
    exact ⟨wire, found, .none fun e both => both.1.1 point⟩
  rw [if_neg point]
  by_cases perp : perpendicular wire.segment bus
  · rw [if_pos perp]
    obtain ⟨off, same⟩ | ⟨e, touches, same⟩ := joinEnds_perpendicular found perp
    · rw [same]
      exact ⟨wire, found, .none fun e both => off e both.2⟩
    · rw [same]
      exact joinPerpendicular_turn found ⟨point, line, .inl perp⟩ perp touches
  · rw [if_neg perp]
    by_cases slanted : wire.segment.isHorizontal || wire.segment.isVertical
    · rw [if_pos slanted]
      refine ⟨wire, found, .none fun e both => ?_⟩
      rcases both.1.2.2 with yes | sloping
      · exact perp yes
      · exact sloping slanted
    · rw [if_neg slanted]
      exact joinSlanted_turn found ⟨point, line, .inr slanted⟩ slanted alive

/-- In the turn of a bus each wire has its own turn once. -/
theorem joinSegment_turn (bus : Segment) (found : j.line? number = some wire) (kind : wire.kind = .wire)
    (alive : wire.erased = false) : ∃ wire', (j.joinSegment bus).line? number = some wire' ∧
      WireTurn bus j.sheet (j.joinSegment bus).sheet wire wire' := by
  unfold joinSegment
  by_cases point : bus.a = bus.b
  · rw [if_pos point]
    exact ⟨wire, found, .none fun e both => both.1.2.1 point⟩
  rw [if_neg point]
  obtain ⟨earlier, later, split⟩ := List.append_of_mem (Sheet.mem_wires.2 ⟨wire, found, kind, alive⟩)
  have once := j.sheet.wires_nodup
  rw [split, List.nodup_append, List.nodup_cons] at once
  obtain ⟨_, ⟨notLater, _⟩, apart⟩ := once
  have notEarlier : number ∉ earlier := fun member => apart number member number (.head _) rfl
  rw [split, List.foldl_append, List.foldl_cons]
  have before := joinWires_joinedTo bus earlier j
  have here : (earlier.foldl (joinWire bus) j).line? number = some wire :=
    (line?_joinWires_of_not_mem notEarlier).trans found
  obtain ⟨wire', found', turn⟩ := joinWire_turn here point alive
  exact ⟨wire', (line?_joinWires_of_not_mem notLater).trans found',
    turn.widen before (joinWires_joinedTo bus later _)⟩

/-- An erased line stays through the turn of a bus. -/
theorem joinSegment_erased (bus : Segment) (found : j.line? number = some wire) (erased : wire.erased) :
    (j.joinSegment bus).line? number = some wire := by
  have absent : number ∉ j.sheet.wires := by
    intro member
    obtain ⟨same, here, _, alive⟩ := Sheet.mem_wires.1 member
    rw [Option.some.inj (found.symm.trans here)] at erased
    simp [alive] at erased
  unfold joinSegment
  split
  · exact found
  · rw [line?_joinWires_of_not_mem absent, found]

end Joining

/-! ## The turns of all buses -/

namespace Sheet

/-- The sheet before the turn of the bus of a given number. -/
def joinedUpTo (s : Sheet) (k : Nat) : Joining := (s.busSegments.take k).foldl Joining.joinSegment ⟨s, 0⟩

/-- The wire of a number before the turn of the bus of a given number. -/
def wireBefore? (s : Sheet) (number k : Nat) : Option Line := (s.joinedUpTo k).line? number

variable {s : Sheet} {number k : Nat} {wire : Line} {e : LineEnd}

theorem joinedUpTo_succ {bus : Segment} (found : s.busSegments[k]? = some bus) :
    s.joinedUpTo (k + 1) = (s.joinedUpTo k).joinSegment bus := by
  obtain ⟨inside, rfl⟩ := List.getElem?_eq_some_iff.1 found
  rw [joinedUpTo, List.take_succ_eq_append_getElem inside, List.foldl_append]
  rfl

theorem joinedUpTo_of_length_le (beyond : s.busSegments.length ≤ k) : s.joinedUpTo k = s.joinBuses := by
  rw [joinedUpTo, List.take_of_length_le beyond, joinBuses_eq]

theorem joinedUpTo_stop (beyond : s.busSegments.length ≤ k) : s.joinedUpTo (k + 1) = s.joinedUpTo k := by
  rw [joinedUpTo_of_length_le (Nat.le_succ_of_le beyond), joinedUpTo_of_length_le beyond]

theorem joinedUpTo_joinedTo (s : Sheet) (k : Nat) : s.JoinedTo s.busSegments (s.joinedUpTo k).sheet :=
  (joinSegments_joinedTo _ ⟨s, 0⟩).mono (List.take_subset k _)

theorem joinedUpTo_next (s : Sheet) (k : Nat) :
    (s.joinedUpTo k).sheet.JoinedTo s.busSegments (s.joinedUpTo (k + 1)).sheet := by
  by_cases beyond : s.busSegments.length ≤ k
  · rw [joinedUpTo_stop beyond]
    exact .refl _
  · have here := List.getElem?_eq_getElem (Nat.lt_of_not_le beyond)
    rw [joinedUpTo_succ here]
    exact (Joining.joinSegment_joinedTo _ _).mono (by simp)

/-- A wire as it was drawn, and as it is before the turn of the bus of a given number. -/
structure WireSince (s : Sheet) (k : Nat) (wire w : Line) : Prop where
  kind : w.kind = .wire
  level : wire.start.y = wire.stop.y → w.start.y = w.stop.y ∧ w.erased = false
  upright : wire.start.x = wire.stop.x → w.start.x = w.stop.x ∧ w.erased = false
  spanned : w.erased → s.Spans (s.joinedUpTo k).sheet w

/-- What the next turn comes to for a wire; there may be none left. -/
inductive NextTurn (s : Sheet) (k : Nat) (w w' : Line) : Prop
  | still (same : w' = w) (left : w.erased ∨ s.busSegments.length ≤ k)
  | turn (bus : Segment) (found : s.busSegments[k]? = some bus) (alive : w.erased = false)
      (turn : WireTurn bus (s.joinedUpTo k).sheet (s.joinedUpTo (k + 1)).sheet w w')

theorem nextTurn {w : Line} (found : s.wireBefore? number k = some w) (kind : w.kind = .wire) :
    ∃ w', s.wireBefore? number (k + 1) = some w' ∧ NextTurn s k w w' := by
  by_cases beyond : s.busSegments.length ≤ k
  · refine ⟨w, ?_, .still rfl (.inr beyond)⟩
    rw [wireBefore?, joinedUpTo_stop beyond]
    exact found
  obtain ⟨bus, here⟩ : ∃ bus, s.busSegments[k]? = some bus :=
    ⟨_, List.getElem?_eq_getElem (Nat.lt_of_not_le beyond)⟩
  have next := joinedUpTo_succ here
  by_cases erased : w.erased
  · refine ⟨w, ?_, .still rfl (.inl erased)⟩
    rw [wireBefore?, next]
    exact Joining.joinSegment_erased bus found erased
  · obtain ⟨w', found', turn⟩ := Joining.joinSegment_turn bus found kind (by simpa using erased)
    rw [← next] at found' turn
    exact ⟨w', found', .turn bus here (by simpa using erased) turn⟩

theorem WireSince.next {w w' : Line} (since : WireSince s k wire w) (next : NextTurn s k w w') :
    WireSince s (k + 1) wire w' := by
  have later := s.joinedUpTo_next k
  cases next with
  | still same _ =>
    rw [same]
    exact ⟨since.kind, since.level, since.upright, fun erased => (since.spanned erased).widen (.refl _) later⟩
  | turn _ _ alive turn =>
    refine ⟨turn.kind.trans since.kind, fun level => ?_, fun upright => ?_, fun erased => ?_⟩
    · obtain ⟨still, alive⟩ := since.level level
      obtain ⟨still', same⟩ := turn.level still
      exact ⟨still', same.trans alive⟩
    · obtain ⟨still, alive⟩ := since.upright upright
      obtain ⟨still', same⟩ := turn.upright still
      exact ⟨still', same.trans alive⟩
    · rcases turn.spanned erased with gone | spans
      · simp [alive] at gone
      · exact spans.widen (s.joinedUpTo_joinedTo k) (.refl _)

theorem wireSince (member : number ∈ s.wires) (found : s.lines[number]? = some wire) (k : Nat) :
    ∃ w, s.wireBefore? number k = some w ∧ WireSince s k wire w := by
  induction k with
  | zero =>
    obtain ⟨same, here, kind, alive⟩ := mem_wires.1 member
    obtain rfl : wire = same := Option.some.inj (found.symm.trans here)
    exact ⟨wire, found, kind, fun level => ⟨level, alive⟩, fun upright => ⟨upright, alive⟩,
      fun erased => by simp [alive] at erased⟩
  | succ k ih =>
    obtain ⟨w, here, since⟩ := ih
    obtain ⟨w', here', next⟩ := nextTurn here since.kind
    exact ⟨w', here', since.next next⟩

/-! ## Where a wire's end comes to -/

/-- Where an end of a wire is before the turn of the bus of a given number. -/
def endBefore? (s : Sheet) (number : Nat) (e : LineEnd) (k : Nat) : Option Point :=
  (s.wireBefore? number k).map (·.atEnd e)

theorem endBefore?_start (found : s.lines[number]? = some wire) : s.endBefore? number e 0 = some (wire.atEnd e) := by
  have here : s.wireBefore? number 0 = some wire := found
  rw [endBefore?, here]
  rfl

/-- A bus of the sheet that an end of a wire lies on, slanted or perpendicular to it. -/
structure EndsOn (s : Sheet) (wire : Line) (e : LineEnd) (bus : Segment) : Prop where
  member : bus ∈ s.busSegments
  meets : wire.segment.Meets bus
  touches : bus.hits (wire.atEnd e)

/-- Before the turn of some bus that the end lies on, the wire still meets it, or is erased. -/
def Reaches (s : Sheet) (number : Nat) (wire : Line) (e : LineEnd) : Prop :=
  ∃ k bus w, s.busSegments[k]? = some bus ∧ s.EndsOn wire e bus ∧ s.wireBefore? number k = some w ∧
    (w.erased ∨ w.segment.Meets bus)

/-- Once the end has moved it stays. -/
def MovesOnce (s : Sheet) (number : Nat) (e : LineEnd) : Prop :=
  ∀ l ≤ s.busSegments.length, ∀ k ≤ l, s.endBefore? number e k ≠ s.endBefore? number e 0 →
    s.endBefore? number e l = s.endBefore? number e k

/-- A bus that the wire meets in its turn met it from the start; a wire along an axis still runs along it. -/
theorem WireSince.meets {w : Line} {bus : Segment} (since : WireSince s k wire w) (meets : w.segment.Meets bus) :
    wire.segment.Meets bus ∧
      (wire.segment.isHorizontal || wire.segment.isVertical → perpendicular w.segment bus) := by
  have line : bus.a ≠ bus.b := meets.2.1
  by_cases level : wire.segment.a.y = wire.segment.b.y
  · have still : w.segment.a.y = w.segment.b.y := (since.level level).1
    obtain ⟨flat, upright⟩ := meets.of_level still
    have wide : wire.segment.a.x ≠ wire.segment.b.x := fun same =>
      (Segment.isHorizontal_iff.1 flat).2 (since.upright same).1
    refine ⟨⟨fun same => wide (congrArg Point.x same), line, .inl ?_⟩, fun _ => ?_⟩
    · exact perpendicular_iff.2 (.inl ⟨Segment.isHorizontal_iff.2 ⟨level, wide⟩, upright⟩)
    · exact perpendicular_iff.2 (.inl ⟨flat, upright⟩)
  by_cases upright : wire.segment.a.x = wire.segment.b.x
  · have still : w.segment.a.x = w.segment.b.x := (since.upright upright).1
    obtain ⟨tall, flat⟩ := meets.of_upright still
    refine ⟨⟨fun same => level (congrArg Point.y same), line, .inl ?_⟩, fun _ => ?_⟩
    · exact perpendicular_iff.2 (.inr ⟨Segment.isVertical_iff.2 ⟨upright, level⟩, flat⟩)
    · exact perpendicular_iff.2 (.inr ⟨tall, flat⟩)
  · have sloping : ¬ (wire.segment.isHorizontal || wire.segment.isVertical) := by
      simp [Segment.isHorizontal, Segment.isVertical, level, upright]
    exact ⟨⟨fun same => level (congrArg Point.y same), line, .inr sloping⟩, fun along => absurd along sloping⟩

/-- What changes at some turn changes at some turn first. -/
private theorem first_change {P : Nat → Prop} {n : Nat} (start : P 0) (changed : ¬ P n) :
    ∃ k, P k ∧ ¬ P (k + 1) := by
  induction n with
  | zero => exact absurd start changed
  | succ n ih =>
    by_cases here : P n
    · exact ⟨n, here, changed⟩
    · exact ih here

theorem erased_stays {w : Line} {l : Nat} (found : s.wireBefore? number k = some w) (erased : w.erased)
    (later : k ≤ l) : s.wireBefore? number l = some w := by
  obtain ⟨d, rfl⟩ := Nat.exists_eq_add_of_le later
  clear later
  induction d with
  | zero => exact found
  | succ d ih =>
    rw [wireBefore?, ← Nat.add_assoc]
    by_cases beyond : s.busSegments.length ≤ k + d
    · rw [joinedUpTo_stop beyond]
      exact ih
    · rw [joinedUpTo_succ (List.getElem?_eq_getElem (Nat.lt_of_not_le beyond))]
      exact Joining.joinSegment_erased _ ih erased

theorem joinedUpTo_mono {l : Nat} (later : k ≤ l) :
    (s.joinedUpTo k).sheet.JoinedTo s.busSegments (s.joinedUpTo l).sheet := by
  obtain ⟨d, rfl⟩ := Nat.exists_eq_add_of_le later
  clear later
  induction d with
  | zero => exact .refl _
  | succ d ih => exact ih.trans (s.joinedUpTo_next (k + d))

/-- An end that has left the point where it was drawn was first joined there, to a bus it lies on. -/
theorem joined_of_moved {n : Nat} (member : number ∈ s.wires) (found : s.lines[number]? = some wire)
    (moved : s.endBefore? number e n ≠ some (wire.atEnd e)) :
    ∃ k bus w, k < s.busSegments.length ∧ s.EndsOn wire e bus ∧
      (wire.segment.isHorizontal || wire.segment.isVertical → ¬ bus.Cramped (wire.atEnd e)) ∧
      s.wireBefore? number (k + 1) = some w ∧ w.atEnd e ≠ wire.atEnd e ∧
      s.JoinsEnd (s.joinedUpTo (k + 1)).sheet bus w e := by
  obtain ⟨k, stands, leaves⟩ :=
    first_change (P := fun k => s.endBefore? number e k = some (wire.atEnd e)) (endBefore?_start found) moved
  obtain ⟨w, here, since⟩ := wireSince member found k
  obtain ⟨w', here', next⟩ := nextTurn here since.kind
  simp only [endBefore?, here, here', Option.map_some, Option.some.injEq] at stands leaves
  cases next with
  | still same _ => exact absurd (same ▸ stands) leaves
  | turn bus isBus _ turn =>
    cases turn.ends e with
    | untouched _ same => exact absurd (same.trans stands) leaves
    | marked _ _ _ _ same => exact absurd (same ▸ stands) leaves
    | joined meets touches room _ entry =>
      obtain ⟨met, along⟩ := since.meets meets
      rw [stands] at touches room
      exact ⟨k, bus, w', (List.getElem?_eq_some_iff.1 isBus).1, ⟨List.mem_of_getElem? isBus, met, touches⟩,
        fun axis => room (along axis), here', leaves, entry.widen (s.joinedUpTo_joinedTo k) (.refl _)⟩

/-- No two points of a bus along an axis are diagonal to each other. -/
theorem not_diagonal {bus : Segment} {p q : Point} (axis : bus.isHorizontal || bus.isVertical) (hit : bus.hits p)
    (hit' : bus.hits q) : ¬ p.IsDiagonal q := by
  have step := grid_pos
  rintro ⟨across, along⟩
  rcases Bool.or_eq_true_iff.1 axis with level | upright
  · have here := ((Segment.hits_of_isHorizontal level).1 hit).1
    have there := ((Segment.hits_of_isHorizontal level).1 hit').1
    omega
  · have here := ((Segment.hits_of_isVertical upright).1 hit).1
    have there := ((Segment.hits_of_isVertical upright).1 hit').1
    omega

/-- The two points that a new entry runs between are diagonal to each other. -/
theorem JoinedTo.isDiagonal {buses : List Segment} {before after : Sheet} {entry : BusEntry} {p q : Point}
    (joined : before.JoinedTo buses after) (member : entry ∈ after.entries.drop before.entries.length)
    (joins : entry.Joins p q) : p.IsDiagonal q := by
  obtain ⟨added, same, diagonal⟩ := joined.entries
  rw [same, List.drop_left] at member
  obtain ⟨a, b, apart, runs⟩ := diagonal entry member
  rcases joins with ⟨rfl, rfl⟩ | ⟨rfl, rfl⟩ <;> rcases runs with ⟨rfl, rfl⟩ | ⟨rfl, rfl⟩
  · exact apart
  · exact Point.isDiagonal_comm apart
  · exact Point.isDiagonal_comm apart
  · exact apart

theorem JoinedTo.cramped {buses : List Segment} {before after : Sheet} {p : Point}
    (joined : before.JoinedTo buses after) (marked : before.MarksPoint after p) : ∃ bus ∈ buses, bus.Cramped p := by
  obtain ⟨added, same, cramped⟩ := joined.markers
  obtain ⟨note, member, _, _, rfl⟩ := marked
  rw [same, List.drop_left] at member
  exact (cramped note member).2.2

/-- The end is joined to a bus it lies on. -/
def Joined (s : Sheet) (wire final : Line) (e : LineEnd) : Prop :=
  ∃ bus, s.EndsOn wire e bus ∧ s.JoinsEnd s.joinBuses.sheet bus final e

/-- An end that stands where it was drawn when all is joined was marked there, or its wire was erased. -/
theorem settled_of_still {final : Line} (member : number ∈ s.wires) (found : s.lines[number]? = some wire)
    (ended : s.wireBefore? number s.busSegments.length = some final) (reaches : s.Reaches number wire e)
    (still : ∀ k, s.endBefore? number e k = some (wire.atEnd e)) :
    s.Joined wire final e ∨ s.MarksPoint s.joinBuses.sheet (wire.atEnd e) := by
  obtain ⟨k, bus, w, isBus, endsOn, here, reached⟩ := reaches
  have inside : k < s.busSegments.length := (List.getElem?_eq_some_iff.1 isBus).1
  have whole := joinedUpTo_of_length_le (Nat.le_refl s.busSegments.length)
  have stands : w.atEnd e = wire.atEnd e := by simpa [endBefore?, here] using still k
  obtain ⟨same, again, since⟩ := wireSince member found k
  obtain rfl : w = same := Option.some.inj (here.symm.trans again)
  by_cases gone : w.erased
  · obtain rfl : w = final := Option.some.inj ((erased_stays here gone (Nat.le_of_lt inside)).symm.trans ended)
    obtain ⟨entry, new, runs⟩ := (since.spanned gone).widen (.refl _) (joinedUpTo_mono (Nat.le_of_lt inside))
    rw [whole] at new
    refine .inl ⟨bus, endsOn, entry, new, w.atEnd e, by rw [stands]; exact endsOn.touches, .inr ⟨gone, rfl, ?_⟩⟩
    cases e with
    | start => exact runs
    | stop => exact BusEntry.joins_comm runs
  · obtain ⟨w', here', next⟩ := nextTurn here since.kind
    have stays : w'.atEnd e = wire.atEnd e := by simpa [endBefore?, here'] using still (k + 1)
    cases next with
    | still _ left => exact absurd left (by simp [gone, inside])
    | turn bus' isBus' _ turn =>
      obtain rfl : bus = bus' := Option.some.inj (isBus.symm.trans isBus')
      cases turn.ends e with
      | untouched away _ => exact absurd ⟨reached.resolve_left gone, by rw [stands]; exact endsOn.touches⟩ away
      | marked _ _ _ marker _ =>
        have marked := marker.widen (s.joinedUpTo_joinedTo k) (joinedUpTo_mono inside)
        rw [whole, stands] at marked
        exact .inr marked
      | joined _ _ _ moved entry =>
        have erased : w'.erased := moved.resolve_left fun leaves => leaves (stays.trans stands.symm)
        obtain rfl : w' = final := Option.some.inj ((erased_stays here' erased inside).symm.trans ended)
        have joined := entry.widen (s.joinedUpTo_joinedTo k) (joinedUpTo_mono inside)
        rw [whole] at joined
        exact .inl ⟨bus, endsOn, joined⟩

/-- An end that its wire reaches and that moves once at most is joined where it has moved to, or marked. -/
theorem joined_or_marked {final : Line} (member : number ∈ s.wires) (found : s.lines[number]? = some wire)
    (ended : s.wireBefore? number s.busSegments.length = some final) (reaches : s.Reaches number wire e)
    (once : s.MovesOnce number e) :
    s.Joined wire final e ∨ s.MarksPoint s.joinBuses.sheet (wire.atEnd e) := by
  by_cases still : ∀ k, s.endBefore? number e k = some (wire.atEnd e)
  · exact settled_of_still member found ended reaches still
  · obtain ⟨n, moved⟩ := Classical.not_forall.1 still
    obtain ⟨k, bus, w, inside, endsOn, _, here, leaves, joins⟩ := joined_of_moved member found moved
    have hereEnd : s.endBefore? number e (k + 1) = some (w.atEnd e) := by rw [endBefore?, here]; rfl
    have finalEnd : s.endBefore? number e s.busSegments.length = some (final.atEnd e) := by rw [endBefore?, ended]; rfl
    have leavesStart : s.endBefore? number e (k + 1) ≠ s.endBefore? number e 0 := by
      rw [hereEnd, endBefore?_start found]
      simpa using leaves
    have same : final.atEnd e = w.atEnd e := by
      have stays := once s.busSegments.length (Nat.le_refl _) (k + 1) inside leavesStart
      rw [finalEnd, hereEnd] at stays
      exact Option.some.inj stays
    obtain ⟨entry, new, p, hit, runs⟩ := joins.widen (.refl _) (joinedUpTo_mono inside)
    rw [joinedUpTo_of_length_le (Nat.le_refl s.busSegments.length)] at new
    refine .inl ⟨bus, endsOn, entry, new, p, hit, ?_⟩
    rcases runs with runs | ⟨erased, runs⟩
    · exact .inl (same ▸ runs)
    · obtain rfl : w = final := Option.some.inj ((erased_stays here erased inside).symm.trans ended)
      exact .inr ⟨erased, runs⟩

/-- An end of a wire along an axis that is joined lies on a bus with room. -/
theorem room_of_joined {final : Line} (member : number ∈ s.wires) (found : s.lines[number]? = some wire)
    (ended : s.wireBefore? number s.busSegments.length = some final)
    (since : WireSince s s.busSegments.length wire final) (joined : s.Joined wire final e)
    (axis : wire.segment.isHorizontal || wire.segment.isVertical) :
    ∃ bus, s.EndsOn wire e bus ∧ ¬ bus.Cramped (wire.atEnd e) := by
  by_cases stays : final.atEnd e = wire.atEnd e
  · -- the entry would run between two points of one bus along an axis
    exfalso
    obtain ⟨bus, endsOn, entry, new, p, hit, runs⟩ := joined
    obtain ⟨alive, busAxis⟩ : final.erased = false ∧ (bus.isHorizontal || bus.isVertical) := by
      rcases Bool.or_eq_true_iff.1 axis with flat | tall
      · have level : wire.start.y = wire.stop.y := (Segment.isHorizontal_iff.1 flat).1
        exact ⟨(since.level level).2, by simp [(endsOn.meets.of_level level).2]⟩
      · have upright : wire.start.x = wire.stop.x := (Segment.isVertical_iff.1 tall).1
        exact ⟨(since.upright upright).2, by simp [(endsOn.meets.of_upright upright).2]⟩
    rcases runs with runs | ⟨erased, _⟩
    · rw [stays] at runs
      exact not_diagonal busAxis hit endsOn.touches (s.joinBuses_joinedTo.isDiagonal new runs)
    · simp [alive] at erased
  · have moved : s.endBefore? number e s.busSegments.length ≠ some (wire.atEnd e) := by
      rw [endBefore?, ended]
      simpa using stays
    obtain ⟨_, bus, _, _, endsOn, room, _⟩ := joined_of_moved member found moved
    exact ⟨bus, endsOn, room axis⟩

/-- Every end of a wire on a bus that its wire reaches, and that moves once at most, is joined to
    such a bus or marked where it was drawn. It is marked only where a bus is too short for an
    entry, and an end of a wire along an axis is joined only where a bus it lies on has room. -/
theorem joinBuses_ends (s : Sheet) {number : Nat} {wire : Line} (e : LineEnd) (member : number ∈ s.wires)
    (found : s.lines[number]? = some wire) :
    ∃ final, s.joinBuses.sheet.lines[number]? = some final ∧
      (s.Reaches number wire e → s.MovesOnce number e →
        s.Joined wire final e ∨ s.MarksPoint s.joinBuses.sheet (wire.atEnd e)) ∧
      (s.MarksPoint s.joinBuses.sheet (wire.atEnd e) → ∃ bus ∈ s.busSegments, bus.Cramped (wire.atEnd e)) ∧
      (s.Joined wire final e → wire.segment.isHorizontal || wire.segment.isVertical →
        ∃ bus, s.EndsOn wire e bus ∧ ¬ bus.Cramped (wire.atEnd e)) := by
  obtain ⟨final, ended, since⟩ := wireSince member found s.busSegments.length
  have whole := joinedUpTo_of_length_le (Nat.le_refl s.busSegments.length)
  exact ⟨final, by rw [← whole]; exact ended, joined_or_marked member found ended, s.joinBuses_joinedTo.cramped,
    room_of_joined member found ended since⟩

/-! ## Wires that are joined, joined and marked, and neither -/

/-- A sheet with nothing but lines. -/
def ofLines (lines : List Line) : Sheet :=
  { name := "", file := "", path := .root, library := "", project := "", page := ⟨none, Point.origin⟩, lines }

/-- A wire between two buses, each long enough for an entry. -/
def betweenBuses : Sheet := ofLines [
  { kind := .bus, start := ⟨0, 0⟩, stop := ⟨0, mils 1000⟩ },
  { kind := .bus, start := ⟨mils 1000, 0⟩, stop := ⟨mils 1000, mils 1000⟩ },
  { kind := .wire, start := ⟨0, mils 500⟩, stop := ⟨mils 1000, mils 500⟩ }]

theorem betweenBuses_ends :
    let wire : Line := { kind := .wire, start := ⟨0, mils 500⟩, stop := ⟨mils 1000, mils 500⟩ }
    2 ∈ betweenBuses.wires ∧ betweenBuses.lines[2]? = some wire ∧ betweenBuses.Reaches 2 wire .stop ∧
      betweenBuses.MovesOnce 2 .stop ∧ ∃ final, betweenBuses.joinBuses.sheet.lines[2]? = some final ∧
        (betweenBuses.Joined wire final .stop ∨
          betweenBuses.MarksPoint betweenBuses.joinBuses.sheet (wire.atEnd .stop)) := by
  intro wire
  have member : 2 ∈ betweenBuses.wires := by decide +kernel
  have found : betweenBuses.lines[2]? = some wire := rfl
  have reaches : betweenBuses.Reaches 2 wire .stop := by
    refine ⟨1, ⟨⟨mils 1000, 0⟩, ⟨mils 1000, mils 1000⟩⟩,
      { kind := .wire, start := ⟨mils 100, mils 500⟩, stop := ⟨mils 1000, mils 500⟩ }, rfl, ?_,
      by decide +kernel, .inr ⟨by decide, by decide, .inl rfl⟩⟩
    exact ⟨by decide +kernel, ⟨by decide, by decide, .inl rfl⟩, rfl⟩
  have once : betweenBuses.MovesOnce 2 .stop := by
    unfold MovesOnce
    decide +kernel
  obtain ⟨final, ended, settles, _⟩ := betweenBuses.joinBuses_ends .stop member found
  exact ⟨member, found, reaches, once, final, ended, settles reaches once⟩

/-- A wire that ends where two pieces of a bus meet; only the second piece is long enough. -/
def splitBus : Sheet := ofLines [
  { kind := .bus, start := ⟨0, 0⟩, stop := ⟨0, mils 50⟩ },
  { kind := .bus, start := ⟨0, 0⟩, stop := ⟨0, mils (-500)⟩ },
  { kind := .wire, start := ⟨0, 0⟩, stop := ⟨mils (-500), 0⟩ }]

/-- An end where two pieces of a bus meet can be both joined and marked. -/
theorem splitBus_both : ∃ (wire final : Line), 2 ∈ splitBus.wires ∧ splitBus.lines[2]? = some wire ∧
    splitBus.joinBuses.sheet.lines[2]? = some final ∧ (∃ bus, splitBus.EndsOn wire .start bus) ∧
    splitBus.Joined wire final .start ∧ splitBus.MarksPoint splitBus.joinBuses.sheet (wire.atEnd .start) := by
  have endsOn : splitBus.EndsOn { kind := .wire, start := ⟨0, 0⟩, stop := ⟨mils (-500), 0⟩ } .start
      ⟨⟨0, 0⟩, ⟨0, mils (-500)⟩⟩ := ⟨by decide +kernel, ⟨by decide, by decide, .inl rfl⟩, rfl⟩
  refine ⟨_, { kind := .wire, start := ⟨mils (-100), 0⟩, stop := ⟨mils (-500), 0⟩ }, by decide +kernel, rfl,
    by decide +kernel, ⟨_, endsOn⟩, ⟨_, endsOn, ⟨⟨mils (-100), 0⟩, ⟨mils 100, mils (-100)⟩⟩, by decide +kernel,
    ⟨0, mils (-100)⟩, rfl, .inl (.inr (by decide +kernel))⟩, ?_⟩
  exact ⟨{ text := entryNeeded, position := ⟨0, 0⟩, angle := 0, effects := .square textSize, isMarker := true },
    by decide +kernel, rfl, rfl, rfl⟩

end Sheet

end Redraft
