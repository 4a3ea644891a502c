import Redraft.Proofs.CarriedLabels

/-!
# Ends that wires share

Each end of a wire is drawn back on its own. Two ends at one point stay together
until, in the turn of a bus through that point, their steps differ.
-/

namespace Redraft
open Joining Drafting

namespace Line
variable {l : Line} {bus : Segment} {e f : LineEnd}

theorem across_atEnd_of_away (away : ¬ bus.hits (l.atEnd e)) (f : LineEnd) :
    (l.across bus f).wire.atEnd e = l.atEnd e := by
  by_cases same : f = e
  · rw [same, across_away away]
    rfl
  · simp only [across]
    split
    · cases e <;> cases f <;> first | rfl | exact absurd rfl same
    · rfl

theorem aslant_atEnd_of_away (away : ¬ bus.hits (l.atEnd e)) (f : LineEnd) :
    (l.aslant bus f).wire.atEnd e = l.atEnd e := by
  by_cases same : f = e
  · simp [aslant, same, away, still]
  · simp only [aslant]
    split
    · rfl
    · split
      · cases e <;> rfl
      · cases e <;> cases f <;> first | rfl | exact absurd rfl same

/-- In the turn of a bus an end off the bus stays. -/
theorem turn_atEnd_of_away (away : ¬ bus.hits (l.atEnd e)) : (l.turn bus).wire.atEnd e = l.atEnd e := by
  have twice {g : LineEnd → Line → Retreat}
      (stays : ∀ (k : Line) (f : LineEnd), ¬ bus.hits (k.atEnd e) → (g f k).wire.atEnd e = k.atEnd e) :
      ((g .start l).andThen (g .stop)).wire.atEnd e = l.atEnd e := by
    have first := stays l .start away
    exact (stays _ .stop (first ▸ away)).trans first
  simp only [turn]
  split
  · rfl
  · split
    · exact twice fun k f away => across_atEnd_of_away away f
    · split
      · rfl
      · exact twice fun k f away => aslant_atEnd_of_away away f

theorem across_atEnd (l : Line) (bus : Segment) (e : LineEnd) :
    (l.across bus e).wire.atEnd e = if bus.hits (l.atEnd e) && bus.hasRoom (l.atEnd e)
      then l.atEnd e + (l.heading e).scale grid else l.atEnd e := by
  simp only [across]
  split
  · cases e <;> rfl
  · rfl

theorem turn_perpendicular (live : l.live) (long : bus.a ≠ bus.b) (perp : perpendicular l.segment bus) :
    l.turn bus = (l.across bus .start).andThen (across bus .stop) := by
  have wide : l.segment.a ≠ l.segment.b := by
    intro point
    rcases perpendicular_iff.1 perp with ⟨level, _⟩ | ⟨upright, _⟩
    · exact (Segment.isHorizontal_iff.1 level).2 (congrArg Point.x point)
    · exact (Segment.isVertical_iff.1 upright).2 (congrArg Point.y point)
  simp [turn, live, long, perp, wide]

theorem turn_slanted (live : l.live) (wide : l.start ≠ l.stop) (long : bus.a ≠ bus.b)
    (aside : ¬ perpendicular l.segment bus) (slanted : ¬ (l.segment.isHorizontal || l.segment.isVertical)) :
    l.turn bus = (l.aslant bus .start).andThen (aslant bus .stop) := by
  have apart : l.segment.a ≠ l.segment.b := wide
  simp only [Bool.not_eq_true] at aside slanted
  simp [turn, live, long, apart, aside, slanted]

/-- The line when the turn of a bus comes to one of its ends. -/
def reached (l : Line) (bus : Segment) : LineEnd → Line
  | .start => l
  | .stop => (l.aslant bus .start).wire

/-- How far an end on a bus is drawn back in its turn: a grid step toward the other end if the wire
    is perpendicular to the bus and the bus has room, a step along both axes if it is slanted. -/
def step? (l : Line) (bus : Segment) (e : LineEnd) : Option Point :=
  if !l.live || l.start = l.stop || bus.a = bus.b then none
  else if perpendicular l.segment bus then
    if bus.hasRoom (l.atEnd e) then some ((l.heading e).scale grid) else none
  else if l.segment.isHorizontal || l.segment.isVertical then none
  else
    let way := (l.reached bus e).farEnd e - l.atEnd e
    some ⟨stepToward way.x, stepToward way.y⟩

/-- In the turn of a bus an end of a perpendicular wire goes toward the other end, if it is on the
    bus and the bus has room. -/
theorem turn_perpendicular_atEnd (live : l.live) (long : bus.a ≠ bus.b) (perp : perpendicular l.segment bus)
    (touches : bus.hits (l.atEnd e)) :
    (l.turn bus).wire.atEnd e =
      if bus.hasRoom (l.atEnd e) then l.atEnd e + (l.heading e).scale grid else l.atEnd e := by
  have far : ¬ bus.hits (l.farEnd e) := far_away perp touches
  have here := across_atEnd l bus e
  simp only [touches, Bool.true_and] at here
  rw [turn_perpendicular live long perp, ← here]
  cases e with
  | start =>
    -- the second retreat is of an end off the bus, so it does nothing
    change ¬ bus.hits (l.atEnd .stop) at far
    have away : ¬ bus.hits ((l.across bus .start).wire.atEnd .stop) := by
      rwa [across_atEnd_of_away far .start]
    simp only [Retreat.andThen, across_away away, still]
  | stop =>
    change ¬ bus.hits (l.atEnd .start) at far
    rw [across_away far]
    rfl

theorem aslant_farEnd (l : Line) (bus : Segment) (e : LineEnd) :
    (l.aslant bus e).wire.farEnd e = l.farEnd e := by
  simp only [aslant]
  split
  · rfl
  · split
    · cases e <;> rfl
    · cases e <;> rfl

theorem aslant_atEnd (touches : bus.hits (l.atEnd e)) (live : (l.aslant bus e).wire.live) :
    (l.aslant bus e).wire.atEnd e =
      l.atEnd e + ⟨stepToward (l.farEnd e - l.atEnd e).x, stepToward (l.farEnd e - l.atEnd e).y⟩ := by
  revert live
  simp only [aslant, touches, Bool.not_true, Bool.or_false]
  split
  · rename_i dead
    simp [still, Line.live, dead]
  · split
    · simp [erase, Line.live]
    · intro _
      cases e <;> rfl

theorem aslant_live (live : (l.aslant bus e).wire.live) : l.live := by
  revert live
  simp only [aslant]
  split
  · exact id
  · split
    · simp [erase, Line.live]
    · cases e <;> exact id

/-- In the turn of a bus an end on it goes its step. -/
theorem turn_atEnd (touches : bus.hits (l.atEnd e)) (live : (l.turn bus).wire.live) :
    (l.turn bus).wire.atEnd e = (l.step? bus e).elim (l.atEnd e) (l.atEnd e + ·) := by
  unfold step?
  split
  · rename_i skip
    have stays : l.turn bus = l.still := if_pos skip
    rw [stays]
    rfl
  · rename_i moves
    simp only [Bool.or_eq_true, Bool.not_eq_true', decide_eq_true_eq, not_or, Bool.not_eq_false] at moves
    obtain ⟨⟨alive, wide⟩, long⟩ := moves
    split
    · rename_i perp
      rw [turn_perpendicular_atEnd alive long perp touches]
      split <;> rfl
    · rename_i aside
      split
      · rename_i level
        have stays : l.turn bus = l.still := by
          simp only [Bool.not_eq_true] at aside
          simp [turn, aside, level]
        rw [stays]
        rfl
      · rename_i slanted
        rw [turn_slanted alive wide long aside slanted] at live ⊢
        have first : (l.aslant bus .start).wire.live := aslant_live live
        cases e with
        | start =>
          exact (aslant_farEnd (l.aslant bus .start).wire bus .stop).trans (aslant_atEnd touches first)
        | stop =>
          have here : (l.aslant bus .start).wire.atEnd .stop = l.atEnd .stop := aslant_farEnd l bus .start
          have next := aslant_atEnd (here ▸ touches) live
          rw [here] at next
          exact next

theorem after_live {buses : List Segment} (live : (l.after buses).live) : l.live := by
  induction buses generalizing l with
  | nil => exact live
  | cons bus buses ih =>
    have turned : (l.turn bus).wire.live := ih live
    refine Classical.byContradiction fun dead => ?_
    rw [Line.turn_of_dead (Bool.eq_false_iff.2 dead)] at turned
    exact dead turned

/-- Two ends at one point are drawn back differently in the turn of a bus that they are on. -/
structure PartIn (l k : Line) (e f : LineEnd) (bus : Segment) : Prop where
  shared : l.atEnd e = k.atEnd f
  touches : bus.hits (l.atEnd e)
  steps : l.step? bus e ≠ k.step? bus f
  parted : (l.turn bus).wire.atEnd e ≠ (k.turn bus).wire.atEnd f

/-- Ends that are together before the turns of some buses, but not after, part in one of them. -/
theorem partIn_of_after {k : Line} {buses : List Segment} (shared : l.atEnd e = k.atEnd f)
    (live : (l.after buses).live) (live' : (k.after buses).live)
    (parted : (l.after buses).atEnd e ≠ (k.after buses).atEnd f) :
    ∃ before bus later, buses = before ++ bus :: later ∧ (l.after before).PartIn (k.after before) e f bus := by
  induction buses generalizing l k with
  | nil => exact absurd shared parted
  | cons bus buses ih =>
    by_cases together : (l.turn bus).wire.atEnd e = (k.turn bus).wire.atEnd f
    · obtain ⟨before, next, later, split, parts⟩ := ih together live live' parted
      exact ⟨bus :: before, next, later, by rw [split]; rfl, parts⟩
    · have touches : bus.hits (l.atEnd e) := by
        -- off the bus both ends would stay where they are
        refine Classical.byContradiction fun away => together ?_
        have stays : (l.turn bus).wire.atEnd e = l.atEnd e := turn_atEnd_of_away away
        have stays' : (k.turn bus).wire.atEnd f = k.atEnd f := turn_atEnd_of_away (shared ▸ away)
        rw [stays, stays', shared]
      refine ⟨[], bus, buses, rfl, shared, touches,
        fun (same : l.step? bus e = k.step? bus f) => together ?_, together⟩
      have goes := turn_atEnd touches (after_live live)
      have goes' := turn_atEnd (shared ▸ touches) (after_live live')
      rw [goes, goes', same, shared]

end Line

/-- Two ends that wires share are still together when all wires are joined to all buses, unless a
    wire is erased or they are drawn back differently in the turn of a bus that they are on. -/
theorem Sheet.joinBuses_shared_ends {s : Sheet} {n m : Nat} {l k : Line} {e f : LineEnd}
    (one : s.lines[n]? = some l) (other : s.lines[m]? = some k) (shared : l.atEnd e = k.atEnd f) :
    let l' := l.after s.busSegments
    let k' := k.after s.busSegments
    s.joinBuses.sheet.lines[n]? = some l' ∧ s.joinBuses.sheet.lines[m]? = some k' ∧
      (l'.live → k'.live → l'.atEnd e = k'.atEnd f ∨ ∃ before bus later,
        s.busSegments = before ++ bus :: later ∧ (l.after before).PartIn (k.after before) e f bus) := by
  refine ⟨by simp [joinBuses_lines, one], by simp [joinBuses_lines, other], fun live live' => ?_⟩
  by_cases together : (l.after s.busSegments).atEnd e = (k.after s.busSegments).atEnd f
  · exact .inl together
  · exact .inr (Line.partIn_of_after shared live live' together)

/-- A sheet on which one segment of a net has a wire to each side of a bus, from one point of it. -/
def forkedSheet : Eagle.Sheet where
  description := none
  plain := []
  instances := []
  buses := [⟨"D", [⟨[busWire ⟨0, 0⟩ ⟨0, mils 1000⟩], [], []⟩]⟩]
  nets := [⟨"X", [⟨[netWire ⟨0, 0⟩ ⟨mils 1000, 0⟩, netWire ⟨0, 0⟩ ⟨-mils 1000, 0⟩], [], []⟩]⟩]

def forkedNet : Eagle.Schematic where
  layers := [(91, "Nets"), (92, "Busses")]
  sheets := [forkedSheet]

theorem forkedNet_parted : ∃ c report, ∃ connected : Desk,
    Context.ofDocument forkedNet "demo" "demo" = .ok (c, report) ∧
    Ends (drawConnections c forkedSheet)
      ⟨c.newSheet "demo" "demo.kicad_sch" .root ⟨some "A4", ⟨2970000, 2100000⟩⟩, report, []⟩ () connected ∧
    forkedSheet.wireOwners = [0, 1, 1] ∧
    connected.sheet.lines = [⟨.bus, ⟨0, 0⟩, ⟨0, -mils 1000⟩, false⟩, ⟨.wire, ⟨0, 0⟩, ⟨mils 1000, 0⟩, false⟩,
      ⟨.wire, ⟨0, 0⟩, ⟨-mils 1000, 0⟩, false⟩] ∧
    connected.sheet.joinBuses.sheet.lines = [⟨.bus, ⟨0, 0⟩, ⟨0, -mils 1000⟩, false⟩,
      ⟨.wire, ⟨mils 100, 0⟩, ⟨mils 1000, 0⟩, false⟩, ⟨.wire, ⟨-mils 100, 0⟩, ⟨-mils 1000, 0⟩, false⟩] := by
  have checked : (Context.ofDocument forkedNet "demo" "demo").toOption.any (fun shared =>
      let drawn := (drawConnections shared.1 forkedSheet).outcome
        ⟨shared.1.newSheet "demo" "demo.kicad_sch" .root ⟨some "A4", ⟨2970000, 2100000⟩⟩, shared.2, []⟩
      drawn.1.toBool && decide (forkedSheet.wireOwners = [0, 1, 1] ∧
        drawn.2.sheet.lines = [⟨.bus, ⟨0, 0⟩, ⟨0, -mils 1000⟩, false⟩, ⟨.wire, ⟨0, 0⟩, ⟨mils 1000, 0⟩, false⟩,
          ⟨.wire, ⟨0, 0⟩, ⟨-mils 1000, 0⟩, false⟩] ∧
        drawn.2.sheet.joinBuses.sheet.lines = [⟨.bus, ⟨0, 0⟩, ⟨0, -mils 1000⟩, false⟩,
          ⟨.wire, ⟨mils 100, 0⟩, ⟨mils 1000, 0⟩, false⟩,
          ⟨.wire, ⟨-mils 100, 0⟩, ⟨-mils 1000, 0⟩, false⟩])) = true := by decide +kernel
  have drawn := (Option.any_eq_true ..).1 checked
  obtain ⟨⟨c, report⟩, shared, holds⟩ := drawn
  simp only [Bool.and_eq_true, decide_eq_true_eq] at holds
  exact ⟨c, report, _, ok_of_toOption shared, .of_toBool holds.1, holds.2⟩

def Line.Meets (l k : Line) : Prop := ∃ e f, l.atEnd e = k.atEnd f

/-- Two wires of one segment that meet on a bus may have no end in common when they are joined to it. -/
theorem not_all_shared_ends_kept : ¬ ∀ (document : Eagle.Schematic) (library project name file : String)
    (c : Context) (e : Eagle.Sheet) (path : SheetPath) (page : Page) (shared report : Report) (units : UnitRecord)
    (connected : Desk), Context.ofDocument document library project = .ok (c, shared) → e ∈ document.sheets →
    Ends (drawConnections c e) ⟨c.newSheet name file path page, report, units⟩ () connected →
    ∀ (i n m : Nat) (l k l' k' : Line), n ≠ m → e.wireOwners[n]? = some i → e.wireOwners[m]? = some i →
      connected.sheet.lines[n]? = some l → connected.sheet.lines[m]? = some k → l.live → k.live → l.Meets k →
      connected.sheet.joinBuses.sheet.lines[n]? = some l' → connected.sheet.joinBuses.sheet.lines[m]? = some k' →
      l'.live → k'.live → l'.Meets k' := by
  intro claim
  obtain ⟨c, report, connected, shared, ran, owners, before, after⟩ := forkedNet_parted
  obtain ⟨e, f, meets⟩ := claim _ _ _ _ _ c _ _ _ _ _ _ connected shared (.head _) ran 1 1 2
    ⟨.wire, ⟨0, 0⟩, ⟨mils 1000, 0⟩, false⟩ ⟨.wire, ⟨0, 0⟩, ⟨-mils 1000, 0⟩, false⟩
    ⟨.wire, ⟨mils 100, 0⟩, ⟨mils 1000, 0⟩, false⟩ ⟨.wire, ⟨-mils 100, 0⟩, ⟨-mils 1000, 0⟩, false⟩ (by decide)
    (by rw [owners]; rfl) (by rw [owners]; rfl) (by rw [before]; rfl) (by rw [before]; rfl) rfl rfl
    ⟨.start, .start, rfl⟩ (by rw [after]; rfl) (by rw [after]; rfl) rfl rfl
  revert meets
  cases e <;> cases f <;> decide

/-- The two wires start together, and part in the turn of the bus. -/
theorem forkedNet_shared_ends : ∃ connected : Desk,
    let l : Line := ⟨.wire, ⟨0, 0⟩, ⟨mils 1000, 0⟩, false⟩
    let k : Line := ⟨.wire, ⟨0, 0⟩, ⟨-mils 1000, 0⟩, false⟩
    connected.sheet.lines[1]? = some l ∧ connected.sheet.lines[2]? = some k ∧
    ∃ before bus later, connected.sheet.busSegments = before ++ bus :: later ∧
      (l.after before).PartIn (k.after before) .start .start bus := by
  obtain ⟨c, report, connected, _, _, _, before, after⟩ := forkedNet_parted
  have one : connected.sheet.lines[1]? = some ⟨.wire, ⟨0, 0⟩, ⟨mils 1000, 0⟩, false⟩ := by rw [before]; rfl
  have other : connected.sheet.lines[2]? = some ⟨.wire, ⟨0, 0⟩, ⟨-mils 1000, 0⟩, false⟩ := by rw [before]; rfl
  obtain ⟨moved, moved', parts⟩ := Sheet.joinBuses_shared_ends (e := .start) (f := .start) one other rfl
  rw [after] at moved moved'
  refine ⟨connected, one, other, ?_⟩
  rw [← Option.some.inj moved, ← Option.some.inj moved'] at parts
  rcases parts rfl rfl with together | parted
  · exact absurd together (by decide)
  · exact parted

end Redraft
