import Redraft.Proofs.SharedEnds
import Redraft.Proofs.WireEnds

/-!
# What joining to buses leaves alone

Joining may draw an end of a wire back only where that end stood on a bus from
the start, and erase a wire only while it covers one grid square. The entries
that are counted are those added, each over a grid square from a point of a bus.
-/

namespace Redraft
open Joining

/-- The entry runs to the right over one grid square, and begins or ends on the bus. -/
structure BusEntry.Taps (entry : BusEntry) (bus : Segment) : Prop where
  width : entry.size.x = grid
  height : entry.size.y = grid ∨ entry.size.y = -grid
  touches : bus.hits entry.position ∨ bus.hits (entry.position + entry.size)

theorem BusEntry.between_taps {bus : Segment} {p q : Point} (diagonal : p.IsDiagonal q)
    (touches : bus.hits p ∨ bus.hits q) : (BusEntry.between p q).Taps bus := by
  obtain ⟨across, along⟩ := diagonal
  have joins := BusEntry.between_joins p q
  have step := grid_pos
  refine ⟨?_, ?_, ?_⟩
  · simp only [between]
    split <;> simp only [Point.sub_x] <;> omega
  · simp only [between]
    split <;> simp only [Point.sub_y] <;> omega
  · rcases joins with ⟨first, last⟩ | ⟨first, last⟩
    · rwa [last, first]
    · rw [last, first]
      exact touches.symm

/-! ## The entries that are counted -/

/-- What was counted since are the entries that were added, each from one of the buses. -/
def Joining.Counts (buses : List Segment) (before after : Joining) : Prop :=
  ∃ added, after.sheet.entries = before.sheet.entries ++ added ∧ after.count = before.count + added.length ∧
    ∀ entry ∈ added, ∃ bus ∈ buses, bus.a ≠ bus.b ∧ entry.Taps bus

namespace Joining
variable {buses : List Segment} {bus : Segment} {j k m : Joining} {number : Nat} {wire : Line} {e : LineEnd}

theorem Counts.same (entries : k.sheet.entries = j.sheet.entries) (count : k.count = j.count) : Counts buses j k :=
  ⟨[], by rw [entries, List.append_nil], count, nofun⟩

theorem Counts.refl (j : Joining) : Counts buses j j := .same rfl rfl

theorem Counts.trans (first : Counts buses j k) (second : Counts buses k m) : Counts buses j m := by
  obtain ⟨added, entries, count, taps⟩ := first
  obtain ⟨more, moreEntries, moreCount, moreTaps⟩ := second
  refine ⟨added ++ more, ?_, ?_, List.forall_mem_append.2 ⟨taps, moreTaps⟩⟩
  · rw [moreEntries, entries, List.append_assoc]
  · rw [moreCount, count, List.length_append, Nat.add_assoc]

theorem Counts.mono {more : List Segment} (inside : buses ⊆ more) (counts : Counts buses j k) : Counts more j k := by
  obtain ⟨added, entries, count, taps⟩ := counts
  refine ⟨added, entries, count, fun entry member => ?_⟩
  obtain ⟨bus, isBus, taps⟩ := taps entry member
  exact ⟨bus, inside isBus, taps⟩

theorem Counts.one {entry : BusEntry} (long : bus.a ≠ bus.b) (taps : entry.Taps bus)
    (entries : k.sheet.entries = j.sheet.entries ++ [entry]) (count : k.count = j.count + 1) : Counts [bus] j k :=
  ⟨[entry], entries, count, fun _ member => ⟨bus, .head _, long, List.mem_singleton.1 member ▸ taps⟩⟩

theorem foldl_counts {α : Type} {f : Joining → α → Joining} {l : List α}
    (step : ∀ (k : Joining), ∀ a ∈ l, Counts buses k (f k a)) (j : Joining) : Counts buses j (l.foldl f j) := by
  induction l generalizing j with
  | nil => exact .refl _
  | cons a l ih => exact (step j a (.head _)).trans (ih (fun k b member => step k b (.tail _ member)) _)

theorem joinPerpendicular_counts (long : bus.a ≠ bus.b) (found : j.line? number = some wire)
    (perp : perpendicular wire.segment bus) : Counts [bus] j (joinPerpendicular bus number j e) := by
  by_cases touches : bus.hits (wire.atEnd e)
  · rcases joinPerpendicular_cases (e := e) found perp touches with ⟨_, same⟩ | ⟨back, along, way, joint, same⟩
    · rw [same]
      exact .same rfl rfl
    · rw [same]
      exact .one long (BusEntry.between_taps (way.isDiagonal _) (.inr joint)) rfl rfl
  · rw [joinPerpendicular_away found touches]
    exact .refl _

theorem joinSlanted_counts (long : bus.a ≠ bus.b) (j : Joining) (number : Nat) (e : LineEnd) :
    Counts [bus] j (joinSlanted bus number j e) := by
  cases found : j.line? number with
  | none =>
    simp only [joinSlanted, found]
    exact .refl _
  | some wire =>
    by_cases away : wire.erased ∨ ¬ bus.hits (wire.atEnd e)
    · rw [joinSlanted_away found away]
      exact .refl _
    · simp only [not_or, Bool.not_eq_true, Bool.not_eq_false] at away
      obtain ⟨target, diagonal, ⟨_, same⟩ | ⟨_, same⟩⟩ := joinSlanted_cases (e := e) found away.1 away.2
      · rw [same]
        exact .one long (BusEntry.between_taps diagonal (.inl away.2)) rfl rfl
      · rw [same]
        exact .one long (BusEntry.between_taps diagonal (.inl away.2)) rfl rfl

theorem joinWire_counts (long : bus.a ≠ bus.b) (j : Joining) (number : Nat) :
    Counts [bus] j (joinWire bus j number) := by
  cases found : j.line? number with
  | none =>
    simp only [joinWire, found]
    exact .refl _
  | some wire =>
    simp only [joinWire, found]
    split
    · exact .refl _
    · split
      · rename_i perp
        obtain ⟨_, same⟩ | ⟨e, _, same⟩ := joinEnds_perpendicular found perp
        · rw [same]
          exact .refl _
        · rw [same]
          exact joinPerpendicular_counts long found perp
      · split
        · exact .refl _
        · exact foldl_counts (fun k e _ => joinSlanted_counts long k number e) j

theorem joinSegment_counts (j : Joining) (bus : Segment) : Counts [bus] j (j.joinSegment bus) := by
  unfold joinSegment
  split
  · exact .refl _
  · rename_i long
    exact foldl_counts (fun k number _ => joinWire_counts long k number) j

theorem joinSegments_counts (buses : List Segment) (j : Joining) : Counts buses j (buses.foldl joinSegment j) :=
  foldl_counts (fun k bus member => (joinSegment_counts k bus).mono (by simpa using member)) j

end Joining

/-! ## What becomes of one line -/

namespace Line
variable {l : Line} {bus : Segment} {buses : List Segment} {e : LineEnd}

theorem after_of_dead (dead : l.live = false) (buses : List Segment) : l.after buses = l := by
  induction buses with
  | nil => rfl
  | cons bus buses ih =>
    rw [after, List.foldl_cons, Line.turn_of_dead dead]
    exact ih

/-- An end that is on none of the buses stays in their turns. -/
theorem after_atEnd_of_away (away : ∀ bus ∈ buses, bus.a ≠ bus.b → ¬ bus.hits (l.atEnd e)) :
    (l.after buses).atEnd e = l.atEnd e := by
  induction buses generalizing l with
  | nil => rfl
  | cons bus buses ih =>
    obtain ⟨here, later⟩ := List.forall_mem_cons.1 away
    have stays : (l.turn bus).wire.atEnd e = l.atEnd e := by
      by_cases short : bus.a = bus.b
      · rw [Line.turn_of_short short]
        rfl
      · exact turn_atEnd_of_away (here short)
    exact (ih (l := (l.turn bus).wire) (stays ▸ later)).trans stays

/-- A wire is erased as it stands, and covers one grid square then. -/
structure ErasedAs (l w : Line) : Prop where
  live : w.live
  square : w.start.IsDiagonal w.stop
  same : l = { w with erased := true }

theorem live_iff : l.live ↔ l.kind = .wire ∧ l.erased = false := by
  simp [live]

theorem across_live (l : Line) (bus : Segment) (e : LineEnd) : (l.across bus e).wire.live = l.live := by
  simp only [across]
  split
  · cases e <;> rfl
  · rfl

theorem aslant_of_erased (erased : l.erased) : l.aslant bus e = l.still := by
  simp [aslant, erased]

/-- A wire that an entry takes up covers one grid square. -/
theorem isDiagonal_of_covered (covered : l.atEnd e + ⟨stepToward (l.farEnd e - l.atEnd e).x,
    stepToward (l.farEnd e - l.atEnd e).y⟩ = l.farEnd e) : l.start.IsDiagonal l.stop := by
  have across := stepToward_unit (l.farEnd e - l.atEnd e).x
  have along := stepToward_unit (l.farEnd e - l.atEnd e).y
  have x := congrArg Point.x covered
  have y := congrArg Point.y covered
  simp only [Point.add_x, Point.add_y] at x y
  cases e with
  | start =>
    simp only [atEnd, farEnd] at x y across along
    exact ⟨by omega, by omega⟩
  | stop =>
    simp only [atEnd, farEnd] at x y across along
    exact ⟨by omega, by omega⟩

theorem aslant_erased (live : l.live) (gone : ¬ (l.aslant bus e).wire.live) : (l.aslant bus e).wire.ErasedAs l := by
  revert gone
  simp only [aslant]
  split
  · exact fun gone => absurd live gone
  · split
    · rename_i covered
      exact fun _ => ⟨live, isDiagonal_of_covered covered, rfl⟩
    · intro gone
      refine absurd ?_ gone
      cases e <;> exact live

/-- A wire is erased in the turn of a bus as it stands when that turn comes to one of its ends. -/
theorem turn_erased (live : l.live) (gone : ¬ (l.turn bus).wire.live) :
    ∃ e, (l.turn bus).wire.ErasedAs (l.reached bus e) := by
  revert gone
  simp only [turn]
  split
  · exact fun gone => absurd live gone
  · split
    · intro gone
      refine absurd ?_ gone
      rw [Retreat.andThen, across_live, across_live]
      exact live
    · split
      · exact fun gone => absurd live gone
      · intro gone
        by_cases first : (l.aslant bus .start).wire.live
        · exact ⟨.stop, aslant_erased first gone⟩
        · -- erased at its start, the wire is left alone at the other end
          have erasedAs := aslant_erased live first
          have erased : (l.aslant bus .start).wire.erased := by rw [erasedAs.same]
          rw [Retreat.andThen, aslant_of_erased erased]
          exact ⟨.start, erasedAs⟩

/-- In the turns of some buses a wire is erased as it stands when one of the turns comes to one of its ends. -/
theorem after_erased (live : l.live) (gone : ¬ (l.after buses).live) :
    ∃ before bus e, before ++ [bus] <+: buses ∧ (l.after buses).ErasedAs ((l.after before).reached bus e) := by
  induction buses generalizing l with
  | nil => exact absurd live gone
  | cons bus buses ih =>
    by_cases turned : (l.turn bus).wire.live
    · obtain ⟨before, next, e, first, erasedAs⟩ := ih turned gone
      exact ⟨bus :: before, next, e, (List.prefix_cons_inj bus).2 first, erasedAs⟩
    · obtain ⟨e, erasedAs⟩ := turn_erased live turned
      have stays : l.after (bus :: buses) = (l.turn bus).wire := after_of_dead (Bool.eq_false_iff.2 turned) buses
      refine ⟨[], bus, e, List.prefix_append [bus] buses, ?_⟩
      rw [stays]
      exact erasedAs

end Line

/-! ## The whole sheet -/

namespace Sheet
variable {s : Sheet} {turns : List Segment} {n : Nat} {l : Line}

/-- The sheet after the turns of some buses. -/
def joinedIn (s : Sheet) (turns : List Segment) : Joining := turns.foldl joinSegment ⟨s, 0⟩

theorem line?_joinedIn (s : Sheet) (turns : List Segment) (n : Nat) :
    (s.joinedIn turns).line? n = s.lines[n]?.map (·.after turns) := by
  rw [line?, joinedIn, (joinSegments_follow turns ⟨s, 0⟩).1, List.getElem?_map]

theorem line?_joinedIn_of_line (found : s.lines[n]? = some l) :
    (s.joinedIn turns).line? n = some (l.after turns) := by
  rw [line?_joinedIn, found]
  rfl

theorem mem_wires_iff_live (found : s.lines[n]? = some l) : n ∈ s.wires ↔ l.live := by
  simp [mem_wires, found, Line.live_iff]

/-- Whatever is no wire is left alone. -/
theorem line?_joinedIn_of_not_mem_wires (noWire : n ∉ s.wires) : (s.joinedIn turns).line? n = s.lines[n]? := by
  cases found : s.lines[n]? with
  | none => rw [line?_joinedIn, found, Option.map_none]
  | some l =>
    have dead : l.live = false := Bool.eq_false_iff.2 fun live => noWire ((mem_wires_iff_live found).2 live)
    rw [line?_joinedIn_of_line found, Line.after_of_dead dead]

theorem not_mem_wires_of_mem_buses (isBus : n ∈ s.buses) : n ∉ s.wires := by
  obtain ⟨bus, found, kind⟩ := mem_buses.1 isBus
  rw [mem_wires_iff_live found, Line.live_iff, kind]
  exact fun wire => nomatch wire.1

theorem buses_joinedIn (s : Sheet) (turns : List Segment) : (s.joinedIn turns).sheet.buses = s.buses := by
  have length : (s.joinedIn turns).sheet.lines.length = s.lines.length := by
    rw [joinedIn, (joinSegments_follow turns ⟨s, 0⟩).1, List.length_map]
  have same (n : Nat) : ((s.joinedIn turns).sheet.lines[n]?.any fun l => l.kind = .bus) =
      s.lines[n]?.any fun l => l.kind = .bus := by
    rw [← line?, line?_joinedIn, Option.any_map]
    simp only [Line.after_kind]
  simp only [buses, lineNumbers, same, length]

theorem wires_joinedIn_subset (s : Sheet) (turns : List Segment) : (s.joinedIn turns).sheet.wires ⊆ s.wires := by
  intro n isWire
  obtain ⟨_, isLine, wire⟩ := mem_wires.1 isWire
  obtain ⟨l, found, rfl⟩ := Option.map_eq_some_iff.1 ((s.line?_joinedIn turns n).symm.trans isLine)
  exact (mem_wires_iff_live found).2 (Line.after_live (Line.live_iff.2 wire))

/-- What joining may do to a sheet: the buses stay, and so does every line that is no wire. No wire is
    added, an end of a wire that is on no bus stays, and a wire is erased only over one grid square. -/
structure JoinsOnly (s : Sheet) (after : Joining) : Prop where
  rest : s.JoinedTo s.busSegments after.sheet
  buses : after.sheet.buses = s.buses ∧ ∀ n ∈ s.buses, after.line? n = s.lines[n]?
  others : ∀ n, n ∉ s.wires → after.line? n = s.lines[n]?
  wires : after.sheet.wires ⊆ s.wires
  away : ∀ n l, s.lines[n]? = some l → ∃ l', after.line? n = some l' ∧
    ∀ e, (∀ bus ∈ s.busSegments, bus.a ≠ bus.b → ¬ bus.hits (l.atEnd e)) → l'.atEnd e = l.atEnd e
  erased : ∀ n ∈ s.wires, n ∉ after.sheet.wires → ∃ l l' before bus e, s.lines[n]? = some l ∧
    after.line? n = some l' ∧ before ++ [bus] <+: s.busSegments ∧ l'.ErasedAs ((l.after before).reached bus e)
  entries : ∃ added, after.sheet.entries = s.entries ++ added ∧ after.count = added.length ∧
    ∀ entry ∈ added, ∃ bus ∈ s.busSegments, bus.a ≠ bus.b ∧ entry.Taps bus

theorem joinedIn_only (first : turns <+: s.busSegments) : s.JoinsOnly (s.joinedIn turns) where
  rest := (joinSegments_joinedTo turns ⟨s, 0⟩).mono first.subset
  buses := ⟨s.buses_joinedIn turns, fun _ isBus =>
    line?_joinedIn_of_not_mem_wires (not_mem_wires_of_mem_buses isBus)⟩
  others _ noWire := line?_joinedIn_of_not_mem_wires noWire
  wires := s.wires_joinedIn_subset turns
  away n l found := by
    refine ⟨l.after turns, line?_joinedIn_of_line found, fun e away => ?_⟩
    exact Line.after_atEnd_of_away fun bus member => away bus (first.subset member)
  erased n isWire gone := by
    obtain ⟨l, found, wire⟩ := mem_wires.1 isWire
    have stays : (s.joinedIn turns).line? n = some (l.after turns) := line?_joinedIn_of_line found
    have dead : ¬ (l.after turns).live := fun live => gone ((mem_wires_iff_live stays).2 live)
    obtain ⟨before, bus, e, turned, erasedAs⟩ := Line.after_erased (Line.live_iff.2 wire) dead
    exact ⟨l, _, before, bus, e, found, stays, turned.trans first, erasedAs⟩
  entries := by
    obtain ⟨added, entries, count, taps⟩ := joinSegments_counts turns ⟨s, 0⟩
    refine ⟨added, entries, count.trans (Nat.zero_add _), fun entry member => ?_⟩
    obtain ⟨bus, isBus, taps⟩ := taps entry member
    exact ⟨bus, first.subset isBus, taps⟩

/-- All through the joining of wires to buses and at its end, nothing else has been touched. -/
theorem joinBuses_only (s : Sheet) : s.JoinsOnly s.joinBuses ∧ ∀ k, s.JoinsOnly (s.joinedUpTo k) := by
  refine ⟨?_, fun k => joinedIn_only (List.take_prefix k _)⟩
  rw [joinBuses_eq]
  exact joinedIn_only (List.prefix_refl _)

end Sheet

end Redraft
