import Mathlib.Tactic.Ring
import Redraft.Proofs.BinaryNumbers
import Redraft.Proofs.LabelCorrection
import Redraft.Proofs.LabelWalks

/-!
# Labels on their wires

A label that is corrected touches a wire of its group: it is within one unit of
it. The search keeps to the line of the wire where it begins on that line and
its step is not rounded off it, as along an axis, where one coordinate of the
step is zero. A label that touches its wire is left where it is.
-/

namespace Redraft
open Redraft.Number

namespace Segment
variable {s : Segment} {p origin step : Point}

/-- The point lies on the line through the ends of the segment. -/
def OnLine (s : Segment) (p : Point) : Prop := cross s.direction (p - s.a) = 0

/-- The point is no farther along an axis than the ends of the segment. -/
def Spans (s : Segment) (p : Point) : Prop :=
  (min s.a.x s.b.x ≤ p.x ∧ p.x ≤ max s.a.x s.b.x) ∧ min s.a.y s.b.y ≤ p.y ∧ p.y ≤ max s.a.y s.b.y

/-- The step that labels make along the segment is not rounded off its direction. -/
def KeepsLine (s : Segment) : Prop :=
  ∀ step, s.direction.resize labelStep = .ok step → cross s.direction step = 0

/-- The segment runs along an axis, or is a point. -/
def Axial (s : Segment) : Prop := s.a.x = s.b.x ∨ s.a.y = s.b.y

theorem hits_iff : s.hits p = true ↔ s.OnLine p ∧ s.Spans p := by
  simp [hits, OnLine, Spans, and_assoc]

theorem OnLine.hits_or_beyond (onLine : s.OnLine p) : s.hits p = true ∨ s.OnLine p ∧ ¬s.Spans p := by
  rw [hits_iff]
  by_cases spans : s.Spans p
  · exact .inl ⟨onLine, spans⟩
  · exact .inr ⟨onLine, spans⟩

theorem onLine_start (s : Segment) : s.OnLine s.a := by
  simp [OnLine, cross]

theorem onLine_stop (s : Segment) : s.OnLine s.b := by
  simp only [OnLine, cross, direction, Point.sub_x, Point.sub_y]
  ring

theorem half_zero : half 0 = 0 := by decide

theorem Axial.onLine_center (axial : s.Axial) : s.OnLine s.center := by
  simp only [OnLine, cross, center, direction, Point.sub_x, Point.sub_y]
  rcases axial with upright | level
  · simp [upright, half_zero]
  · simp [level, half_zero]

theorem Axial.keepsLine (axial : s.Axial) : s.KeepsLine := by
  intro step resized
  apply Point.cross_resize_of_axis resized
  rcases axial with same | same
  · exact .inl (by simp [direction, same])
  · exact .inr (by simp [direction, same])

theorem OnLine.probe (onLine : s.OnLine origin) (parallel : cross s.direction step = 0) (n : Nat) :
    s.OnLine (probe origin step n) := by
  have onLine : s.drift origin = 0 := onLine
  change s.drift (Redraft.probe origin step n) = 0
  rw [probe_eq, drift_add_scale, onLine, parallel, Int.mul_zero, Int.add_zero]

end Segment

namespace Tracker
variable {t : Tracker} {g : NetGroup} {p q : Point}

/-- A label at `p` has come to `q` along a wire of its group that it touches there. From an origin on the line of the
    wire, with no step or with steps that keep to the line, it hits the wire, or is on its line past an end. -/
def Lands (g : NetGroup) (p q : Point) : Prop := ∃ w origin, MovesAlong g p w origin ∧ w.touches q = true ∧
  (w.OnLine origin → q = origin ∨ w.KeepsLine → w.hits q = true ∨ w.OnLine q ∧ ¬w.Spans q)

theorem Lands.holds (lands : Lands g p q) : g.Holds q := by
  obtain ⟨w, origin, along, touches, _⟩ := lands
  exact ⟨w, along.wire_mem, touches⟩

theorem newPlace_lands (found : t.newPlace g p = .ok (some q)) : Lands g p q := by
  obtain ⟨_, w, origin, along, walked⟩ := newPlace_walk found
  obtain ⟨touches, _, step, resized, k, isProbe⟩ := freePlace_free walked
  refine ⟨w, origin, along, touches, fun onLine exact => Segment.OnLine.hits_or_beyond ?_⟩
  rcases exact with rfl | keeps
  · exact onLine
  · exact isProbe ▸ onLine.probe (keeps step resized) k

theorem settle_places {state state' : List Point × Nat} {entry : NetGroup × Nat}
    (ran : t.settle state entry = .ok state') : state'.1 = state.1 ∨
      ∃ q, t.newPlace entry.1 (state.1[entry.2]?.getD Point.origin) = .ok (some q) ∧
        state'.1 = state.1.set entry.2 q := by
  obtain ⟨place, found, placed⟩ := bind_ok.1 ran
  cases place with
  | none => exact .inl (congrArg Prod.fst (Except.ok.inj placed)).symm
  | some q => exact .inr ⟨q, found, (congrArg Prod.fst (Except.ok.inj placed)).symm⟩

/-- A label that has moved was last moved by an entry of its own; by the only one, if its number is no other's. -/
theorem lands_of_foldlM {entries : List (NetGroup × Nat)} {state state' : List Point × Nat} {n : Nat}
    (ran : entries.foldlM t.settle state = .ok state') (here : state.1[n]? = some p) (there : state'.1[n]? = some q) :
    q = p ∨ ∃ g, (g, n) ∈ entries ∧ ∃ from', ((entries.map (·.2)).Nodup → from' = p) ∧ Lands g from' q := by
  induction entries generalizing state p with
  | nil =>
    cases ran
    exact .inl (Option.some.inj (there.symm.trans here))
  | cons entry entries ih =>
    rw [List.foldlM_cons] at ran
    obtain ⟨middle, first, rest⟩ := bind_ok.1 ran
    -- where the label is after the first entry: where it was, or where that entry has put it
    obtain ⟨r, between, stays⟩ : ∃ r, middle.1[n]? = some r ∧
        (r = p ∨ entry.2 = n ∧ Lands entry.1 p r) := by
      rcases settle_places first with same | ⟨r, found, moved⟩
      · exact ⟨p, same ▸ here, .inl rfl⟩
      by_cases own : entry.2 = n
      · subst own
        rw [here, Option.getD_some] at found
        have inside := (List.getElem?_eq_some_iff.1 here).1
        exact ⟨r, by rw [moved, List.getElem?_set_self inside], .inr ⟨rfl, newPlace_lands found⟩⟩
      · exact ⟨p, by rw [moved, List.getElem?_set_ne own, here], .inl rfl⟩
    rcases ih rest between with rfl | ⟨g, member, from', alone, lands⟩
    · rcases stays with same | ⟨rfl, lands⟩
      · exact .inl same
      · exact .inr ⟨entry.1, .head _, p, fun _ => rfl, lands⟩
    · refine .inr ⟨g, .tail _ member, from', fun once => ?_, lands⟩
      rw [List.map_cons, List.nodup_cons] at once
      rw [alone once.2]
      exact stays.resolve_right fun ⟨own, _⟩ => once.1 (own ▸ List.mem_map_of_mem member)

end Tracker

section
open Drafting

/-- Every label that the correction moves, or leaves where it touches a wire of its group, touches a wire of its
    group. Whether it hits the wire is told from the origin and the steps of its walk; ends are on the line of a wire,
    and along an axis nothing leaves it. -/
theorem adjustLabels_lands {d d' : Desk} {moved n : Nat} {l l' : NetLabel} (ran : Ends adjustLabels d moved d')
    (here : d.sheet.labels[n]? = some l) (there : d'.sheet.labels[n]? = some l') :
    (l'.position ≠ l.position → ∃ g ∈ d.sheet.tracker.tracked, n ∈ g.labels ∧ ∃ p,
      (d.sheet.TracksOnce → p = l.position) ∧ Tracker.Lands g p l'.position) ∧
    (∀ g ∈ d.sheet.tracker.tracked, n ∈ g.labels → g.Holds l.position →
      ∃ g' ∈ d.sheet.tracker.tracked, n ∈ g'.labels ∧ g'.Holds l'.position) ∧
    ∀ w : Segment, w.OnLine w.a ∧ w.OnLine w.b ∧ (w.Axial → w.OnLine w.center ∧ w.KeepsLine) := by
  obtain ⟨places, adjusted, rfl⟩ := ends_adjustLabels_iff.1 ran
  rw [Tracker.adjust_eq] at adjusted
  have old : d.sheet.places[n]? = some l.position := by
    rw [Sheet.places, List.getElem?_map, here]
    rfl
  have new : places[n]? = some l'.position := by
    rw [Sheet.placeLabels_getElem?, here, Option.bind_some] at there
    obtain ⟨p, isPlace, rfl⟩ := Option.map_eq_some_iff.1 there
    exact isPlace
  have lands : l'.position ≠ l.position → ∃ g ∈ d.sheet.tracker.tracked, n ∈ g.labels ∧ ∃ p,
      (d.sheet.TracksOnce → p = l.position) ∧ Tracker.Lands g p l'.position := by
    intro moves
    obtain ⟨g, member, p, alone, lands⟩ := (Tracker.lands_of_foldlM adjusted old new).resolve_left moves
    obtain ⟨isTracked, isLabel⟩ := Tracker.mem_owned.1 member
    exact ⟨g, isTracked, isLabel, p, fun tracks => alone tracks.owned.1, lands⟩
  refine ⟨lands, fun g isTracked isLabel held => ?_, fun w =>
    ⟨w.onLine_start, w.onLine_stop, fun axial => ⟨axial.onLine_center, axial.keepsLine⟩⟩⟩
  by_cases moves : l'.position = l.position
  · exact ⟨g, isTracked, isLabel, moves ▸ held⟩
  · obtain ⟨g', isTracked', isLabel', _, _, lands⟩ := lands moves
    exact ⟨g', isTracked', isLabel', lands.holds⟩

/-- A wire that is neither level nor upright with a label beside it, one along an axis with a label a unit off it, and
    one with a label on a crossing whose next free place is a unit past the end. -/
def roughDesk : Desk where
  sheet := {
    name := "demo", file := "demo.kicad_sch", path := .root, library := "demo", project := "demo"
    page := ⟨some "A4", ⟨2970000, 2100000⟩⟩
    labels := [⟨"A", ⟨1, -40⟩, .right, 10000, .sheet⟩, ⟨"B", ⟨500, 501⟩, .right, 10000, .sheet⟩,
      ⟨"C", ⟨12700, 2000⟩, .right, 10000, .sheet⟩]
    tracker := {
      groups := [⟨"A", false, [⟨⟨0, 0⟩, ⟨3, 1⟩⟩], [0]⟩, ⟨"B", false, [⟨⟨0, 500⟩, ⟨1000, 500⟩⟩], [1]⟩,
        ⟨"C", false, [⟨⟨0, 2000⟩, ⟨25399, 2000⟩⟩], [2]⟩, ⟨"D", false, [⟨⟨12700, 1000⟩, ⟨12700, 3000⟩⟩], []⟩]
      crossings := [⟨12700, 2000⟩] } }

theorem roughDesk_corrected : ∃ after, Ends adjustLabels roughDesk 2 after ∧
    after.sheet.places = [⟨1, 0⟩, ⟨500, 501⟩, ⟨25400, 2000⟩] := by
  have adjusted : roughDesk.sheet.tracker.adjust roughDesk.sheet.places =
      .ok ([⟨1, 0⟩, ⟨500, 501⟩, ⟨25400, 2000⟩], 2) := ok_of_toOption (by decide +kernel)
  exact ⟨_, ends_adjustLabels_iff.2 ⟨_, adjusted, rfl⟩, rfl⟩

theorem roughDesk_tracksOnce : roughDesk.sheet.TracksOnce := ⟨by decide, by decide⟩

theorem Sheet.label_of_place {s : Sheet} {n : Nat} {p : Point} (place : s.places[n]? = some p) :
    ∃ l, s.labels[n]? = some l ∧ l.position = p := by
  rw [Sheet.places, List.getElem?_map] at place
  exact Option.map_eq_some_iff.1 place

/-- A label may move, or be left where it touches its wire, and hit no wire of its group. -/
theorem not_all_corrected_labels_hit : ¬ ∀ (d d' : Desk) (moved : Nat), d.sheet.TracksOnce →
    Ends adjustLabels d moved d' → ∀ g ∈ d.sheet.tracker.tracked, ∀ n ∈ g.labels, ∀ l l',
      d.sheet.labels[n]? = some l → d'.sheet.labels[n]? = some l' →
      (l'.position ≠ l.position ∨ g.Holds l.position) → ∃ w ∈ g.wires, w.hits l'.position = true := by
  intro claim
  obtain ⟨after, ran, places⟩ := roughDesk_corrected
  obtain ⟨l', there, place⟩ := Sheet.label_of_place (s := after.sheet) (n := 0) (by rw [places]; rfl)
  obtain ⟨w, isWire, hit⟩ := claim _ _ _ roughDesk_tracksOnce ran _ (.head _) 0 (.head _) _ l' rfl there
    (.inl (by rw [place]; decide))
  obtain rfl := List.mem_singleton.1 isWire
  rw [place] at hit
  exact absurd hit (by decide)

/-- The label on the level wire has gone past its end, on its line. -/
theorem roughDesk_lands : roughDesk.sheet.TracksOnce ∧ ∃ after l', Ends adjustLabels roughDesk 2 after ∧
    after.sheet.labels[2]? = some l' ∧ l'.position = ⟨25400, 2000⟩ ∧
    ∃ g ∈ roughDesk.sheet.tracker.tracked, 2 ∈ g.labels ∧ ∃ p, p = ⟨12700, 2000⟩ ∧ Tracker.Lands g p l'.position := by
  obtain ⟨after, ran, places⟩ := roughDesk_corrected
  obtain ⟨l', there, place⟩ := Sheet.label_of_place (s := after.sheet) (n := 2) (by rw [places]; rfl)
  obtain ⟨lands, _⟩ := adjustLabels_lands ran (n := 2) rfl there
  obtain ⟨g, isTracked, isLabel, p, from', lands⟩ := lands (by rw [place]; decide)
  exact ⟨roughDesk_tracksOnce, after, l', ran, there, place, g, isTracked, isLabel, p, from' roughDesk_tracksOnce, lands⟩

end

end Redraft
