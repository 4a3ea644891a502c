import Mathlib.Data.Rat.Floor
import Redraft.Proofs.CrossingPoints
import Redraft.Proofs.CrossingSets

/-!
# Crossings in any order

Two wires meet at one place, whichever is added first and from whichever end it
is drawn. But the crossing is measured from the start of the earlier one: a
coordinate halfway between two whole numbers goes to the one that is farther
from it. So what is noted can depend on order and direction, though only at such
places, and by no more than one unit.
-/

namespace Redraft

/-! ## Rounding away from a start -/

namespace Number

/-- The place is in the middle between two whole numbers. -/
def Halfway (x : ℚ) : Prop := ∃ k : Int, x = k + 1 / 2

/-- The whole number nearest to a place, of two that are equally near the one farther from the start. -/
def roundedFrom (start : Int) (x : ℚ) : Int := if start < x then ⌊x + 1 / 2⌋ else ⌈x - 1 / 2⌉

section
variable {start other : Int} {x : ℚ}

theorem nearestQuotient_eq (n d : Nat) (some : d ≠ 0) :
    (((2 * n + d) / (2 * d) : Nat) : Int) = ⌊(n / d : ℚ) + 1 / 2⌋ := by
  have sum : (n / d : ℚ) + 1 / 2 = ((2 * n + d : Nat) : ℚ) / ((2 * d : Nat) : ℚ) := by
    push_cast
    field_simp
  rw [sum, Rat.floor_natCast_div_natCast]
  rfl

/-- A half goes away from zero. -/
theorem halfAway_eq (n : Int) {d : Int} (some : d ≠ 0) : halfAway n d = roundedFrom 0 (n / d) := by
  have quotient := nearestQuotient_eq n.natAbs d.natAbs (Int.natAbs_ne_zero.2 some)
  rw [Nat.cast_natAbs, Nat.cast_natAbs, Int.cast_abs, Int.cast_abs, ← abs_div] at quotient
  unfold halfAway roundedFrom
  dsimp only
  rw [quotient]
  generalize ratio : (n / d : ℚ) = r
  by_cases same : n < 0 ↔ d < 0
  · have nonneg : 0 ≤ r := ratio ▸ quotient_nonneg some same
    rw [if_pos same, abs_of_nonneg nonneg]
    rcases nonneg.eq_or_lt with rfl | positive
    · norm_num
    · rw [if_pos (by exact_mod_cast positive)]
  · have nonpos : r ≤ 0 := ratio ▸ quotient_nonpos some same
    rw [if_neg same, abs_of_nonpos nonpos, ← Int.ceil_neg, if_neg (by exact_mod_cast nonpos.not_gt)]
    ring_nf

theorem roundedFrom_add (start : Int) (x : ℚ) : start + roundedFrom 0 x = roundedFrom start (start + x) := by
  unfold roundedFrom
  simp only [Int.cast_zero, lt_add_iff_pos_right, add_assoc, add_sub_assoc, Int.floor_intCast_add, Int.ceil_intCast_add]
  split <;> rfl

theorem halfway_iff : Halfway x ↔ ⌊x + 1 / 2⌋ ≠ ⌈x - 1 / 2⌉ := by
  constructor
  · rintro ⟨k, rfl⟩
    have up : ⌊(k : ℚ) + 1 / 2 + 1 / 2⌋ = k + 1 := by
      rw [Int.floor_eq_iff]
      push_cast
      constructor <;> linarith
    have down : ⌈(k : ℚ) + 1 / 2 - 1 / 2⌉ = k := by
      rw [Int.ceil_eq_iff]
      constructor <;> linarith
    omega
  · intro apart
    by_contra other
    refine apart (Int.ceil_eq_iff.2 ?_).symm
    have low := Int.floor_le (x + 1 / 2)
    have high := Int.lt_floor_add_one (x + 1 / 2)
    refine ⟨lt_of_le_of_ne (by linarith) fun same => other ⟨⌊x + 1 / 2⌋ - 1, ?_⟩, by linarith⟩
    push_cast
    linarith

theorem Halfway.ne_whole (half : Halfway x) (n : Int) : x ≠ n := by
  obtain ⟨k, rfl⟩ := half
  intro same
  have whole : (2 * k + 1 : ℚ) = 2 * n := by linarith
  have : 2 * k + 1 = 2 * n := by exact_mod_cast whole
  omega

/-- A place halfway that is on the way between two whole numbers comes after just one of them. -/
theorem Halfway.between {v : ℚ} (half : Halfway x) (part : 0 ≤ v ∧ v ≤ 1) (here : x = start + v * (other - start)) :
    ¬(start < x ↔ other < x) := by
  have inside : (x ≤ start ∨ x ≤ other) ∧ (start ≤ x ∨ other ≤ x) := by
    rcases le_total (start : ℚ) other with up | down
    · have low := mul_nonneg part.1 (sub_nonneg.2 up)
      have high := mul_le_of_le_one_left (sub_nonneg.2 up) part.2
      exact ⟨.inr (by linarith), .inl (by linarith)⟩
    · have high := mul_nonpos_of_nonneg_of_nonpos part.1 (sub_nonpos.2 down)
      have low := le_mul_of_le_one_left (sub_nonpos.2 down) part.2
      exact ⟨.inl (by linarith), .inr (by linarith)⟩
  have notStart := half.ne_whole start
  have notOther := half.ne_whole other
  grind

theorem roundedFrom_near (start : Int) (x : ℚ) : |(roundedFrom start x : ℚ) - x| ≤ 1 / 2 := by
  unfold roundedFrom
  rw [abs_le]
  split
  · have low := Int.floor_le (x + 1 / 2)
    have high := Int.lt_floor_add_one (x + 1 / 2)
    constructor <;> linarith
  · have low := Int.ceil_lt_add_one (x - 1 / 2)
    have high := Int.le_ceil (x - 1 / 2)
    constructor <;> linarith

/-- Only for a place halfway there are two nearest whole numbers. -/
theorem eq_roundedFrom {n : Int} (near : |(n : ℚ) - x| ≤ 1 / 2) (whole : ¬Halfway x) : n = roundedFrom start x := by
  have near' := roundedFrom_near start x
  generalize roundedFrom start x = m at near' ⊢
  obtain ⟨low, high⟩ := abs_le.1 near
  obtain ⟨low', high'⟩ := abs_le.1 near'
  by_contra other
  rcases Int.lt_or_gt_of_ne other with less | greater
  · have next : (n : ℚ) + 1 ≤ m := by exact_mod_cast less
    exact whole ⟨n, by linarith⟩
  · have next : (m : ℚ) + 1 ≤ n := by exact_mod_cast greater
    exact whole ⟨m, by linarith⟩

theorem near_each_other {m n : Int} (near : |(m : ℚ) - x| ≤ 1 / 2) (near' : |(n : ℚ) - x| ≤ 1 / 2) : |m - n| ≤ 1 := by
  have close : (|m - n| : ℚ) ≤ 1 := by
    rw [abs_sub_comm] at near'
    linarith [abs_sub_le (m : ℚ) x n]
  exact_mod_cast close

/-- The start matters only for a place halfway, and there only on which side it is. -/
theorem roundedFrom_eq_iff : roundedFrom start x = roundedFrom other x ↔ (Halfway x → (start < x ↔ other < x)) := by
  rw [halfway_iff]
  unfold roundedFrom
  generalize ⌊x + 1 / 2⌋ = up
  generalize ⌈x - 1 / 2⌉ = down
  split <;> split <;> grind

end

end Number

namespace Segment
open Number

/-- The segment drawn from its other end. -/
def reverse (s : Segment) : Segment := ⟨s.b, s.a⟩

/-- The segments are not parallel and meet at a place; `inner` leaves out an end of both. -/
def Crosses (s t : Segment) (inner : Bool) (place : ℚ × ℚ) : Prop :=
  ¬s.Parallel t ∧ ∃ u v, s.MeetsAt t u v ∧ ¬(inner = true ∧ AtEnds u v) ∧ s.along u = place

/-- The whole coordinates nearest to a place, a half going away from a start. -/
def roundedPlace (start : Point) (place : ℚ × ℚ) : Point :=
  ⟨roundedFrom start.x place.1, roundedFrom start.y place.2⟩

section
variable {s t : Segment} {inner : Bool} {place : ℚ × ℚ} {u v : ℚ}

/-! ## Order and direction of the segments -/

theorem parallel_comm : s.Parallel t ↔ t.Parallel s := by
  rw [parallel_iff, parallel_iff, divisor, divisor, cross, cross]
  constructor <;> intro none <;> linear_combination -none

theorem parallel_reverse : s.reverse.Parallel t ↔ s.Parallel t := by
  rw [parallel_iff, parallel_iff]
  simp only [divisor, cross, direction, reverse, Point.sub_x, Point.sub_y]
  constructor <;> intro none <;> linear_combination -none

theorem along_reverse (s : Segment) (u : ℚ) : s.reverse.along u = s.along (1 - u) := by
  simp only [along, direction, reverse, Point.sub_x, Point.sub_y, Prod.mk.injEq]
  push_cast
  constructor <;> ring

theorem MeetsAt.symm (meets : s.MeetsAt t u v) : t.MeetsAt s v u := ⟨meets.second, meets.first, meets.same.symm⟩

theorem MeetsAt.reverse (meets : s.MeetsAt t u v) : s.reverse.MeetsAt t (1 - u) v := by
  obtain ⟨⟨low, high⟩, second, same⟩ := meets
  refine ⟨⟨by linarith, by linarith⟩, second, ?_⟩
  rw [along_reverse, sub_sub_cancel, same]

theorem atEnds_reverse : AtEnds (1 - u) v ↔ AtEnds u v := by
  have turned : (1 - u = 0 ∨ 1 - u = 1) ↔ (u = 0 ∨ u = 1) := by
    rw [sub_eq_zero, sub_eq_self, eq_comm, or_comm]
  rw [AtEnds, AtEnds, turned]

theorem Crosses.symm (crosses : s.Crosses t inner place) : t.Crosses s inner place := by
  obtain ⟨apart, u, v, meets, inside, rfl⟩ := crosses
  refine ⟨mt parallel_comm.1 apart, v, u, meets.symm, fun ⟨isInner, ends⟩ => inside ⟨isInner, ?_⟩, meets.same.symm⟩
  exact ends.symm

theorem crosses_comm : s.Crosses t inner place ↔ t.Crosses s inner place := ⟨Crosses.symm, Crosses.symm⟩

theorem Crosses.reverse (crosses : s.Crosses t inner place) : s.reverse.Crosses t inner place := by
  obtain ⟨apart, u, v, meets, inside, rfl⟩ := crosses
  refine ⟨mt parallel_reverse.1 apart, 1 - u, v, meets.reverse, fun ⟨isInner, ends⟩ => inside ⟨isInner, ?_⟩, ?_⟩
  · exact atEnds_reverse.1 ends
  · rw [along_reverse, sub_sub_cancel]

theorem crosses_reverse : s.reverse.Crosses t inner place ↔ s.Crosses t inner place :=
  ⟨Crosses.reverse, Crosses.reverse⟩

/-! ## The crossing that is given -/

theorem meetingPoint_eq (apart : s.divisor t ≠ 0) (same : s.along u = t.along v) :
    s.meetingPoint t = roundedPlace t.a (s.along u) := by
  have onOther := ((along_eq_iff apart).1 same).2
  have rounded (n c : Int) :
      c + halfAway (cross s.direction (t.a - s.a) * n) (s.divisor t) = roundedFrom c (c + v * n) := by
    rw [halfAway_eq _ apart, roundedFrom_add, onOther]
    push_cast
    ring_nf
  rw [same]
  exact Point.ext (rounded t.direction.x t.a.x) (rounded t.direction.y t.a.y)

/-- The crossing is where the segments meet, a half going away from the start of the second one. -/
theorem crossing_eq_some_iff {p : Point} :
    s.crossing t inner = some p ↔ ∃ place, s.Crosses t inner place ∧ roundedPlace t.a place = p := by
  by_cases parallel : s.Parallel t
  · have none : s.crossing t inner = none := if_pos (parallel_iff.1 parallel)
    simp [none, Crosses, parallel]
  · have apart : s.divisor t ≠ 0 := mt parallel_iff.2 parallel
    rw [crossing_eq apart]
    constructor
    · intro found
      split at found
      · obtain ⟨u, v, meets, inside⟩ := (areasMeet_iff apart inner).1 ‹_›
        refine ⟨_, ⟨parallel, u, v, meets, inside, rfl⟩, ?_⟩
        rw [← meetingPoint_eq apart meets.same]
        exact Option.some.inj found
      · cases found
    · rintro ⟨_, ⟨_, u, v, meets, inside, rfl⟩, rfl⟩
      rw [if_pos ((areasMeet_iff apart inner).2 ⟨u, v, meets, inside⟩), meetingPoint_eq apart meets.same]

theorem Crosses.unique {other : ℚ × ℚ} (crosses : s.Crosses t inner place) (again : s.Crosses t inner other) :
    place = other := by
  obtain ⟨parallel, u, v, meets, _, rfl⟩ := crosses
  obtain ⟨_, u', v', meets', _, rfl⟩ := again
  have apart : s.divisor t ≠ 0 := mt parallel_iff.2 parallel
  rw [((along_eq_iff apart).1 meets.same).1, ((along_eq_iff apart).1 meets'.same).1]

/-- Segments that cross at the same places have the same crossing if it is rounded in the same way. -/
theorem crossing_eq_crossing_iff {s' t' : Segment}
    (same : ∀ place, s.Crosses t inner place ↔ s'.Crosses t' inner place) :
    s.crossing t inner = s'.crossing t' inner ↔
      ∀ place, s.Crosses t inner place → roundedPlace t.a place = roundedPlace t'.a place := by
  constructor
  · intro isCrossing place crosses
    have found := crossing_eq_some_iff.2 ⟨place, crosses, rfl⟩
    obtain ⟨other, crosses', rounded⟩ := crossing_eq_some_iff.1 (isCrossing ▸ found)
    obtain rfl := crosses.unique ((same other).2 crosses')
    exact rounded.symm
  · intro rounded
    ext p
    rw [crossing_eq_some_iff, crossing_eq_some_iff]
    refine exists_congr fun place => ?_
    rw [← same place]
    exact and_congr_right fun crosses => by rw [rounded place crosses]

theorem roundedPlace_eq_iff {start other : Point} : roundedPlace start place = roundedPlace other place ↔
    (Halfway place.1 → (start.x < place.1 ↔ other.x < place.1)) ∧
    (Halfway place.2 → (start.y < place.2 ↔ other.y < place.2)) := by
  rw [roundedPlace, roundedPlace, Point.mk.injEq, roundedFrom_eq_iff, roundedFrom_eq_iff]

/-- The direction of the first segment does not matter. -/
theorem crossing_reverse_first (s t : Segment) (inner : Bool) : s.reverse.crossing t inner = s.crossing t inner :=
  (crossing_eq_crossing_iff fun _ => crosses_reverse).2 fun _ _ => rfl

/-- Which segment comes first matters where a half is to be rounded between their starts. -/
theorem crossing_comm_iff : s.crossing t inner = t.crossing s inner ↔ ∀ place, s.Crosses t inner place →
    (Halfway place.1 → (t.a.x < place.1 ↔ s.a.x < place.1)) ∧
    (Halfway place.2 → (t.a.y < place.2 ↔ s.a.y < place.2)) := by
  rw [crossing_eq_crossing_iff fun _ => crosses_comm]
  simp only [roundedPlace_eq_iff]

theorem crosses_reverse_second : s.Crosses t.reverse inner place ↔ s.Crosses t inner place := by
  rw [crosses_comm, crosses_reverse, crosses_comm]

/-- The direction of the second segment matters just where there is a half to be rounded. -/
theorem crossing_reverse_second_iff : s.crossing t.reverse inner = s.crossing t inner ↔
    ∀ place, s.Crosses t inner place → ¬Halfway place.1 ∧ ¬Halfway place.2 := by
  rw [crossing_eq_crossing_iff fun _ => crosses_reverse_second]
  refine forall_congr' fun place => ?_
  rw [crosses_reverse_second]
  refine forall_congr' fun ⟨_, u, v, meets, _, same⟩ => ?_
  have here : place.1 = t.a.x + v * (t.b.x - t.a.x) ∧ place.2 = t.a.y + v * (t.b.y - t.a.y) := by
    rw [← same, meets.same]
    simp [along, direction]
  rw [roundedPlace_eq_iff]
  exact and_congr (forall_congr' fun half => iff_false_intro (mt Iff.symm (half.between meets.second here.1)))
    (forall_congr' fun half => iff_false_intro (mt Iff.symm (half.between meets.second here.2)))

end

end Segment

/-! ## Order and direction of the wires that are added -/

open Number Segment

/-- The same wire, drawn from either end. -/
def AddedWire.Turned (w w' : AddedWire) : Prop := w'.net = w.net ∧ (w'.wire = w.wire ∨ w'.wire = w.wire.reverse)

instance (w w' : AddedWire) : Decidable (w.Turned w') := inferInstanceAs (Decidable (_ ∧ (_ ∨ _)))

/-- The wires are the same ones, in any order and each drawn from either end. -/
def SameWires (wires wires' : List AddedWire) : Prop :=
  (∀ w ∈ wires, ∃ w' ∈ wires', w.Turned w') ∧ ∀ w' ∈ wires', ∃ w ∈ wires, w'.Turned w

instance (wires wires' : List AddedWire) : Decidable (SameWires wires wires') :=
  inferInstanceAs (Decidable ((∀ w ∈ wires, ∃ w' ∈ wires', w.Turned w') ∧ _))

/-- Two of the wires, of different nets, meet at the place and not at an end of both. -/
def MeetingPlace (wires : List AddedWire) (place : ℚ × ℚ) : Prop :=
  ∃ w ∈ wires, ∃ w' ∈ wires, w.net ≠ w'.net ∧ w.wire.Crosses w'.wire true place

/-- If wires meet next to the point at all, they meet next to it at a place that is not halfway. -/
def NotOnlyHalfway (wires : List AddedWire) (p : Point) : Prop :=
  ∀ place, MeetingPlace wires place → Rounds p place →
    ∃ whole, MeetingPlace wires whole ∧ Rounds p whole ∧ ¬Halfway whole.1 ∧ ¬Halfway whole.2

section
variable {wires wires' : List AddedWire} {w w' : AddedWire} {place : ℚ × ℚ} {p : Point}

theorem SameWires.symm (same : SameWires wires wires') : SameWires wires' wires := ⟨same.2, same.1⟩

theorem AddedWire.Turned.crosses {t : Segment} (turned : w.Turned w') (crosses : w.wire.Crosses t true place) :
    w'.wire.Crosses t true place := by
  rcases turned.2 with same | back
  · rwa [same]
  · rw [back]
    exact crosses.reverse

theorem SameWires.meetingPlace (same : SameWires wires wires') (meeting : MeetingPlace wires place) :
    MeetingPlace wires' place := by
  obtain ⟨v, first, w, second, apart, crosses⟩ := meeting
  obtain ⟨v', first', turned⟩ := same.1 v first
  obtain ⟨w', second', turned'⟩ := same.1 w second
  refine ⟨v', first', w', second', by rwa [turned.1, turned'.1], ?_⟩
  exact (turned'.crosses (turned.crosses crosses).symm).symm

theorem sublist_pair (first : w ∈ wires) (second : w' ∈ wires) (apart : w ≠ w') :
    [w, w'].Sublist wires ∨ [w', w].Sublist wires := by
  let InEither (v v' : AddedWire) : Prop := v ≠ v' → [v, v'].Sublist wires ∨ [v', v].Sublist wires
  have forward : wires.Pairwise InEither := List.pairwise_iff_forall_sublist.2 fun inOrder _ => .inl inOrder
  have backward : wires.Pairwise (flip InEither) := List.pairwise_iff_forall_sublist.2 fun inOrder _ => .inr inOrder
  exact forward.forall_of_forall_of_flip (fun _ _ other => absurd rfl other) backward first second apart

theorem crossing?_eq_some_iff : w.crossing? w' = some p ↔
    w.net ≠ w'.net ∧ ∃ place, w.wire.Crosses w'.wire true place ∧ roundedPlace w'.wire.a place = p := by
  unfold AddedWire.crossing?
  split
  · rename_i same
    simp [same]
  · rename_i apart
    rw [crossing_eq_some_iff, and_iff_right (Ne.symm apart)]

theorem roundedPlace_rounds (start : Point) (place : ℚ × ℚ) : Rounds (roundedPlace start place) place :=
  ⟨roundedFrom_near start.x place.1, roundedFrom_near start.y place.2⟩

/-- What is noted is a place where two wires meet, rounded. -/
theorem exists_meetingPlace (noted : p ∈ crossingsAmong wires) :
    ∃ place, MeetingPlace wires place ∧ Rounds p place := by
  obtain ⟨earlier, later, inOrder, crossing⟩ := mem_crossingsAmong.1 noted
  obtain ⟨apart, place, crosses, rfl⟩ := crossing?_eq_some_iff.1 crossing
  have first : earlier ∈ wires := inOrder.subset (.head _)
  have second : later ∈ wires := inOrder.subset (.tail _ (.head _))
  exact ⟨place, ⟨later, second, earlier, first, apart, crosses⟩, roundedPlace_rounds ..⟩

/-- Wherever two wires meet, the place is noted, rounded away from the start of one of them. -/
theorem MeetingPlace.noted (meeting : MeetingPlace wires place) :
    ∃ start, roundedPlace start place ∈ crossingsAmong wires := by
  obtain ⟨w, first, w', second, apart, crosses⟩ := meeting
  rcases sublist_pair first second (fun same => apart (by rw [same])) with inOrder | inOrder
  · refine ⟨w.wire.a, mem_crossingsAmong.2 ⟨w, w', inOrder, crossing?_eq_some_iff.2 ⟨Ne.symm apart, place, ?_, rfl⟩⟩⟩
    exact crosses.symm
  · exact ⟨w'.wire.a, mem_crossingsAmong.2 ⟨w', w, inOrder, crossing?_eq_some_iff.2 ⟨apart, place, crosses, rfl⟩⟩⟩

/-- In another order each crossing is noted as well, at the same point or one next to it. -/
theorem SameWires.noted_near (same : SameWires wires wires') (noted : p ∈ crossingsAmong wires) :
    ∃ q ∈ crossingsAmong wires', |p.x - q.x| ≤ 1 ∧ |p.y - q.y| ≤ 1 := by
  obtain ⟨place, meeting, near⟩ := exists_meetingPlace noted
  obtain ⟨start, noted'⟩ := (same.meetingPlace meeting).noted
  have near' := roundedPlace_rounds start place
  exact ⟨_, noted', near_each_other near.1 near'.1, near_each_other near.2 near'.2⟩

/-- A point is noted in any order if wires meet next to it at a place that is not halfway. -/
theorem SameWires.noted_of_whole (same : SameWires wires wires') (whole : NotOnlyHalfway wires p)
    (noted : p ∈ crossingsAmong wires) : p ∈ crossingsAmong wires' := by
  obtain ⟨_, here, near⟩ := exists_meetingPlace noted
  obtain ⟨place, meeting, near, level, upright⟩ := whole _ here near
  obtain ⟨start, noted'⟩ := (same.meetingPlace meeting).noted
  have rounded : p = roundedPlace start place := Point.ext (eq_roundedFrom near.1 level) (eq_roundedFrom near.2 upright)
  rwa [rounded]

theorem SameWires.notOnlyHalfway (same : SameWires wires wires') (whole : NotOnlyHalfway wires p) :
    NotOnlyHalfway wires' p := by
  intro place meeting near
  obtain ⟨other, meeting', rest⟩ := whole place (same.symm.meetingPlace meeting) near
  exact ⟨other, same.meetingPlace meeting', rest⟩

end

namespace Tracker

/-- What is found after a clearing and any calls is what is noted of the wires that they add. -/
theorem isCrossing_iff_noted (t : Tracker) (calls : List Call) (p : Point) :
    (calls.foldl perform t.clear).isCrossing p = true ↔ p ∈ crossingsAmong (addedBy [] calls) := by
  obtain ⟨⟨_, notes⟩, _⟩ := (Notes.clear t).run calls
  rw [isCrossing, List.contains_iff_mem, notes.exact.mem_iff]
  rfl

/-- Where wires meet does not depend on the order in which they are added, nor on the ends from which they are drawn.
    So a point that is found after one run of calls, or one next to it, is found after another that adds the same
    wires; and the answer for a point is the same, unless all places next to it where wires meet are halfway. For two
    wires, the direction of the first never matters, that of the second just where there is a half to be rounded,
    and their order just where a half lies between their starts. -/
theorem crossings_in_any_order :
    (∀ (t t' : Tracker) (calls calls' : List Call), SameWires (addedBy [] calls) (addedBy [] calls') → ∀ p,
      ((calls.foldl perform t.clear).isCrossing p = true →
        ∃ q, (calls'.foldl perform t'.clear).isCrossing q = true ∧ |p.x - q.x| ≤ 1 ∧ |p.y - q.y| ≤ 1) ∧
      (NotOnlyHalfway (addedBy [] calls) p →
        (calls.foldl perform t.clear).isCrossing p = (calls'.foldl perform t'.clear).isCrossing p)) ∧
    ∀ (s t : Segment) (inner : Bool),
      s.reverse.crossing t inner = s.crossing t inner ∧
      (s.crossing t.reverse inner = s.crossing t inner ↔
        ∀ place, s.Crosses t inner place → ¬Halfway place.1 ∧ ¬Halfway place.2) ∧
      (s.crossing t inner = t.crossing s inner ↔
        ∀ place, s.Crosses t inner place → (Halfway place.1 → (t.a.x < place.1 ↔ s.a.x < place.1)) ∧
          (Halfway place.2 → (t.a.y < place.2 ↔ s.a.y < place.2))) := by
  constructor
  · intro t t' calls calls' same p
    constructor
    · intro found
      obtain ⟨q, noted, near⟩ := same.noted_near ((isCrossing_iff_noted ..).1 found)
      exact ⟨q, (isCrossing_iff_noted ..).2 noted, near⟩
    · intro whole
      rw [Bool.eq_iff_iff, isCrossing_iff_noted, isCrossing_iff_noted]
      exact ⟨same.noted_of_whole whole, same.symm.noted_of_whole (same.notOnlyHalfway whole)⟩
  · intro s t inner
    exact ⟨crossing_reverse_first s t inner, crossing_reverse_second_iff, crossing_comm_iff⟩

/-- A level wire and a steep one that meet halfway between two points. -/
def level : Segment := ⟨⟨0, 0⟩, ⟨1, 0⟩⟩
def steep : Segment := ⟨⟨0, -1⟩, ⟨1, 1⟩⟩

/-- Drawing the earlier wire from its other end moves the crossing, and so does adding it later. -/
theorem not_all_orders_alike :
    (¬∀ (t t' : Tracker) (calls calls' : List Call), SameWires (addedBy [] calls) (addedBy [] calls') → ∀ p,
      (calls.foldl perform t.clear).isCrossing p = (calls'.foldl perform t'.clear).isCrossing p) ∧
    (¬∀ (s t : Segment) (inner : Bool), s.crossing t inner = t.crossing s inner) ∧
    ¬∀ (s t : Segment) (inner : Bool), s.crossing t.reverse inner = s.crossing t inner := by
  refine ⟨?_, ?_, ?_⟩
  · intro all
    have same := all {} {} [.group "A" false, .wire 0 level, .group "B" false, .wire 1 steep]
      [.group "A" false, .wire 0 level.reverse, .group "B" false, .wire 1 steep] (by decide) ⟨1, 0⟩
    exact absurd same (by decide)
  · intro all
    exact absurd (all level steep.reverse true) (by decide)
  · intro all
    exact absurd (all steep level true) (by decide)

/-- Two wires that meet at quarters, and the same ones in the other order, each from its other end. -/
def risingFirst : List Call := [.group "A" false, .wire 0 rising, .group "B" false, .wire 1 falling]
def fallingFirst : List Call := [.group "B" true, .wire 0 falling.reverse, .group "A" false, .wire 1 rising.reverse]

theorem risingFirst_meets : MeetingPlace (addedBy [] risingFirst) (3 / 4, 1 / 4) := by
  refine ⟨⟨"A", rising⟩, .head _, ⟨"B", falling⟩, .tail _ (.head _), by decide, ?_⟩
  refine ⟨mt parallel_iff.1 (by decide), 1 / 4, 5 / 8, ⟨by norm_num, by norm_num, ?_⟩, ?_, ?_⟩
  · norm_num [along, rising, falling, direction]
  · norm_num [AtEnds]
  · norm_num [along, rising, direction]

theorem not_halfway_quarters : ¬Halfway (3 / 4) ∧ ¬Halfway (1 / 4) := by
  constructor <;> rintro ⟨k, same⟩
  · have whole : (4 * k : ℚ) = 1 := by linarith
    have : 4 * k = 1 := by exact_mod_cast whole
    omega
  · have whole : (4 * k : ℚ) = -1 := by linarith
    have : 4 * k = -1 := by exact_mod_cast whole
    omega

theorem risingFirst_in_any_order : SameWires (addedBy [] risingFirst) (addedBy [] fallingFirst) ∧
    NotOnlyHalfway (addedBy [] risingFirst) ⟨1, 0⟩ ∧ (risingFirst.foldl perform {}).isCrossing ⟨1, 0⟩ = true ∧
    (risingFirst.foldl perform {}).isCrossing ⟨1, 0⟩ = (fallingFirst.foldl perform {}).isCrossing ⟨1, 0⟩ := by
  have same : SameWires (addedBy [] risingFirst) (addedBy [] fallingFirst) := by decide
  have near : Rounds ⟨1, 0⟩ (3 / 4, 1 / 4) := by
    norm_num [Rounds, abs_le]
  have whole : NotOnlyHalfway (addedBy [] risingFirst) ⟨1, 0⟩ := fun _ _ _ =>
    ⟨_, risingFirst_meets, near, not_halfway_quarters⟩
  exact ⟨same, whole, by decide, (crossings_in_any_order.1 {} {} risingFirst fallingFirst same ⟨1, 0⟩).2 whole⟩

end Tracker

end Redraft
