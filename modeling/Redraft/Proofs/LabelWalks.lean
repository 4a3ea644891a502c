import Redraft.Net.LabelWalk
import Redraft.Proofs.ExactDistance

/-!
# Walks that find a place

A walk gives the first of its probes that is inside and free, if what is inside
comes before what is outside in each direction. That holds of the probes near a
segment from an origin near it, as they lie between the origin and the last one
that is near; so nothing is missed where a direction ends.
-/

namespace Redraft

/-! ## The first free probe -/

section
variable {inside blocked : Point → Bool} {origin step : Point} {d : Directions} {n left : Nat}

/-- In each direction, the probes that are inside come first. -/
def InsideFirst (inside : Point → Bool) (origin step : Point) : Prop :=
  ∀ m n, m ≤ n → m % 2 = n % 2 → inside (probe origin step n) = true → inside (probe origin step m) = true

/-- A direction that has ended has no probe inside from a number on. -/
def Directions.Spent (d : Directions) (inside : Point → Bool) (origin step : Point) (n : Nat) : Prop :=
  ∀ m, n ≤ m → d.admits m = false → inside (probe origin step m) = false

theorem Directions.Spent.next (spent : d.Spent inside origin step n) : d.Spent inside origin step (n + 1) := by
  intro m after
  exact spent m (by omega)

theorem Directions.admits_close (d : Directions) (n m : Nat) :
    (d.close n).admits m = (d.admits m && m % 2 != n % 2) := by
  rcases Nat.mod_two_eq_zero_or_one n with even | odd <;> rcases Nat.mod_two_eq_zero_or_one m with even' | odd' <;>
    simp [admits, close, *]

theorem Directions.admits_of_not_any (ended : d.any = false) (n : Nat) : d.admits n = false := by
  obtain ⟨forward, back⟩ := Bool.or_eq_false_iff.1 ended
  simp [admits, forward, back]

theorem Directions.Spent.close (spent : d.Spent inside origin step n) (first : InsideFirst inside origin step)
    (outside : inside (probe origin step n) = false) : (d.close n).Spent inside origin step (n + 1) := by
  intro m after ended
  rw [admits_close, Bool.and_eq_false_iff] at ended
  rcases ended with ended | same
  · exact spent m (by omega) ended
  · have same : n % 2 = m % 2 := (bne_eq_false_iff_eq.1 same).symm
    by_contra isInside
    have earlier := first n m (by omega) same (by simpa using isInside)
    rw [outside] at earlier
    cases earlier

/-- A walk gives the first of its remaining probes that is inside and not blocked. -/
theorem walkFrom_eq (first : InsideFirst inside origin step) (spent : d.Spent inside origin step n) :
    walkFrom inside blocked origin step d n left =
      ((List.range' n left).map (probe origin step)).find? fun p => inside p && !blocked p := by
  induction left generalizing d n with
  | zero => rfl
  | succ left ih =>
    by_cases ended : d.any = false
    · -- no probe that is left is inside, as both directions have ended
      rw [walkFrom, if_pos (by simp [ended]), eq_comm, List.find?_eq_none]
      intro p member
      obtain ⟨m, isLeft, rfl⟩ := List.mem_map.1 member
      have outside := spent m (List.mem_range'_1.1 isLeft).1 (Directions.admits_of_not_any ended m)
      simp [outside]
    rw [walkFrom, if_neg (by simpa using ended), List.range'_succ, List.map_cons]
    dsimp only
    by_cases outside : inside (probe origin step n) = false
    · rw [List.find?_cons_of_neg (by simp [outside])]
      split
      · exact ih spent.next
      · rw [if_pos (by simp [outside])]
        exact ih (spent.close first outside)
    · have admits : d.admits n = true := by
        by_contra ended
        exact outside (spent n le_rfl (by simpa using ended))
      rw [if_neg (by simp [admits]), if_neg (by simpa using outside)]
      cases isBlocked : blocked (probe origin step n) with
      | true =>
        rw [if_pos rfl, List.find?_cons_of_neg (by simp [isBlocked])]
        exact ih spent.next
      | false =>
        rw [if_neg Bool.false_ne_true, List.find?_cons_of_pos]
        simpa [isBlocked] using outside

theorem walk_eq (first : InsideFirst inside origin step) (trials : Nat) : walk inside blocked origin step trials =
    ((List.range trials).map (probe origin step)).find? fun p => inside p && !blocked p := by
  rw [List.range_eq_range']
  refine walkFrom_eq first ?_
  intro m _ ended
  simp [Directions.admits] at ended

/-- A probe of the walk that is inside and not blocked. -/
def FreeProbe (inside blocked : Point → Bool) (origin step : Point) (n : Nat) : Prop :=
  inside (probe origin step n) = true ∧ blocked (probe origin step n) = false

theorem walk_eq_some (first : InsideFirst inside origin step) {trials : Nat} {p : Point} :
    walk inside blocked origin step trials = some p ↔ ∃ n < trials, p = probe origin step n ∧
      FreeProbe inside blocked origin step n ∧ ∀ m < n, ¬FreeProbe inside blocked origin step m := by
  rw [walk_eq first, List.find?_map, Option.map_eq_some_iff]
  constructor
  · rintro ⟨n, found, rfl⟩
    obtain ⟨free, isTried, others⟩ := List.find?_range_eq_some.1 found
    refine ⟨n, List.mem_range.1 isTried, rfl, by simpa [FreeProbe] using free, ?_⟩
    intro m before isFree
    simpa [isFree.1, isFree.2] using others m before
  · rintro ⟨n, isTried, rfl, ⟨isInside, free⟩, others⟩
    refine ⟨n, List.find?_range_eq_some.2 ⟨by simp [isInside, free], List.mem_range.2 isTried, ?_⟩, rfl⟩
    intro m before
    rw [Bool.not_eq_true', Bool.eq_false_iff]
    intro isFree
    exact others m before (by simpa [FreeProbe] using isFree)

/-- What a walk gives depends on the probes that it may try alone. -/
theorem walkFrom_congr {inside' : Point → Bool}
    (same : ∀ m, n ≤ m → m < n + left → inside (probe origin step m) = inside' (probe origin step m)) :
    walkFrom inside blocked origin step d n left = walkFrom inside' blocked origin step d n left := by
  induction left generalizing d n with
  | zero => rfl
  | succ left ih =>
    have later (e : Directions) :
        walkFrom inside blocked origin step e (n + 1) left = walkFrom inside' blocked origin step e (n + 1) left :=
      ih fun m after before => same m (by omega) (by omega)
    simp only [walkFrom, same n le_rfl (by omega), later]

theorem walk_eq_none (first : InsideFirst inside origin step) {trials : Nat} :
    walk inside blocked origin step trials = none ↔ ∀ n < trials, ¬FreeProbe inside blocked origin step n := by
  rw [walk_eq first, List.find?_eq_none]
  simp [FreeProbe]

end

/-! ## Probes along a segment -/

namespace Segment
variable {w : Segment} {origin step : Point}

/-- How many steps forward a probe of the walk lies. -/
def stepsTo (n : Nat) : Int := if n % 2 = 1 then ((n + 1) / 2 : Nat) else -((n + 1) / 2 : Nat)

theorem probe_eq (origin step : Point) (n : Nat) : probe origin step n = origin + step.scale (stepsTo n) := by
  unfold probe stepsTo
  split
  · rfl
  · ext <;> simp [Point.scale] <;> ring

/-- An earlier probe in the same direction lies between the origin and a later one. -/
theorem stepsTo_between {m n : Nat} (le : m ≤ n) (same : m % 2 = n % 2) :
    ∃ v : ℝ, (0 ≤ v ∧ v ≤ 1) ∧ (stepsTo m : ℝ) = v * stepsTo n := by
  have fewer : (m + 1) / 2 ≤ (n + 1) / 2 := by omega
  unfold stepsTo
  rw [same]
  generalize (m + 1) / 2 = j at *
  generalize (n + 1) / 2 = k at *
  by_cases none : k = 0
  · refine ⟨0, ⟨le_rfl, zero_le_one⟩, ?_⟩
    simp [Nat.eq_zero_of_le_zero (none ▸ fewer)]
  · have some : (0 : ℝ) < k := by exact_mod_cast Nat.pos_of_ne_zero none
    have fewer : (j : ℝ) ≤ k := by exact_mod_cast fewer
    refine ⟨j / k, ⟨by positivity, (div_le_one some).2 fewer⟩, ?_⟩
    split <;> push_cast <;> field_simp

theorem Near.insideFirst (held : w.Near origin) (step : Point) : InsideFirst w.isNear origin step := by
  intro m n le same later
  obtain ⟨v, ⟨low, high⟩, part⟩ := stepsTo_between le same
  have moved (a b : Int) : ((a + stepsTo m * b : Int) : ℝ) = a + v * ((a + stepsTo n * b : Int) - a) := by
    push_cast
    rw [part]
    ring
  rw [probe_eq, isNear_iff] at later ⊢
  exact held.between later low high (moved _ _) (moved _ _)

/-- From an origin near a segment, the walk gives the first of its probes that is near the segment and free, and
    nothing only if there is none; no probe beyond the first one off the segment is near it. A search for a
    place on the segment is this walk, if the measured distances of its probes decide like the exact ones. -/
theorem freePlace_finds_first {length : Int} (held : w.Near origin) (isStep : w.direction.resize length = .ok step)
    (blocked : Point → Bool) (trials : Nat) :
    (∀ p, walk w.isNear blocked origin step trials = some p ↔
      ∃ n < trials, p = probe origin step n ∧ (w.Near (probe origin step n) ∧ blocked (probe origin step n) = false) ∧
        ∀ m < n, ¬(w.Near (probe origin step m) ∧ blocked (probe origin step m) = false)) ∧
    (walk w.isNear blocked origin step trials = none ↔
      ∀ n < trials, ¬(w.Near (probe origin step n) ∧ blocked (probe origin step n) = false)) ∧
    (∀ m n, m ≤ n → m % 2 = n % 2 → ¬w.Near (probe origin step m) → ¬w.Near (probe origin step n)) ∧
    ((∀ n < trials, w.touches (probe origin step n) = w.isNear (probe origin step n)) →
      freePlace origin w blocked length trials = .ok (walk w.isNear blocked origin step trials)) := by
  have first := held.insideFirst step
  refine ⟨?_, ?_, ?_, ?_⟩
  · intro p
    rw [walk_eq_some first]
    simp only [FreeProbe, isNear_iff]
  · rw [walk_eq_none first]
    simp only [FreeProbe, isNear_iff]
  · intro m n le same outside later
    exact outside (isNear_iff.1 (first m n le same (isNear_iff.2 later)))
  · intro agree
    unfold freePlace walk
    rw [isStep]
    exact congrArg Except.ok (walkFrom_congr fun m _ before => agree m (by omega))

/-- A wire that rises by one unit for two, from the origin. -/
def rise : Segment := ⟨⟨0, 0⟩, ⟨254000, 127000⟩⟩

theorem rise_finds_second : rise.Near Point.origin ∧ rise.direction.resize 12700 = .ok ⟨11359, 5680⟩ ∧
    freePlace Point.origin rise (fun p => p.x < 20000) 12700 8 = .ok (some ⟨22718, 11360⟩) := by
  have held : rise.Near Point.origin := by decide +kernel
  have isStep : rise.direction.resize 12700 = .ok ⟨11359, 5680⟩ := by decide +kernel
  obtain ⟨found, -, -, same⟩ := freePlace_finds_first held isStep (fun p => p.x < 20000) 8
  refine ⟨held, isStep, ?_⟩
  rw [same (by decide +kernel)]
  exact congrArg Except.ok ((found _).2 ⟨3, by decide, by decide, by decide +kernel, by decide +kernel⟩)

end Segment

end Redraft
