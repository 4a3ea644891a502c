import Redraft.Proofs.PageCentering

/-!
# Extents of merged points

An extent is made by merging points and other extents, which are made in the same
way. Only two corners of an extent are merged, but a box that holds these holds
all its points. So it is the same as if the points had been merged one by one:
the extent is the least box that holds them, and empty if there are none.
-/

namespace Redraft

/-! ## Boxes that hold the same points -/

section
variable {b c : Box} {points more : List Point}

theorem Box.holds_center (b : Box) : b.Holds b.center := by
  have wide := b.wide
  have tall := b.tall
  unfold Holds center width height
  dsimp only
  omega

/-- A box holds all points just if it holds the corners of the box that they bound. -/
theorem Box.Bounds.held_iff (bounds : c.Bounds points) (b : Box) :
    (∀ p ∈ points, b.Holds p) ↔ b.Holds c.topLeft ∧ b.Holds c.bottomRight := by
  have wide := c.wide
  have tall := c.tall
  constructor
  · intro held
    have within := bounds.within held
    unfold Box.Holds Box.topLeft Box.bottomRight
    dsimp only
    omega
  · rintro ⟨first, last⟩ p member
    have inside := bounds.holds p member
    unfold Box.Holds Box.topLeft Box.bottomRight at *
    dsimp only at first last
    omega

namespace Extent

theorem ofPoints_eq_none : ofPoints points = none ↔ points = [] := by
  constructor
  · intro isEmpty
    by_contra some_point
    obtain ⟨b, same, _⟩ := ofPoints_bounds some_point
    cases isEmpty.symm.trans same
  · rintro rfl
    rfl

/-- What counts of some points is which boxes hold them all. -/
theorem ofPoints_eq_of_held (alike : points = [] ↔ more = [])
    (held : ∀ b : Box, (∀ p ∈ points, b.Holds p) ↔ ∀ p ∈ more, b.Holds p) : ofPoints points = ofPoints more := by
  by_cases none : points = []
  · rw [none, alike.1 none]
  · obtain ⟨b, first, bounds⟩ := ofPoints_bounds none
    obtain ⟨c, second, bounds'⟩ := ofPoints_bounds (mt alike.2 none)
    have inner := bounds.within ((held c).2 bounds'.holds)
    have outer := bounds'.within ((held b).1 bounds.holds)
    rw [first, second, Option.some_inj]
    ext <;> omega

/-- To merge an extent is to merge its points. -/
theorem mergeBox_ofPoints (points more : List Point) :
    mergeBox (ofPoints points) (ofPoints more) = ofPoints (points ++ more) := by
  by_cases none : more = []
  · rw [none, List.append_nil]
    rfl
  · obtain ⟨c, same, bounds⟩ := ofPoints_bounds none
    have corners : mergeBox (ofPoints points) (some c) = ofPoints (points ++ [c.topLeft] ++ [c.bottomRight]) := by
      rw [ofPoints_append_singleton, ofPoints_append_singleton]
      rfl
    rw [same, corners]
    apply ofPoints_eq_of_held
    · simp [none]
    · intro b
      simp only [List.append_assoc, List.forall_mem_append, bounds.held_iff, List.forall_mem_singleton]

end Extent

end

/-! ## Histories of an extent -/

/-- How an extent was made: by merging points, other extents and no box at all, in turn. -/
inductive Merging where
  | empty
  | point (before : Merging) (p : Point)
  | box (before other : Merging)
  | noBox (before : Merging)

namespace Merging

/-- The extent that is made. -/
def extent : Merging → Extent
  | empty => none
  | point before p => before.extent.merge p
  | box before other => before.extent.mergeBox other.extent
  | noBox before => before.extent.mergeBox none

/-- All points that were merged, directly or with another extent. -/
def points : Merging → List Point
  | empty => []
  | point before p => before.points ++ [p]
  | box before other => before.points ++ other.points
  | noBox before => before.points

/-- Whatever the history, the extent is that of the points merged. -/
theorem extent_eq (m : Merging) : m.extent = Extent.ofPoints m.points := by
  induction m with
  | empty => rfl
  | point before p ih => rw [extent, points, Extent.ofPoints_append_singleton, ih]
  | box before other ih ih' => rw [extent, points, ih, ih', Extent.mergeBox_ofPoints]
  | noBox before ih => exact ih

/-- However an extent was made, it is empty just if no point was merged, and otherwise the box that holds all points
    merged and is held by every other box that does, with its center inside. It depends on nothing but which points
    were merged, and its width and height are never negative. -/
theorem extent_least (m : Merging) :
    (m.extent = none ↔ m.points = []) ∧
    (∀ b, m.extent = some b → (∀ p ∈ m.points, b.Holds p) ∧
      (∀ c : Box, (∀ p ∈ m.points, c.Holds p) → ∀ q, b.Holds q → c.Holds q) ∧ b.Holds m.extent.center) ∧
    (∀ m' : Merging, (∀ p, p ∈ m'.points ↔ p ∈ m.points) → m'.extent = m.extent) ∧
    0 ≤ m.extent.width ∧ 0 ≤ m.extent.height := by
  refine ⟨?_, ?_, ?_, m.extent.width_nonneg, m.extent.height_nonneg⟩
  · rw [extent_eq, Extent.ofPoints_eq_none]
  · intro b isBox
    have some_point : m.points ≠ [] := by
      intro none
      rw [extent_eq, none] at isBox
      cases isBox
    obtain ⟨c, same, bounds⟩ := Extent.ofPoints_bounds some_point
    obtain rfl : b = c := Option.some.inj (isBox.symm.trans (m.extent_eq.trans same))
    refine ⟨bounds.holds, ?_, ?_⟩
    · intro c held q inside
      have within := bounds.within held
      unfold Box.Holds at *
      omega
    · rw [isBox]
      exact b.holds_center
  · intro m' same
    rw [extent_eq, extent_eq]
    exact Extent.ofPoints_eq_of_same same

/-- Two points, the first one at the origin, with the extent of a third one between and a box that is none. -/
def ofThree : Merging := .noBox (.point (.box (.point .empty ⟨0, 0⟩) (.point (.box .empty .empty) ⟨-2, 5⟩)) ⟨3, 1⟩)

/-- The same points in another order, grouped in another way, and one of them twice. -/
def regrouped : Merging :=
  .box .empty (.box (.point (.point .empty ⟨3, 1⟩) ⟨-2, 5⟩) (.point (.point .empty ⟨-2, 5⟩) ⟨0, 0⟩))

theorem ofThree_least : ofThree.extent = some ⟨-2, 0, 3, 5, by decide, by decide⟩ ∧
    (∀ p ∈ ofThree.points, Box.Holds ⟨-2, 0, 3, 5, by decide, by decide⟩ p) ∧
    (∀ p, p ∈ regrouped.points ↔ p ∈ ofThree.points) ∧ regrouped.extent = ofThree.extent := by
  have made : ofThree.extent = some ⟨-2, 0, 3, 5, by decide, by decide⟩ := by decide
  have same (p : Point) : p ∈ regrouped.points ↔ p ∈ ofThree.points := by
    simp only [regrouped, ofThree, points, List.nil_append, List.cons_append, List.mem_cons, List.not_mem_nil, or_false]
    tauto
  obtain ⟨_, least, alike, _⟩ := ofThree.extent_least
  exact ⟨made, (least _ made).1, same, alike regrouped same⟩

end Merging

end Redraft
