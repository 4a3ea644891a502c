import Redraft.Proofs.PageCentering
import Redraft.Proofs.UnitTiles

/-!
# Growing a page

A side of a page that is too short for the content grows to the whole mil that is
nearest to what the content needs. But paper is cut to millimetres: where that mil
lies below the side, the side gets shorter instead.
-/

namespace Redraft
open Number (twoTo)

/-- The side is too short for a target that is less than half a mil above a whole mil below the side; at just
    half a mil, that whole mil is even. -/
def CutShort (side target : Int) : Prop :=
  side < target ∧ side % unitsPerMil ≠ 0 ∧
    (2 * (target - mils (side / unitsPerMil)) < unitsPerMil ∨
      2 * (target - mils (side / unitsPerMil)) = unitsPerMil ∧ side / unitsPerMil % 2 = 0)

instance (side target : Int) : Decidable (CutShort side target) := inferInstanceAs (Decidable (_ ∧ _ ∧ _))

/-- A side of a page before and after it is fitted to content that needs `target`. -/
structure SideFits (side target after : Int) : Prop where
  reaches : target - 127 ≤ after
  kept : target ≤ side → after = side
  shrinks : after < side ↔ CutShort side target

theorem toWholeMils_eq {n : Int} (small : n.natAbs ≤ twoTo 53) :
    toWholeMils n = mils (Number.halfEven n unitsPerMil) := by
  have exact : Number.roundQuotient n unitsPerMil = Number.halfEven n unitsPerMil := if_pos small
  rw [toWholeMils, exact]

theorem toWholeMils_lt_iff {side target : Int} (small : target.natAbs ≤ twoTo 53) (short : side < target) :
    toWholeMils target < side ↔ CutShort side target := by
  rw [toWholeMils_eq small]
  unfold CutShort mils Number.halfEven
  have mil : (unitsPerMil : Int) = 254 := rfl
  rw [mil]
  dsimp only
  by_cases down : 2 * (target % 254) < 254 ∨ 2 * (target % 254) = 254 ∧ target / 254 % 2 = 0
  · rw [if_pos down]
    omega
  · rw [if_neg down]
    omega

/-- A side that is a whole number of mils, or more than half a mil above one, is never cut short. -/
theorem not_cutShort {side : Int} (smooth : side % unitsPerMil = 0 ∨ unitsPerMil < 2 * (side % unitsPerMil))
    (target : Int) : ¬ CutShort side target := by
  unfold CutShort mils
  have mil : (unitsPerMil : Int) = 254 := rfl
  rw [mil] at smooth ⊢
  omega

theorem growSide_fits (side : Int) {target : Int} (small : target.natAbs ≤ twoTo 53) :
    SideFits side target (growSide side target) := by
  have near : 2 * target - 254 ≤ 2 * growSide side target := growSide_near small
  by_cases short : side < target
  · have grown : growSide side target = toWholeMils target := if_pos short
    refine ⟨by omega, fun enough => absurd short (by omega), ?_⟩
    rw [grown]
    exact toWholeMils_lt_iff small short
  · have same : growSide side target = side := if_neg short
    rw [same]
    refine ⟨by omega, fun _ => rfl, ?_⟩
    constructor
    · intro less
      exact absurd less (Int.lt_irrefl side)
    · intro cut
      exact absurd cut.1 short

theorem Page.fit_size (p : Page) (e : Extent) : (p.fit e).size =
    ⟨growSide p.size.x (e.width + pageMargin), growSide p.size.y (e.height + pageMargin)⟩ := by
  unfold fit
  by_cases room : p.hasRoom e
  · rw [if_pos room]
    unfold hasRoom at room
    simp only [Bool.and_eq_true, decide_eq_true_eq] at room
    ext
    · exact (if_neg (Int.not_lt.2 room.1)).symm
    · exact (if_neg (Int.not_lt.2 room.2)).symm
  · rw [if_neg room]

/-- The papers with a side that can be cut short. -/
def raggedPapers : List String := ["A0", "A1", "A2", "A3"]

theorem not_cutShort_paper {name : String} {p : Page} (paper : Page.ofPaper name = .ok p)
    (smooth : name ∉ raggedPapers) (target : Int) : ¬ CutShort p.size.x target ∧ ¬ CutShort p.size.y target := by
  have sides : ∀ entry ∈ papers, entry.1 ∉ raggedPapers → ∀ side ∈ [entry.2.1 * 1000, entry.2.2 * 1000],
      side % unitsPerMil = 0 ∨ unitsPerMil < 2 * (side % unitsPerMil) := by decide
  unfold Page.ofPaper paperSize at paper
  cases found : papers.lookup name with
  | none => simp [found, Except.map] at paper
  | some size =>
    simp only [found, Except.map, Except.ok.injEq] at paper
    subst paper
    have free := sides _ (Entries.mem_of_get? found) smooth
    exact ⟨not_cutShort (free _ (by simp)) target, not_cutShort (free _ (by simp)) target⟩

/-- A page that is fitted to content gets the room that the content needs, to half a mil, and a side that has it
    stays. A side gets shorter just if it is cut short; no side of the papers but the largest ones is. -/
theorem Page.fit_sides (p : Page) {e : Extent} (wide : e.width < twoTo 50) (tall : e.height < twoTo 50) :
    SideFits p.size.x (e.width + pageMargin) (p.fit e).size.x ∧
    SideFits p.size.y (e.height + pageMargin) (p.fit e).size.y ∧
    ∀ name, Page.ofPaper name = .ok p → name ∉ raggedPapers →
      p.size.x ≤ (p.fit e).size.x ∧ p.size.y ≤ (p.fit e).size.y := by
  have width := e.width_nonneg
  have height := e.height_nonneg
  have margin : pageMargin = 381000 := rfl
  have half : twoTo 50 = 1125899906842624 := rfl
  have limit : twoTo 53 = 9007199254740992 := rfl
  have across : SideFits p.size.x (e.width + pageMargin) (p.fit e).size.x := by
    rw [p.fit_size]
    exact growSide_fits _ (by omega)
  have along : SideFits p.size.y (e.height + pageMargin) (p.fit e).size.y := by
    rw [p.fit_size]
    exact growSide_fits _ (by omega)
  refine ⟨across, along, ?_⟩
  intro name paper smooth
  constructor
  · exact Int.not_lt.1 fun less => (not_cutShort_paper paper smooth _).1 (across.shrinks.1 less)
  · exact Int.not_lt.1 fun less => (not_cutShort_paper paper smooth _).2 (along.shrinks.1 less)

/-- A page of the paper A3. -/
def a3 : Page := ⟨some "A3", ⟨4200000, 2970000⟩⟩

/-- Content that needs the least bit more than the width of A3. -/
def barelyWide : Extent := some ⟨0, 0, 3819001, 100, by decide, by decide⟩

theorem a3_fit_sides : barelyWide.width < twoTo 50 ∧ barelyWide.height < twoTo 50 ∧
    CutShort a3.size.x (barelyWide.width + pageMargin) ∧ (a3.fit barelyWide).size = ⟨4199890, 2970000⟩ ∧
    SideFits a3.size.x (barelyWide.width + pageMargin) (a3.fit barelyWide).size.x ∧
    SideFits a3.size.y (barelyWide.height + pageMargin) (a3.fit barelyWide).size.y := by
  have wide : barelyWide.width < twoTo 50 := by decide
  have tall : barelyWide.height < twoTo 50 := by decide
  obtain ⟨across, along, _⟩ := a3.fit_sides wide tall
  exact ⟨wide, tall, by decide, by decide, across, along⟩

/-- The page A3 gets narrower for content that needs more than its width. -/
theorem not_all_pages_kept : ¬ ∀ (name : String) (p : Page) (e : Extent), Page.ofPaper name = .ok p →
    e.width < twoTo 50 → e.height < twoTo 50 →
    (p.size.x ≤ (p.fit e).size.x ∧ p.size.y ≤ (p.fit e).size.y) ∧
    (e.width + pageMargin - 127 ≤ (p.fit e).size.x ∧ e.height + pageMargin - 127 ≤ (p.fit e).size.y) ∧
    (e.width + pageMargin ≤ p.size.x → (p.fit e).size.x = p.size.x) ∧
    (e.height + pageMargin ≤ p.size.y → (p.fit e).size.y = p.size.y) := by
  intro claim
  have kept := (claim "A3" a3 barelyWide rfl (by decide) (by decide)).1.1
  exact absurd kept (by decide)

end Redraft
