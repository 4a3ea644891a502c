import Mathlib.Data.List.Induction
import Redraft.Proofs.UnitTiles

/-!
# The middle of the page

A sheet is measured before its supply pins get their labels, and moved in grid
steps after that. The labels stand on pins, which are measured as well, so the
finished sheet has the extent that was measured, moved. The page has room for
it and a margin, of which half a page margin less a grid step remains.
-/

namespace Redraft

/-! ## Boxes of points -/

/-- The box is the least one that holds some points: each of its sides goes through one. -/
structure Box.Bounds (b : Box) (points : List Point) : Prop where
  holds : ∀ p ∈ points, b.Holds p
  left : ∃ p ∈ points, p.x = b.left
  top : ∃ p ∈ points, p.y = b.top
  right : ∃ p ∈ points, p.x = b.right
  bottom : ∃ p ∈ points, p.y = b.bottom

namespace Box.Bounds
variable {b c : Box} {points more : List Point}

theorem ofPoint (p : Point) : (Box.ofPoint p).Bounds [p] := by
  constructor <;> simp [Box.ofPoint, Holds]

theorem merge (bounds : b.Bounds points) (p : Point) : (b.merge p).Bounds (points ++ [p]) := by
  have side {f : Point → Int} {old new : Int} (from_old : ∃ q ∈ points, f q = old) (either : new = old ∨ new = f p) :
      ∃ q ∈ points ++ [p], f q = new := by
    rcases either with rfl | rfl
    · obtain ⟨q, member, same⟩ := from_old
      exact ⟨q, List.mem_append_left _ member, same⟩
    · exact ⟨p, by simp, rfl⟩
  refine ⟨?_, side bounds.left ?_, side bounds.top ?_, side bounds.right ?_, side bounds.bottom ?_⟩
  · intro q member
    rcases List.mem_append.1 member with there | new
    · exact (bounds.holds q there).merge p
    · rw [List.mem_singleton.1 new]
      exact b.holds_merge p
  all_goals
    unfold Box.merge
    dsimp only
    omega

/-- A box that holds the points holds the box that they bound. -/
theorem within (bounds : b.Bounds points) (held : ∀ p ∈ points, c.Holds p) :
    c.left ≤ b.left ∧ c.top ≤ b.top ∧ b.right ≤ c.right ∧ b.bottom ≤ c.bottom := by
  obtain ⟨p, inP, left⟩ := bounds.left
  obtain ⟨q, inQ, top⟩ := bounds.top
  obtain ⟨r, inR, right⟩ := bounds.right
  obtain ⟨t, inT, bottom⟩ := bounds.bottom
  have heldP := held p inP
  have heldQ := held q inQ
  have heldR := held r inR
  have heldT := held t inT
  unfold Holds at *
  omega

/-- Points bound one box only, in any order and however often they are listed. -/
theorem unique (bounds : b.Bounds points) (bounds' : c.Bounds more) (same : ∀ p, p ∈ points ↔ p ∈ more) : b = c := by
  have inner := bounds.within fun p member => bounds'.holds p ((same p).1 member)
  have outer := bounds'.within fun p member => bounds.holds p ((same p).2 member)
  ext <;> omega

end Box.Bounds

namespace Extent

theorem ofPoints_append_singleton (points : List Point) (p : Point) :
    ofPoints (points ++ [p]) = merge (ofPoints points) p := by
  rw [ofPoints, List.foldl_append]
  rfl

/-- The extent of some points is the box that they bound. -/
theorem ofPoints_bounds {points : List Point} (some_point : points ≠ []) :
    ∃ b, ofPoints points = some b ∧ b.Bounds points := by
  induction points using List.reverseRecOn with
  | nil => exact absurd rfl some_point
  | append_singleton points p ih =>
    rw [ofPoints_append_singleton]
    by_cases first : points = []
    · subst first
      exact ⟨_, rfl, .ofPoint p⟩
    · obtain ⟨b, before, bounds⟩ := ih first
      rw [before]
      exact ⟨_, rfl, bounds.merge p⟩

/-- Points that are near the origin span a box of less than twice the distance. -/
theorem span_lt {points : List Point} {n : Int} (near : ∀ p ∈ points, -n < p.x ∧ p.x < n ∧ -n < p.y ∧ p.y < n)
    {b : Box} (measured : ofPoints points = some b) : b.width < 2 * n ∧ b.height < 2 * n := by
  have some_point : points ≠ [] := by
    rintro rfl
    cases measured
  obtain ⟨_, same, bounds⟩ := ofPoints_bounds some_point
  obtain rfl := Option.some.inj (same.symm.trans measured)
  obtain ⟨p, inP, left⟩ := bounds.left
  obtain ⟨q, inQ, right⟩ := bounds.right
  obtain ⟨r, inR, top⟩ := bounds.top
  obtain ⟨t, inT, bottom⟩ := bounds.bottom
  have nearP := near p inP
  have nearQ := near q inQ
  have nearR := near r inR
  have nearT := near t inT
  unfold Box.width Box.height
  omega

theorem ofPoints_eq_of_same {points more : List Point} (same : ∀ p, p ∈ points ↔ p ∈ more) :
    ofPoints points = ofPoints more := by
  by_cases none : points = []
  · subst none
    have none : more = [] := List.eq_nil_iff_forall_not_mem.2 fun p member => List.not_mem_nil ((same p).2 member)
    rw [none]
  · have some_more : more ≠ [] := by
      rintro rfl
      exact none (List.eq_nil_iff_forall_not_mem.2 fun p member => List.not_mem_nil ((same p).1 member))
    obtain ⟨b, first, bounds⟩ := ofPoints_bounds none
    obtain ⟨c, second, bounds'⟩ := ofPoints_bounds some_more
    rw [first, second, bounds.unique bounds' same]

end Extent

/-! ## Moved sheets -/

section Moved
variable {s : Sheet} {d : Point}

theorem Placement.apply_move (placement : Placement) (d p : Point) :
    Placement.apply { placement with position := placement.position + d } p = placement.apply p + d := by
  unfold Placement.apply
  ext
  · simp only [Point.add_x]
    omega
  · simp only [Point.add_y]
    omega

theorem Sheet.symbolPoints_move (s : Sheet) (x : PlacedSymbol) (d : Point) :
    (s.move d).symbolPoints (x.move d) = (s.symbolPoints x).map (· + d) := by
  have found : (s.move d).symbol? (x.move d).name = s.symbol? x.name := rfl
  unfold symbolPoints
  rw [found, List.map_cons]
  cases s.symbol? x.name with
  | none => rfl
  | some source =>
    congr 1
    unfold PlacedSymbol.outline
    rw [List.map_map]
    exact List.map_congr_left fun p _ => x.placement.apply_move d p

theorem Sheet.linePoints_move (lines : List Line) (d : Point) :
    ((lines.map (·.move d)).filter (!·.erased)).flatMap (fun l => [l.start, l.stop]) =
      ((lines.filter (!·.erased)).flatMap fun l => [l.start, l.stop]).map (· + d) := by
  induction lines with
  | nil => rfl
  | cons l lines ih =>
    cases erased : l.erased with
    | true => simpa [Line.move, erased] using ih
    | false => simpa [Line.move, erased] using ih

/-- All points that a sheet is measured by move with it. -/
theorem Sheet.points_move (s : Sheet) (d : Point) : (s.move d).points = s.points.map (· + d) := by
  have assoc (p q : Point) : p + d + q = p + q + d := by
    ext
    · simp only [Point.add_x]
      omega
    · simp only [Point.add_y]
      omega
  have symbols : (s.move d).symbols.flatMap (s.move d).symbolPoints =
      (s.symbols.flatMap s.symbolPoints).map (· + d) := by
    rw [List.map_flatMap]
    simp only [Sheet.move, List.flatMap_map]
    exact List.flatMap_congr fun x _ => s.symbolPoints_move x d
  have lines := linePoints_move s.lines d
  unfold points
  rw [symbols]
  simp only [List.map_append]
  refine congrArg₂ _ (congrArg₂ _ (congrArg₂ _ (congrArg₂ _ (congrArg₂ _ (congrArg₂ _ rfl lines) ?_) ?_) ?_) ?_) ?_
  all_goals simp [Sheet.move, List.map_flatMap, List.flatMap_map, Function.comp_def, assoc, SheetBlock.move]

theorem Sheet.extent_move (s : Sheet) (d : Point) : (s.move d).extent = s.extent.map (·.move d) := by
  unfold extent
  rw [points_move, Extent.ofPoints_move]

end Moved

/-! ## Labels made after measuring -/

/-- An implied label stands at a pin, where its symbol is measured. -/
theorem Sheet.implied_measured {s : Sheet} {x : PlacedSymbol} (member : x ∈ s.symbols) {l : NetLabel}
    (isImplied : l ∈ s.implied x) : l.position ∈ s.points := by
  obtain ⟨source, found, isLabel⟩ := mem_implied.1 isImplied
  obtain ⟨_, pin, p, isPin, _, _, rfl⟩ := mem_impliedLabels.1 isLabel
  obtain ⟨drawn, isDrawn, same⟩ := List.mem_map.1 isPin
  obtain ⟨rfl, rfl⟩ := Prod.mk.inj same
  obtain ⟨unit, isUnit, here⟩ := List.mem_flatMap.1 isDrawn
  have outlined : x.placement.apply drawn.position ∈ x.outline source := by
    refine List.mem_map_of_mem (List.mem_flatMap.2 ⟨unit, isUnit, List.mem_append_right _ ?_⟩)
    exact List.mem_flatMap.2 ⟨drawn, here, .head _⟩
  have measured : x.placement.apply drawn.position ∈ s.symbolPoints x := by
    unfold symbolPoints
    rw [found]
    exact List.mem_cons_of_mem _ outlined
  unfold points
  simp only [List.mem_append]
  refine .inl (.inl (.inl (.inl (.inl (.inl ?_)))))
  exact List.mem_flatMap.2 ⟨x, member, measured⟩

/-- The finished sheet has the extent of its content, moved. -/
theorem Sheet.finish_extent (s : Sheet) {symbols : List PlacedSymbol} (placed : symbols ⊆ s.symbols) :
    (s.finish symbols).extent = s.extent.map (·.move s.shift) := by
  unfold finish
  rw [extent_move]
  congr 1
  apply Extent.ofPoints_eq_of_same
  intro p
  have added (p : Point) (member : p ∈ (symbols.flatMap s.implied).map (·.position)) : p ∈ s.points := by
    obtain ⟨l, isLabel, rfl⟩ := List.mem_map.1 member
    obtain ⟨x, isSymbol, isImplied⟩ := List.mem_flatMap.1 isLabel
    exact implied_measured (placed isSymbol) isImplied
  constructor
  · intro member
    by_cases new : p ∈ (symbols.flatMap s.implied).map (·.position)
    · exact added p new
    · simp only [points, List.map_append, List.mem_append, new, or_false] at member ⊢
      exact member
  · intro member
    simp only [points, List.map_append, List.mem_append] at member ⊢
    -- the labels that were there come first
    tauto

/-! ## Rounding -/

theorem cutTo_dvd (pitch value : Int) : pitch ∣ cutTo pitch value := by
  unfold cutTo
  split
  · exact Int.dvd_mul_left _ _
  · exact Int.dvd_mul_left _ _

/-- What is cut off is less than the pitch. -/
theorem cutTo_near {pitch : Int} (pos : 0 < pitch) (value : Int) :
    -pitch < value - cutTo pitch value ∧ value - cutTo pitch value < pitch := by
  have whole (n : Int) : Int.fdiv n pitch * pitch = n - n % pitch := by
    rw [Int.fdiv_eq_ediv_of_nonneg _ (by omega)]
    have := Int.ediv_mul_add_emod n pitch
    omega
  have low (n : Int) := Int.emod_nonneg n (by omega : pitch ≠ 0)
  have high (n : Int) := Int.emod_lt_of_pos n pos
  unfold cutTo
  split
  · rw [Int.neg_mul, whole]
    have := low (-value)
    have := high (-value)
    omega
  · rw [whole]
    have := low value
    have := high value
    omega

theorem toWholeMils_near {n : Int} (small : n.natAbs ≤ Number.twoTo 53) : 2 * n - 254 ≤ 2 * toWholeMils n := by
  have near := (Number.two_mul_halfEven_le n (by decide : 0 < unitsPerMil)).1
  have rounded : Number.roundQuotient n unitsPerMil = Number.halfEven n unitsPerMil := by
    unfold Number.roundQuotient
    exact if_pos small
  unfold toWholeMils mils
  rw [rounded]
  unfold unitsPerMil at *
  omega

/-! ## The page -/

theorem growSide_near {side target : Int} (small : target.natAbs ≤ Number.twoTo 53) :
    2 * target - 254 ≤ 2 * growSide side target := by
  unfold growSide
  split
  · exact toWholeMils_near small
  · omega

/-- The page gets the room that the content needs, to half a mil. -/
theorem Page.fit_near (p : Page) {e : Extent} (wide : (e.width + pageMargin).natAbs ≤ Number.twoTo 53)
    (tall : (e.height + pageMargin).natAbs ≤ Number.twoTo 53) :
    2 * (e.width + pageMargin) - 254 ≤ 2 * (p.fit e).size.x ∧
      2 * (e.height + pageMargin) - 254 ≤ 2 * (p.fit e).size.y := by
  unfold fit hasRoom
  split
  · rename_i room
    simp only [Bool.and_eq_true, decide_eq_true_eq] at room
    omega
  · exact ⟨growSide_near wide, growSide_near tall⟩

/-- Content is moved along an axis so that its middle is less than a grid step from that of the page,
    and what the page is larger than it, less a grid step on each side, stays free. -/
theorem centering_near {side size : Int} (room : 2 * (size + pageMargin) - 254 ≤ 2 * side) (low : Int) :
    let shift := cutTo grid (side / 2 - (low + size / 2))
    mils 500 ≤ low + shift ∧ low + size + shift + mils 500 ≤ side ∧
      -grid < side / 2 - (low + shift + size / 2) ∧ side / 2 - (low + shift + size / 2) < grid := by
  intro shift
  obtain ⟨below, above⟩ := cutTo_near (by decide : 0 < grid) (side / 2 - (low + size / 2))
  change -grid < side / 2 - (low + size / 2) - shift at below
  change side / 2 - (low + size / 2) - shift < grid at above
  have margin : pageMargin = 381000 := rfl
  have step : grid = 25400 := rfl
  have spare : mils 500 = 127000 := rfl
  rw [margin] at room
  rw [step] at below above ⊢
  rw [spare]
  omega

/-- A box is on the page with room to spare, and its middle is less than a grid step from that of the page. -/
structure Page.Centers (p : Page) (b : Box) : Prop where
  left : mils 500 ≤ b.left
  top : mils 500 ≤ b.top
  right : b.right + mils 500 ≤ p.size.x
  bottom : b.bottom + mils 500 ≤ p.size.y
  across : -grid < p.size.x / 2 - b.center.x ∧ p.size.x / 2 - b.center.x < grid
  along : -grid < p.size.y / 2 - b.center.y ∧ p.size.y / 2 - b.center.y < grid

/-- The content of a box is centered on the page that is fitted to it. -/
theorem Page.fit_centers (p : Page) {b : Box} (wide : b.width + pageMargin ≤ Number.twoTo 53)
    (tall : b.height + pageMargin ≤ Number.twoTo 53) :
    (p.fit (some b)).Centers (b.move ((p.fit (some b)).centering (some b))) := by
  have width : 0 ≤ b.width := Int.sub_nonneg_of_le b.wide
  have height : 0 ≤ b.height := Int.sub_nonneg_of_le b.tall
  have margin : 0 ≤ pageMargin := by decide
  have wide : (Extent.width (some b) + pageMargin).natAbs ≤ Number.twoTo 53 := by
    change (b.width + pageMargin).natAbs ≤ Number.twoTo 53
    omega
  have tall : (Extent.height (some b) + pageMargin).natAbs ≤ Number.twoTo 53 := by
    change (b.height + pageMargin).natAbs ≤ Number.twoTo 53
    omega
  have roomy := p.fit_near wide tall
  generalize p.fit (some b) = page at roomy ⊢
  obtain ⟨left, right, across⟩ := centering_near roomy.1 b.left
  obtain ⟨top, bottom, along⟩ := centering_near roomy.2 b.top
  change b.left + b.width + _ + mils 500 ≤ _ at right
  change b.top + b.height + _ + mils 500 ≤ _ at bottom
  rw [show b.left + b.width = b.right by unfold Box.width; omega] at right
  rw [show b.top + b.height = b.bottom by unfold Box.height; omega] at bottom
  have middle (d : Point) : (b.move d).center = ⟨b.left + d.x + b.width / 2, b.top + d.y + b.height / 2⟩ := by
    ext
    · simp only [Box.center, Box.width, Box.move]
      omega
    · simp only [Box.center, Box.height, Box.move]
      omega
  refine ⟨left, top, right, bottom, ?_, ?_⟩
  · rw [middle]
    exact across
  · rw [middle]
    exact along

section Drawn
open Drafting
variable {c : Context} {e : Eagle.Sheet} {before after : Desk}

/-- A drawn sheet is its content with implied labels, all moved in grid steps, and stands in the middle of
    its page. Content of points up to `3 * 2 ^ 50` from the origin along each axis is not too large for this. -/
theorem ends_drawSheet_centered (ran : Ends (drawSheet c e) before () after)
    (small : ∀ b, after.sheet.extent = some b →
      b.width + pageMargin ≤ Number.twoTo 53 ∧ b.height + pageMargin ≤ Number.twoTo 53) :
    ∃ content implied d, Ends (drawContent c e) before () content ∧
      after.sheet = Sheet.move d { content.sheet with
        page := after.sheet.page, labels := content.sheet.labels ++ implied, joints := [] } ∧
      grid ∣ d.x ∧ grid ∣ d.y ∧ ∀ b, after.sheet.extent = some b → after.sheet.page.Centers b := by
  obtain ⟨content, drawn, finished, _⟩ := ends_drawSheet ran
  let implied := (content.sheet.symbols.drop before.sheet.symbols.length).flatMap content.sheet.implied
  refine ⟨content, implied, content.sheet.shift, drawn, ?_, cutTo_dvd .., cutTo_dvd .., fun b measured => ?_⟩
  · rw [finished]
    rfl
  · obtain ⟨wide, tall⟩ := small b measured
    rw [finished, Sheet.finish_extent _ (List.drop_subset ..), Option.map_eq_some_iff] at measured
    obtain ⟨a, extent, rfl⟩ := measured
    have width : (a.move content.sheet.shift).width = a.width := by
      simp only [Box.width, Box.move]
      omega
    have height : (a.move content.sheet.shift).height = a.height := by
      simp only [Box.height, Box.move]
      omega
    rw [width] at wide
    rw [height] at tall
    have centered := content.sheet.page.fit_centers wide tall
    rw [← extent] at centered
    rw [finished]
    exact centered

end Drawn

/-- A sheet with a supply pin that nothing is connected to, and a wire that is longer than the page. -/
def longWire : Eagle.Sheet where
  description := none
  plain := []
  instances := [⟨"U1", "G", ⟨-254000, 0⟩, false, none, [], []⟩]
  buses := []
  nets := [⟨"N", [⟨[⟨⟨-25400000, 2540⟩, ⟨-1270, 2540⟩, 1524, 91, none⟩], [], []⟩]⟩]

/-- A document with that sheet. -/
def longWires : Eagle.Schematic where
  layers := [(91, "Nets")]
  libraries := [("a", {
    name := "a"
    symbols := [("S", ⟨"S", [.pin ⟨"VCC", ⟨0, 0⟩, none, none, some "pwr", none, none⟩]⟩)]
    deviceSets := [⟨"X", "U", [⟨"G", "S", ⟨0, 0⟩⟩], [⟨"", some "P", [⟨"G", "VCC", "1"⟩]⟩]⟩] })]
  parts := [("U1", ⟨"U1", "a", "X", "", none, none, [], []⟩)]
  sheets := [longWire]

open Drafting in
/-- The page grows to the wire, and the pin's label stands on it. -/
theorem longWire_centered : ∃ c report, ∃ done : Desk, Context.ofDocument longWires "demo" "demo" = .ok (c, report) ∧
    Ends (drawSheet c longWire)
      ⟨c.newSheet "demo" "demo.kicad_sch" .root ⟨some "A4", ⟨2970000, 2100000⟩⟩, report, []⟩ () done ∧
    done.sheet.page = ⟨none, ⟨25779730, 2100000⟩⟩ ∧ done.sheet.labels.map (·.position) = [⟨25323800, 1041400⟩] ∧
    ∃ b, done.sheet.extent = some b ∧ done.sheet.page.Centers b := by
  have checked : (Context.ofDocument longWires "demo" "demo").toOption.any (fun shared =>
      let drawn := (drawSheet shared.1 longWire).outcome
        ⟨shared.1.newSheet "demo" "demo.kicad_sch" .root ⟨some "A4", ⟨2970000, 2100000⟩⟩, shared.2, []⟩
      drawn.1.toBool && decide (drawn.2.sheet.page = ⟨none, ⟨25779730, 2100000⟩⟩ ∧
        drawn.2.sheet.labels.map (·.position) = [⟨25323800, 1041400⟩] ∧ drawn.2.sheet.extent.isSome ∧
        ∀ p ∈ drawn.2.sheet.points,
          -4000000000 < p.x ∧ p.x < 4000000000 ∧ -4000000000 < p.y ∧ p.y < 4000000000)) = true := by
    decide +kernel
  obtain ⟨⟨c, report⟩, shared, holds⟩ := (Option.any_eq_true ..).1 checked
  obtain ⟨ran, found⟩ := Bool.and_eq_true_iff.1 holds
  obtain ⟨page, labels, measured, near⟩ := of_decide_eq_true found
  obtain ⟨b, extent⟩ := Option.isSome_iff_exists.1 measured
  have drawn := Ends.of_toBool ran
  obtain ⟨_, _, _, _, _, _, _, centered⟩ := ends_drawSheet_centered drawn fun b measured => by
    obtain ⟨wide, tall⟩ := Extent.span_lt near measured
    have margin : pageMargin = 381000 := rfl
    have limit : Number.twoTo 53 = 9007199254740992 := rfl
    omega
  exact ⟨c, report, _, ok_of_toOption shared, drawn, page, labels, b, extent, centered b extent⟩

end Redraft
