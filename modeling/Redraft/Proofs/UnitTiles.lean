import Redraft.Proofs.Conversion
import Redraft.Proofs.SheetDrawing

/-!
# Tiles of missing units

Each missing unit gets a tile as large as its outline, and tiles do not overlap.
But a unit stands with its origin, not with its outline, at the bottom left of its
tile, so that it may reach out of it.
-/

namespace Redraft

/-! ## Boxes -/

namespace Box

def move (d : Point) (b : Box) : Box where
  left := b.left + d.x
  top := b.top + d.y
  right := b.right + d.x
  bottom := b.bottom + d.y
  wide := by have := b.wide; omega
  tall := by have := b.tall; omega

/-- The insides of the boxes have a point in common. -/
def Overlaps (b c : Box) : Prop :=
  max b.left c.left < min b.right c.right ∧ max b.top c.top < min b.bottom c.bottom

instance (b c : Box) : Decidable (b.Overlaps c) := by
  unfold Overlaps
  infer_instance

/-- The first box is above the second one or to its left; they may touch. -/
def Precedes (b c : Box) : Prop := b.bottom ≤ c.top ∨ b.right ≤ c.left

variable {b c : Box} {p d : Point}

theorem Precedes.not_overlaps (precedes : b.Precedes c) : ¬ b.Overlaps c := by
  unfold Overlaps Precedes at *
  omega

theorem Precedes.move (precedes : b.Precedes c) (d : Point) : (b.move d).Precedes (c.move d) := by
  unfold Precedes Box.move at *
  dsimp only
  omega

/-- A point of two boxes, one of which precedes the other, is on an edge of both. -/
theorem Precedes.edge (precedes : b.Precedes c) (here : b.Holds p) (there : c.Holds p) :
    (b.bottom = p.y ∧ c.top = p.y) ∨ (b.right = p.x ∧ c.left = p.x) := by
  unfold Precedes Holds at *
  omega

theorem merge_move (b : Box) (p d : Point) : (b.merge p).move d = (b.move d).merge (p + d) := by
  ext <;> simp only [merge, move, Point.add_x, Point.add_y] <;> omega

theorem holds_ofPoint (p : Point) : (ofPoint p).Holds p := by
  simp [Holds, ofPoint]

theorem holds_merge (b : Box) (p : Point) : (b.merge p).Holds p := by
  unfold Holds merge
  dsimp only
  omega

theorem Holds.merge (holds : b.Holds p) (q : Point) : (b.merge q).Holds p := by
  unfold Holds Box.merge at *
  dsimp only
  omega

end Box

namespace Extent

theorem merge_move (e : Extent) (p d : Point) :
    (merge e p).map (·.move d) = merge (e.map (·.move d)) (p + d) := by
  cases e with
  | none => rfl
  | some b => exact congrArg some (b.merge_move p d)

theorem ofPoints_move (points : List Point) (d : Point) :
    ofPoints (points.map (· + d)) = (ofPoints points).map (·.move d) := by
  suffices from_any : ∀ e : Extent, (points.map (· + d)).foldl merge (e.map (·.move d)) =
      (points.foldl merge e).map (·.move d) from from_any none
  induction points with
  | nil => exact fun e => rfl
  | cons p points ih =>
    intro e
    rw [List.map_cons, List.foldl_cons, ← merge_move]
    exact ih (merge e p)

theorem foldl_merge_holds (points : List Point) {b : Box} {p : Point} (holds : b.Holds p) :
    ∃ c, points.foldl merge (some b) = some c ∧ c.Holds p := by
  induction points generalizing b with
  | nil => exact ⟨b, rfl, holds⟩
  | cons q points ih => exact ih (holds.merge q)

theorem ofPoints_holds {points : List Point} {p : Point} (member : p ∈ points) :
    ∃ b, ofPoints points = some b ∧ b.Holds p := by
  suffices from_any : ∀ e : Extent, ∃ b, points.foldl merge e = some b ∧ b.Holds p from from_any none
  induction points with
  | nil => cases member
  | cons q points ih =>
    intro e
    rcases List.mem_cons.1 member with rfl | later
    · cases e with
      | none => exact foldl_merge_holds points (Box.holds_ofPoint p)
      | some b => exact foldl_merge_holds points (b.holds_merge p)
    · exact ih later (merge e q)

theorem width_nonneg (e : Extent) : 0 ≤ e.width := by
  cases e with
  | none => exact Int.le_refl 0
  | some b => exact Int.sub_nonneg_of_le b.wide

theorem height_nonneg (e : Extent) : 0 ≤ e.height := by
  cases e with
  | none => exact Int.le_refl 0
  | some b => exact Int.sub_nonneg_of_le b.tall

end Extent

/-! ## Tiles -/

namespace Tiling

/-- The tile of a unit of the given extent. -/
def tile (t : Tiling) (e : Extent) : Box where
  left := t.x
  top := t.y
  right := t.x + e.width
  bottom := t.y + e.height
  wide := by have := e.width_nonneg; omega
  tall := by have := e.height_nonneg; omega

/-- The tile is above what comes next or to its left, and not below the lowest one so far. -/
def Clear (t : Tiling) (b : Box) : Prop := b.bottom ≤ t.lowest ∧ (b.bottom ≤ t.y ∨ b.right ≤ t.x)

variable {t : Tiling} {b : Box}

theorem Clear.precedes (clear : t.Clear b) (e : Extent) : b.Precedes (t.tile e) := clear.2

theorem Clear.next (clear : t.Clear b) (e : Extent) (pageWidth : Int) : (t.next e pageWidth).Clear b := by
  have wide := e.width_nonneg
  unfold Clear Tiling.next at *
  dsimp only
  split
  · dsimp only
    omega
  · dsimp only
    omega

theorem clear_tile (t : Tiling) (e : Extent) (pageWidth : Int) : (t.next e pageWidth).Clear (t.tile e) := by
  unfold Clear Tiling.next tile
  dsimp only
  split
  · dsimp only
    omega
  · dsimp only
    omega

end Tiling

/-- A missing unit of a part with the tile it gets. -/
structure UnitTile where
  part : PartUnits
  unit : Nat
  tile : Box

namespace UnitTile

def extent (x : UnitTile) : Extent := unitExtent x.part.source x.unit

/-- The symbol that stands for the unit, with its origin at the bottom left of the tile. -/
def symbol (x : UnitTile) (path : SheetPath) : PlacedSymbol :=
  x.part.unitSymbol x.unit path ⟨x.tile.left, x.tile.bottom⟩

/-- The box of the outline of the placed unit. -/
def box (x : UnitTile) (path : SheetPath) : Extent := Extent.ofPoints ((x.symbol path).outline x.part.source)

/-- A pin of the placed unit is at the point. -/
def HasPin (x : UnitTile) (path : SheetPath) (p : Point) : Prop :=
  p ∈ ((x.symbol path).pinPoints x.part.source).map (·.2)

instance (x : UnitTile) (path : SheetPath) (p : Point) : Decidable (x.HasPin path p) := by
  unfold HasPin
  infer_instance

/-- How far the outline of the unit is off its tile. -/
def offset (x : UnitTile) : Point := x.extent.elim Point.origin fun b => ⟨b.left, b.bottom⟩

/-- The tile has the size of the unit. -/
structure Fits (x : UnitTile) : Prop where
  width : x.tile.width = x.extent.width
  height : x.tile.height = x.extent.height

variable {x y : UnitTile} {path : SheetPath} {p : Point}

/-- The outline of a placed unit is its tile moved by its offset. -/
theorem Fits.box_eq (fits : x.Fits) (path : SheetPath) :
    x.box path = x.extent.map fun _ => x.tile.move x.offset := by
  have placed : (x.symbol path).outline x.part.source =
      ((x.part.source.outline x.unit).map (Placement.apply ⟨Point.origin, .zero, .plain⟩)).map
        (· + ⟨x.tile.left, x.tile.bottom⟩) := by
    rw [List.map_map]
    apply List.map_congr_left
    intro p _
    ext <;> simp only [symbol, PartUnits.unitSymbol, Placement.apply, Turn.apply, Flip.apply, Function.comp,
      Point.origin, Point.add_x, Point.add_y] <;> omega
  have moved : x.box path = x.extent.map (·.move ⟨x.tile.left, x.tile.bottom⟩) := by
    rw [box, placed, Extent.ofPoints_move]
    rfl
  obtain ⟨width, height⟩ := fits
  rw [moved]
  unfold offset
  cases extent : x.extent with
  | none => rfl
  | some b =>
    rw [extent] at width height
    simp only [Extent.width, Extent.height, Option.elim_some, Box.width, Box.height] at width height
    simp only [Option.map_some, Option.elim_some, Option.some.injEq]
    ext <;> simp only [Box.move] <;> omega

/-- A pin of a placed unit is in the box of its outline. -/
theorem HasPin.holds (pin : x.HasPin path p) : ∃ b, x.box path = some b ∧ b.Holds p := by
  obtain ⟨⟨q, _⟩, member, rfl⟩ := List.mem_map.1 pin
  obtain ⟨_, isPin, same⟩ := List.mem_map.1 member
  cases same
  apply Extent.ofPoints_holds
  refine List.mem_map.2 ⟨q.position, ?_, rfl⟩
  obtain ⟨drawn, isDrawn, here⟩ := List.mem_flatMap.1 isPin
  refine List.mem_flatMap.2 ⟨drawn, isDrawn, List.mem_append_right _ ?_⟩
  exact List.mem_flatMap.2 ⟨q, here, .head _⟩

/-- Two placed units do not overlap, and have pins at one point only on an edge of both. -/
structure Apart (x y : UnitTile) (path : SheetPath) : Prop where
  boxes : ∀ b c, x.box path = some b → y.box path = some c → ¬ b.Overlaps c
  pins : ∀ p, x.HasPin path p → y.HasPin path p → ∃ b c, x.box path = some b ∧ y.box path = some c ∧
    ((b.bottom = p.y ∧ c.top = p.y) ∨ (b.right = p.x ∧ c.left = p.x))

/-- Two units that are equally far off their tiles are as far apart as these. -/
theorem apart (fits : x.Fits) (fits' : y.Fits) (precedes : x.tile.Precedes y.tile) (same : x.offset = y.offset) :
    x.Apart y path := by
  have ordered : ∀ b c, x.box path = some b → y.box path = some c → b.Precedes c := by
    intro b c here there
    rw [fits.box_eq, Option.map_eq_some_iff] at here
    rw [fits'.box_eq, ← same, Option.map_eq_some_iff] at there
    obtain ⟨_, _, rfl⟩ := here
    obtain ⟨_, _, rfl⟩ := there
    exact precedes.move x.offset
  refine ⟨fun b c here there => (ordered b c here there).not_overlaps, fun p pin pin' => ?_⟩
  obtain ⟨b, here, holds⟩ := pin.holds
  obtain ⟨c, there, holds'⟩ := pin'.holds
  exact ⟨b, c, here, there, (ordered b c here there).edge holds holds'⟩

end UnitTile

namespace Tiling
variable {t : Tiling} {pageWidth : Int} {missing : List (PartUnits × Nat)}

/-- The tiles of some missing units on a page of some width, in order. -/
def tiles (pageWidth : Int) : Tiling → List (PartUnits × Nat) → List UnitTile
  | _, [] => []
  | t, (part, unit) :: rest =>
    let e := unitExtent part.source unit
    ⟨part, unit, t.tile e⟩ :: (t.next e pageWidth).tiles pageWidth rest

theorem tiles_units (pageWidth : Int) (t : Tiling) (missing : List (PartUnits × Nat)) :
    (t.tiles pageWidth missing).map (fun x => (x.part, x.unit)) = missing := by
  induction missing generalizing t with
  | nil => rfl
  | cons first rest ih => exact congrArg (first :: ·) (ih _)

theorem tiles_fits (t : Tiling) {x : UnitTile} (member : x ∈ t.tiles pageWidth missing) : x.Fits := by
  induction missing generalizing t with
  | nil => cases member
  | cons first rest ih =>
    rcases List.mem_cons.1 member with rfl | later
    · constructor
      · simp only [tile, Box.width, UnitTile.extent]
        omega
      · simp only [tile, Box.height, UnitTile.extent]
        omega
    · exact ih _ later

/-- A tile that is clear of what comes next precedes all tiles that come. -/
theorem Clear.tiles {b : Box} (clear : t.Clear b) : ∀ x ∈ t.tiles pageWidth missing, b.Precedes x.tile := by
  induction missing generalizing t with
  | nil =>
    intro x member
    cases member
  | cons first rest ih =>
    intro x member
    rcases List.mem_cons.1 member with rfl | later
    · exact clear.precedes _
    · exact ih (clear.next _ pageWidth) x later

/-- Each tile precedes all later ones. -/
theorem tiles_pairwise (pageWidth : Int) (t : Tiling) (missing : List (PartUnits × Nat)) :
    (t.tiles pageWidth missing).Pairwise fun x y => x.tile.Precedes y.tile := by
  induction missing generalizing t with
  | nil => exact .nil
  | cons first rest ih => exact .cons (clear_tile t _ pageWidth).tiles (ih _)

end Tiling

/-! ## The root sheet -/

namespace Sheet

/-- The tiles of the missing units of a record below the content of the sheet. -/
def unitTiles (s : Sheet) (record : UnitRecord) : List UnitTile :=
  (Tiling.below s.extent).tiles s.page.size.x record.missing

theorem addMissing_symbols (s : Sheet) (part : PartUnits) (unit : Nat) (position : Point) :
    (s.addMissing part unit position).symbols = s.symbols ++ [part.unitSymbol unit s.path position] := by
  rw [addMissing, embed_rest]
  rfl

theorem addMissing_rest (s : Sheet) (part : PartUnits) (unit : Nat) (position : Point) :
    s.addMissing part unit position = { s with
      embedded := (s.addMissing part unit position).embedded
      symbols := (s.addMissing part unit position).symbols
      labels := (s.addMissing part unit position).labels } := by
  rw [addMissing, embed_rest]
  rfl

theorem foldl_addMissing (s : Sheet) (t : Tiling) (pageWidth : Int) (missing : List (PartUnits × Nat)) :
    let tiled := (missing.foldl (fun (s, t) (part, unit) =>
      let e := unitExtent part.source unit
      (s.addMissing part unit (t.place e), t.next e pageWidth)) (s, t)).1
    tiled.path = s.path ∧ tiled.symbols = s.symbols ++ (t.tiles pageWidth missing).map (·.symbol s.path) := by
  induction missing generalizing s t with
  | nil => simp [Tiling.tiles]
  | cons first rest ih =>
    obtain ⟨part, unit⟩ := first
    let place := t.place (unitExtent part.source unit)
    have path : (s.addMissing part unit place).path = s.path := by rw [addMissing_rest]
    obtain ⟨path', symbols'⟩ := ih (s.addMissing part unit place) (t.next (unitExtent part.source unit) pageWidth)
    rw [path] at path' symbols'
    refine ⟨path', symbols'.trans ?_⟩
    rw [addMissing_symbols, Tiling.tiles, List.map_cons, List.append_assoc]
    rfl

/-- Tiling adds a symbol for each missing unit, on its tile. -/
theorem tile_symbols (s : Sheet) (record : UnitRecord) :
    (s.tile record).path = s.path ∧
      (s.tile record).symbols = s.symbols ++ (s.unitTiles record).map (·.symbol s.path) :=
  s.foldl_addMissing (Tiling.below s.extent) s.page.size.x record.missing

end Sheet

/-- A sheet before and after the missing units of a record are tiled below its content. -/
structure Sheet.Tiled (before after : Sheet) (record : UnitRecord) : Prop where
  units : (before.unitTiles record).map (fun x => (x.part, x.unit)) = record.missing
  symbols : after.symbols = before.symbols ++ (before.unitTiles record).map (·.symbol after.path)
  boxes : ∀ x ∈ before.unitTiles record, x.box after.path = x.extent.map fun _ => x.tile.move x.offset
  apart : (before.unitTiles record).Pairwise fun x y =>
    ¬ x.tile.Overlaps y.tile ∧ (x.offset = y.offset → x.Apart y after.path)

/-- The tiles of missing units do not overlap. Neither do the units, as far as they are equally far
    off their tiles. -/
theorem Sheet.tiled (s : Sheet) (record : UnitRecord) : s.Tiled (s.tile record) record := by
  obtain ⟨path, symbols⟩ := s.tile_symbols record
  refine ⟨Tiling.tiles_units .., by rw [path, symbols], fun x member => (Tiling.tiles_fits _ member).box_eq _, ?_⟩
  apply (Tiling.tiles_pairwise s.page.size.x (Tiling.below s.extent) record.missing).imp_of_mem
  intro x y isTile isTile' precedes
  exact ⟨precedes.not_overlaps, UnitTile.apart (Tiling.tiles_fits _ isTile) (Tiling.tiles_fits _ isTile') precedes⟩

/-- The missing units of a converted document stand on tiles that do not overlap. -/
theorem convert_tiles_units {document : Eagle.Schematic} {project : Option String} {stem : String} {page : Page}
    {p : Project} (ran : convert document project stem page = .ok p) :
    ∃ c state, convertSheets document project stem page = .ok (c, state) ∧ p.root = state.root.tile state.units ∧
      state.root.Tiled p.root state.units := by
  obtain ⟨c, state, drawn, rfl⟩ := convert_iff.1 ran
  exact ⟨c, state, drawn, rfl, state.root.tiled state.units⟩

def pointPin (name : String) (position : Point) : Eagle.Item :=
  .pin ⟨name, position, none, some "point", none, none, none⟩

/-- A document with a part of three like gates, the first of which is drawn. -/
def likeGates : Eagle.Schematic where
  libraries := [("a", {
    name := "a"
    symbols := [("T", ⟨"T", [.rectangle ⟨⟨-mils 100, -mils 100⟩, ⟨mils 300, mils 100⟩, 94, none⟩,
      pointPin "P" ⟨mils 300, 0⟩]⟩)]
    deviceSets := [⟨"X", "U", [⟨"A", "T", ⟨0, 0⟩⟩, ⟨"B", "T", ⟨0, 0⟩⟩, ⟨"C", "T", ⟨0, 0⟩⟩], [⟨"", none, []⟩]⟩] })]
  parts := [("U1", ⟨"U1", "a", "X", "", none, none, [], []⟩)]
  sheets := [⟨none, [], [⟨"U1", "A", ⟨0, 0⟩, false, none, [], []⟩], [], []⟩]

/-- The two missing units are equally far off their tiles, so they stand apart. -/
theorem likeGates_tiled : ∃ p, convert likeGates none "demo" ⟨some "A4", ⟨2970000, 2100000⟩⟩ = .ok p ∧
    ∃ c state, convertSheets likeGates none "demo" ⟨some "A4", ⟨2970000, 2100000⟩⟩ = .ok (c, state) ∧
      p.root = state.root.tile state.units ∧ state.root.Tiled p.root state.units ∧
      ∃ x y : UnitTile, state.root.unitTiles state.units = [x, y] ∧ x.offset = y.offset ∧ x.Apart y p.root.path := by
  have checked : (convertSheets likeGates none "demo" ⟨some "A4", ⟨2970000, 2100000⟩⟩).toOption.any (fun drawn =>
      decide ((drawn.2.root.unitTiles drawn.2.units).map UnitTile.offset =
        [⟨-mils 100, mils 100⟩, ⟨-mils 100, mils 100⟩])) = true := by
    decide +kernel
  obtain ⟨⟨c, state⟩, drawn, holds⟩ := (Option.any_eq_true ..).1 checked
  have ran := convert_iff.2 ⟨c, state, ok_of_toOption drawn, rfl⟩
  obtain ⟨c', state', drawn', root, tiled⟩ := convert_tiles_units ran
  obtain ⟨rfl, rfl⟩ := Prod.mk.inj (Except.ok.inj ((ok_of_toOption drawn).symm.trans drawn'))
  obtain ⟨x, rest, split, first, later⟩ := List.map_eq_cons_iff.1 (of_decide_eq_true holds)
  obtain ⟨y, rest, rfl, second, last⟩ := List.map_eq_cons_iff.1 later
  obtain rfl := List.map_eq_nil_iff.1 last
  have same : x.offset = y.offset := by rw [first, second]
  have apart := tiled.apart
  rw [split] at apart
  exact ⟨_, ran, c, state, drawn', root, tiled, x, y, split, same, ((List.pairwise_cons.1 apart).1 y (.head _)).2 same⟩

/-- A document with a part of three gates, the first of which is drawn. The outline of the second gate
    is to the right of its origin, and that of the third one to the left. -/
def offCentre : Eagle.Schematic where
  libraries := [("a", {
    name := "a"
    symbols := [("S", ⟨"S", [pointPin "P" ⟨0, 0⟩]⟩),
      ("T", ⟨"T", [.rectangle ⟨⟨0, 0⟩, ⟨mils 400, mils 400⟩, 94, none⟩, pointPin "Q" ⟨mils 200, mils 200⟩]⟩),
      ("V", ⟨"V", [.rectangle ⟨⟨-mils 400, 0⟩, ⟨0, mils 400⟩, 94, none⟩, pointPin "R" ⟨-mils 200, mils 200⟩]⟩)]
    deviceSets := [⟨"X", "U", [⟨"A", "S", ⟨0, 0⟩⟩, ⟨"B", "T", ⟨0, 0⟩⟩, ⟨"C", "V", ⟨0, 0⟩⟩], [⟨"", none, []⟩]⟩] })]
  parts := [("U1", ⟨"U1", "a", "X", "", none, none, [], []⟩)]
  sheets := [⟨none, [], [⟨"U1", "A", ⟨0, 0⟩, false, none, [], []⟩], [], []⟩]

/-- Both missing units stand at one place, although their tiles are side by side. -/
theorem offCentre_units : ∃ c state, convertSheets offCentre none "demo" ⟨some "A4", ⟨2970000, 2100000⟩⟩ = .ok (c, state) ∧
    state.root.path = .root ∧ ∃ x y : UnitTile, state.root.unitTiles state.units = [x, y] ∧
      x.HasPin .root ⟨1524000, 1092200⟩ ∧ y.HasPin .root ⟨1524000, 1092200⟩ ∧
      x.box .root = some ⟨1473200, 1041400, 1574800, 1143000, by decide, by decide⟩ ∧
      y.box .root = some ⟨1473200, 1041400, 1574800, 1143000, by decide, by decide⟩ := by
  let outline : Option Box := some ⟨1473200, 1041400, 1574800, 1143000, by decide, by decide⟩
  let pinAndBox (x : UnitTile) : Bool × Option Box := (decide (x.HasPin .root ⟨1524000, 1092200⟩), x.box .root)
  have checked : (convertSheets offCentre none "demo" ⟨some "A4", ⟨2970000, 2100000⟩⟩).toOption.any (fun drawn =>
      decide (drawn.2.root.path = .root ∧
        (drawn.2.root.unitTiles drawn.2.units).map pinAndBox = [(true, outline), (true, outline)])) = true := by
    decide +kernel
  obtain ⟨⟨c, state⟩, drawn, holds⟩ := (Option.any_eq_true ..).1 checked
  obtain ⟨path, tiles⟩ := of_decide_eq_true holds
  obtain ⟨x, rest, split, first, tiles⟩ := List.map_eq_cons_iff.1 tiles
  obtain ⟨y, rest, rfl, second, last⟩ := List.map_eq_cons_iff.1 tiles
  obtain rfl := List.map_eq_nil_iff.1 last
  obtain ⟨pin, box⟩ := Prod.mk.inj first
  obtain ⟨pin', box'⟩ := Prod.mk.inj second
  exact ⟨c, state, ok_of_toOption drawn, path, x, y, split, of_decide_eq_true pin, of_decide_eq_true pin', box, box'⟩

/-- Missing units may overlap, and short two of their pins. -/
theorem not_all_units_apart : ¬ ∀ (document : Eagle.Schematic) (project : Option String) (stem : String) (page : Page)
    (c : Context) (state : Conversion) (p : Project), convertSheets document project stem page = .ok (c, state) →
    convert document project stem page = .ok p →
    (state.root.unitTiles state.units).Pairwise fun x y =>
      (∀ q, x.HasPin p.root.path q → ¬ y.HasPin p.root.path q) ∧
      ∀ b b', x.box p.root.path = some b → y.box p.root.path = some b' → ¬ b.Overlaps b' := by
  intro claim
  obtain ⟨c, state, drawn, path, x, y, tiles, pin, pin', _⟩ := offCentre_units
  have apart := claim _ _ _ _ c state _ drawn (convert_iff.2 ⟨c, state, drawn, rfl⟩)
  rw [tiles] at apart
  have clear := ((List.pairwise_cons.1 apart).1 y (.head _)).1 ⟨1524000, 1092200⟩
  dsimp only at clear
  rw [(state.root.tile_symbols state.units).1, path] at clear
  exact clear pin pin'

end Redraft
