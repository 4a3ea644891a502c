import Redraft.Proofs.PageCentering
import Redraft.Proofs.SupplyPins

/-!
# Moving a sheet

Moving a sheet adds the offset to every point that an item of it stores, and
does nothing else. What is taken from these points, such as the extent of the
sheet and the places of the pins, moves with them. An erased line is no item of
the sheet any more, and stays.
-/

namespace Redraft

/-- How things of a kind are placed: the points that one stores, the thing without them, and the thing
    moved. Its points and the rest determine the thing, also if further points follow. -/
structure Placing (α : Type) where
  spots : α → List Point
  unplaced : α → α
  move : Point → α → α
  spots_move : ∀ d x, spots (move d x) = (spots x).map (· + d)
  unplaced_move : ∀ d x, unplaced (move d x) = unplaced x
  determined : ∀ {x y : α} {more more' : List Point},
    unplaced x = unplaced y → spots x ++ more = spots y ++ more' → x = y ∧ more = more'

namespace Placing
variable {α β : Type} (p : Placing α) (q : Placing β)

theorem eq_iff {x y : α} : x = y ↔ p.unplaced x = p.unplaced y ∧ p.spots x = p.spots y := by
  constructor
  · rintro rfl
    exact ⟨rfl, rfl⟩
  · rintro ⟨rest, same⟩
    have alone : p.spots x ++ [] = p.spots y ++ [] := by rw [same]
    exact (p.determined rest alone).1

/-- Only the moved thing has the moved points and the rest. -/
theorem eq_move_iff {x y : α} {d : Point} :
    y = p.move d x ↔ p.unplaced y = p.unplaced x ∧ p.spots y = (p.spots x).map (· + d) := by
  rw [p.eq_iff, p.unplaced_move, p.spots_move]

theorem move_move (a b : Point) (x : α) : p.move b (p.move a x) = p.move (a + b) x := by
  rw [p.eq_move_iff, p.unplaced_move, p.unplaced_move, p.spots_move, p.spots_move, List.map_map]
  refine ⟨rfl, List.map_congr_left fun q _ => ?_⟩
  ext
  · exact Int.add_assoc ..
  · exact Int.add_assoc ..

theorem move_neg (a : Point) (x : α) : p.move (-a) (p.move a x) = x := by
  have back (q : Point) : q + (a + -a) = q := by
    ext
    · simp only [Point.add_x, Point.neg_x]; omega
    · simp only [Point.add_y, Point.neg_y]; omega
  rw [move_move]
  exact (p.eq_move_iff.2 ⟨rfl, by simp [back]⟩).symm

/-- Things of which one part is placed. -/
def ofPart {γ : Type} (get : γ → α) (put : α → γ → γ) (get_put : ∀ a x, get (put a x) = a)
    (put_put : ∀ a b x, put a (put b x) = put a x) (put_get : ∀ x, put (get x) x = x) : Placing γ where
  spots x := p.spots (get x)
  unplaced x := put (p.unplaced (get x)) x
  move d x := put (p.move d (get x)) x
  spots_move d x := by rw [get_put, p.spots_move]
  unplaced_move d x := by rw [get_put, put_put, p.unplaced_move]
  determined {x y more more'} rest same := by
    have part : p.unplaced (get x) = p.unplaced (get y) := by
      rw [← get_put (p.unplaced (get x)) x, rest, get_put]
    obtain ⟨here, after⟩ := p.determined part same
    refine ⟨?_, after⟩
    calc x = put (get x) (put (p.unplaced (get x)) x) := by rw [put_put, put_get]
      _ = put (get y) (put (p.unplaced (get y)) y) := by rw [rest, here]
      _ = y := by rw [put_put, put_get]

def pair : Placing (α × β) where
  spots x := p.spots x.1 ++ q.spots x.2
  unplaced x := (p.unplaced x.1, q.unplaced x.2)
  move d x := (p.move d x.1, q.move d x.2)
  spots_move d x := by rw [p.spots_move, q.spots_move, List.map_append]
  unplaced_move d x := by rw [p.unplaced_move, q.unplaced_move]
  determined {x y more more'} rest same := by
    obtain ⟨first, second⟩ := Prod.mk.inj rest
    rw [List.append_assoc, List.append_assoc] at same
    obtain ⟨here, same⟩ := p.determined first same
    obtain ⟨there, after⟩ := q.determined second same
    exact ⟨Prod.ext here there, after⟩

def list : Placing (List α) where
  spots xs := xs.flatMap p.spots
  unplaced xs := xs.map p.unplaced
  move d xs := xs.map (p.move d)
  spots_move d xs := by
    rw [List.flatMap_map, List.map_flatMap]
    exact List.flatMap_congr fun x _ => p.spots_move d x
  unplaced_move d xs := by
    rw [List.map_map]
    exact List.map_congr_left fun x _ => p.unplaced_move d x
  determined {xs ys more more'} rest same := by
    induction xs generalizing ys with
    | nil =>
      obtain rfl := List.map_eq_nil_iff.1 rest.symm
      exact ⟨rfl, same⟩
    | cons x xs ih =>
      cases ys with
      | nil => cases rest
      | cons y ys =>
        obtain ⟨first, others⟩ := List.cons_eq_cons.1 rest
        rw [List.flatMap_cons, List.flatMap_cons, List.append_assoc, List.append_assoc] at same
        obtain ⟨here, same⟩ := p.determined first same
        obtain ⟨there, after⟩ := ih others same
        exact ⟨by rw [here, there], after⟩

def point : Placing Point where
  spots q := [q]
  unplaced _ := Point.origin
  move d q := q + d
  spots_move _ _ := rfl
  unplaced_move _ _ := rfl
  determined _ same := List.cons_eq_cons.1 same

end Placing

/-! ## The items of a sheet -/

namespace Placing

def field : Placing (Field Point) :=
  point.ofPart (·.position) (fun q f => { f with position := q }) (fun _ _ => rfl) (fun _ _ _ => rfl) fun _ => rfl

def symbol : Placing PlacedSymbol :=
  (point.pair field.list).ofPart (fun x => (x.placement.position, x.fields))
    (fun part x => { x with placement := { x.placement with position := part.1 }, fields := part.2 })
    (fun _ _ => rfl) (fun _ _ _ => rfl) fun _ => rfl

/-- An erased line stores no point. -/
def line : Placing Line where
  spots l := if l.erased then [] else [l.start, l.stop]
  unplaced l := if l.erased then l else { l with start := Point.origin, stop := Point.origin }
  move := Line.move
  spots_move d l := by
    cases erased : l.erased <;> simp [Line.move, erased]
  unplaced_move d l := by
    cases erased : l.erased <;> simp [Line.move, erased]
  determined {l k more more'} rest same := by
    obtain ⟨kind, start, stop, erased⟩ := l
    obtain ⟨kind', start', stop', erased'⟩ := k
    cases erased <;> cases erased' <;> simp_all

def entry : Placing BusEntry :=
  point.ofPart (·.position) (fun q e => { e with position := q }) (fun _ _ => rfl) (fun _ _ _ => rfl) fun _ => rfl

def note : Placing Note :=
  point.ofPart (·.position) (fun q n => { n with position := q }) (fun _ _ => rfl) (fun _ _ _ => rfl) fun _ => rfl

def label : Placing NetLabel :=
  point.ofPart (·.position) (fun q l => { l with position := q }) (fun _ _ => rfl) (fun _ _ _ => rfl) fun _ => rfl

def block : Placing SheetBlock :=
  (point.pair (field.pair field)).ofPart (fun b => (b.position, b.name, b.file))
    (fun part b => { b with position := part.1, name := part.2.1, file := part.2.2 })
    (fun _ _ => rfl) (fun _ _ _ => rfl) fun _ => rfl

def sheet : Placing Sheet :=
  (symbol.list.pair (line.list.pair (point.list.pair (entry.list.pair (note.list.pair
    (label.list.pair block.list)))))).ofPart
    (fun s => (s.symbols, s.lines, s.junctions, s.entries, s.notes, s.labels, s.blocks))
    (fun (symbols, lines, junctions, entries, notes, labels, blocks) s =>
      { s with symbols, lines, junctions, entries, notes, labels, blocks })
    (fun _ _ => rfl) (fun _ _ _ => rfl) fun _ => rfl

theorem sheet_move (d : Point) (s : Sheet) : sheet.move d s = s.move d := rfl

end Placing

namespace Sheet

/-- The points that the items of a sheet store. -/
def spots (s : Sheet) : List Point :=
  (s.symbols.flatMap fun x => x.placement.position :: x.fields.map (·.position)) ++
  (s.drawnLines.flatMap fun l => [l.start, l.stop]) ++ s.junctions ++ s.entries.map (·.position) ++
  s.notes.map (·.position) ++ s.labels.map (·.position) ++
  s.blocks.flatMap fun b => [b.position, b.name.position, b.file.position]

/-- The sheet with the origin in the place of each of these points. -/
def unplaced (s : Sheet) : Sheet :=
  { s with
    symbols := s.symbols.map fun x => { x with
      placement := { x.placement with position := Point.origin }
      fields := x.fields.map fun f => { f with position := Point.origin } }
    lines := s.lines.map fun l =>
      if l.erased then l else { l with start := Point.origin, stop := Point.origin }
    junctions := s.junctions.map fun _ => Point.origin
    entries := s.entries.map fun e => { e with position := Point.origin }
    notes := s.notes.map fun n => { n with position := Point.origin }
    labels := s.labels.map NetLabel.unplaced
    blocks := s.blocks.map fun b => { b with
      position := Point.origin
      name := { b.name with position := Point.origin }
      file := { b.file with position := Point.origin } } }

theorem placing_unplaced (s : Sheet) : Placing.sheet.unplaced s = s.unplaced := rfl

theorem placing_lines (lines : List Line) : Placing.line.list.spots lines =
    (lines.filter (!·.erased)).flatMap fun l => [l.start, l.stop] := by
  induction lines with
  | nil => rfl
  | cons l lines ih =>
    have next : Placing.line.list.spots (l :: lines) = Placing.line.spots l ++ Placing.line.list.spots lines :=
      List.flatMap_cons
    rw [next, ih, Placing.line]
    cases erased : l.erased <;> simp [erased]

theorem placing_spots (s : Sheet) : Placing.sheet.spots s = s.spots := by
  have lines := placing_lines s.lines
  simp only [Placing.sheet, Placing.ofPart, Placing.pair, spots, drawnLines, lines, List.append_assoc]
  simp [Placing.list, Placing.symbol, Placing.block, Placing.field, Placing.entry, Placing.note, Placing.label,
    Placing.point, Placing.ofPart, Placing.pair, List.flatMap_singleton', List.map_eq_flatMap]

/-- Moving a sheet moves each point that its items store, and leaves the rest. So the extent of the
    sheet and the pins of all symbols move with it, two moves are one by both offsets, and the
    opposite move undoes it. -/
theorem move_rigid (s : Sheet) (a b : Point) :
    (∀ t : Sheet, t = s.move a ↔ t.unplaced = s.unplaced ∧ t.spots = s.spots.map (· + a)) ∧
    (s.move a).extent = s.extent.map (·.move a) ∧
    (∀ source, (s.move a).symbols.map (·.pinPoints source) =
      s.symbols.map fun x => (x.pinPoints source).map fun (pin, p) => (pin, p + a)) ∧
    (s.move a).move b = s.move (a + b) ∧ (s.move a).move (-a) = s := by
  refine ⟨fun t => ?_, s.extent_move a, fun source => ?_, Placing.sheet.move_move a b s, Placing.sheet.move_neg a s⟩
  · rw [← Placing.sheet_move, Placing.sheet.eq_move_iff, placing_unplaced, placing_unplaced, placing_spots,
      placing_spots]
  · simp only [move, List.map_map]
    exact List.map_congr_left fun x _ => x.pinPoints_move source a

end Sheet

end Redraft
