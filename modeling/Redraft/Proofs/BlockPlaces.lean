import Mathlib.Data.List.Iterate
import Redraft.Proofs.ExactDistance
import Redraft.Proofs.Hierarchy

/-!
# Blocks on the root sheet

Blocks are set one after the other from left to right, and a row is full before
the next one below it begins. Two blocks are in different rows or in different
columns, so that there is more than a pitch between them, and where a block
stands does not depend on how many come after it.
-/

namespace Redraft

/-! ## Boxes with a gap between them -/

namespace Box
variable {b c : Box} {gap : Int}

/-- There is a gap between the boxes along an axis. -/
def SetOff (gap : Int) (b c : Box) : Prop :=
  b.right + gap ≤ c.left ∨ c.right + gap ≤ b.left ∨ b.bottom + gap ≤ c.top ∨ c.bottom + gap ≤ b.top

/-- The boxes have no point in common, and a point of one is no nearer to a point of the other than the gap. -/
def Apart (gap : Int) (b c : Box) : Prop :=
  (∀ p, ¬(b.Holds p ∧ c.Holds p)) ∧ ∀ p q, b.Holds p → c.Holds q → gap ^ 2 ≤ p.apartSq q

theorem sq_le_of_gap {m n : Int} (nonneg : 0 ≤ gap) (far : m + gap ≤ n ∨ n + gap ≤ m) : gap ^ 2 ≤ (m - n) * (m - n) := by
  rcases far with before | after
  · nlinarith
  · nlinarith

theorem SetOff.apart (pos : 0 < gap) (off : b.SetOff gap c) : b.Apart gap c := by
  constructor
  · rintro p ⟨here, there⟩
    unfold SetOff Holds at *
    omega
  · intro p q here there
    have far : (p.x + gap ≤ q.x ∨ q.x + gap ≤ p.x) ∨ p.y + gap ≤ q.y ∨ q.y + gap ≤ p.y := by
      unfold SetOff Holds at *
      omega
    unfold Point.apartSq Segment.dot
    rcases far with level | upright
    · exact (sq_le_of_gap pos.le level).trans (le_add_of_nonneg_right (mul_self_nonneg _))
    · exact (sq_le_of_gap pos.le upright).trans (le_add_of_nonneg_left (mul_self_nonneg _))

end Box

/-! ## Places in rows -/

/-- The box of a block whose top left corner is at the place. -/
def blockBox (p : Point) : Box where
  left := p.x
  top := p.y
  right := p.x + blockSize.x
  bottom := p.y + blockSize.y
  wide := by simp [blockSize, mils, unitsPerMil]
  tall := by simp [blockSize, mils, unitsPerMil]

/-- The place after a place: two pitches to the right, or at the start of the next row where that is beyond ten. -/
def nextPlace (p : Point) : Point :=
  if 10 * blockPitch < p.x + 2 * blockPitch then ⟨blockPitch, p.y + 2 * blockPitch⟩ else ⟨p.x + 2 * blockPitch, p.y⟩

theorem blockPlace_zero : blockPlace 0 = ⟨blockPitch, blockPitch⟩ := by decide

theorem blockPlace_succ (n : Nat) : blockPlace (n + 1) = nextPlace (blockPlace n) := by
  unfold blockPlace nextPlace blocksInRow blockPitch mils unitsPerMil
  dsimp only
  by_cases last : n % 5 = 4
  · have column : (n + 1) % 5 = 0 := by omega
    have row : (n + 1) / 5 = n / 5 + 1 := by omega
    rw [column, row, last, if_pos (by decide)]
    ext
    · norm_num
    · push_cast
      ring
  · have column : (n + 1) % 5 = n % 5 + 1 := by omega
    have row : (n + 1) / 5 = n / 5 := by omega
    have few : n % 5 < 4 := by omega
    rw [column, row, if_neg (by push_cast; omega)]
    ext
    · push_cast
      ring
    · rfl

theorem blockPlace_eq_iterate (n : Nat) : blockPlace n = nextPlace^[n] ⟨blockPitch, blockPitch⟩ := by
  induction n with
  | zero => exact blockPlace_zero
  | succ n ih => rw [blockPlace_succ, ih, Function.iterate_succ_apply']

theorem blockPlaces_eq_iterate (count : Nat) :
    blockPlaces count = List.iterate nextPlace ⟨blockPitch, blockPitch⟩ count := by
  rw [blockPlaces, ← List.range_map_iterate]
  exact List.map_congr_left fun n _ => blockPlace_eq_iterate n

theorem blockPlace_setOff {m n : Nat} (other : m ≠ n) :
    (blockBox (blockPlace m)).SetOff (mils 1000) (blockBox (blockPlace n)) := by
  have cell : m % 5 ≠ n % 5 ∨ m / 5 ≠ n / 5 := by omega
  unfold Box.SetOff blockBox blockPlace blocksInRow blockPitch blockSize mils unitsPerMil
  dsimp only
  push_cast
  omega

/-- There are as many places as blocks. Blocks at two of them have no point in common and are at least a thousand mils
    apart, the coordinates of each are positive odd multiples of the pitch, and fewer blocks stand at the first of
    them. -/
theorem blockPlaces_laid_out (count : Nat) :
    blockPlaces count = List.iterate nextPlace ⟨blockPitch, blockPitch⟩ count ∧
    (blockPlaces count).length = count ∧
    (blockPlaces count).Pairwise (fun p q => (blockBox p).Apart (mils 1000) (blockBox q)) ∧
    (∀ p ∈ blockPlaces count, ∃ i j : Nat, p = ⟨(2 * i + 1) * blockPitch, (2 * j + 1) * blockPitch⟩) ∧
    ∀ fewer ≤ count, blockPlaces fewer <+: blockPlaces count := by
  refine ⟨blockPlaces_eq_iterate count, by simp [blockPlaces], ?_, ?_, ?_⟩
  · rw [blockPlaces, List.pairwise_map]
    refine List.nodup_range.imp fun other => ?_
    exact (blockPlace_setOff other).apart (by decide)
  · intro p member
    obtain ⟨n, _, rfl⟩ := List.mem_map.1 member
    exact ⟨n % blocksInRow, n / blocksInRow, by simp [blockPlace]⟩
  · intro fewer le
    obtain ⟨more, rfl⟩ := Nat.exists_eq_add_of_le le
    rw [blockPlaces, blockPlaces, List.range_add, List.map_append]
    exact List.prefix_append _ _

theorem twoRows_laid_out : ⟨7 * blockPitch, 3 * blockPitch⟩ ∈ blockPlaces 9 ∧ 5 ≤ 9 ∧
    (∃ i j : Nat, (⟨7 * blockPitch, 3 * blockPitch⟩ : Point) = ⟨(2 * i + 1) * blockPitch, (2 * j + 1) * blockPitch⟩) ∧
    blockPlaces 5 <+: blockPlaces 9 := by
  have member : ⟨7 * blockPitch, 3 * blockPitch⟩ ∈ blockPlaces 9 := by decide
  obtain ⟨_, _, _, odd, first⟩ := blockPlaces_laid_out 9
  exact ⟨member, by decide, odd _ member, first 5 (by decide)⟩

/-! ## Blocks of a converted document -/

section
variable {document : Eagle.Schematic} {c : Context} {state state' : Conversion} {project : Option String}
  {stem : String} {page : Page} {p : Project}

theorem Conversion.addSheet_positions {sheets : List Eagle.Sheet} {first : Nat}
    (ran : (sheets.zipIdx first).foldlM (addSheet c stem page) state = .ok state') :
    state'.root.blocks.map (·.position) =
      state.root.blocks.map (·.position) ++ (List.range' first sheets.length).map blockPlace := by
  induction sheets generalizing first state with
  | nil =>
    cases ran
    simp
  | cons e sheets ih =>
    rw [List.zipIdx_cons, List.foldlM_cons] at ran
    obtain ⟨middle, added, rest⟩ := bind_ok.1 ran
    obtain ⟨desk, isDrawn, same⟩ := bind_ok.1 added
    cases same
    rw [ih rest, List.length_cons, List.range'_succ]
    simp [Sheet.addBlock]

theorem convert_block_positions (ran : convert document project stem page = .ok p) :
    p.root.blocks.map (·.position) = blockPlaces p.root.blocks.length := by
  obtain ⟨c, state, converted, rfl⟩ := convert_iff.1 ran
  obtain ⟨⟨_, shared⟩, _, rest⟩ := bind_ok.1 converted
  obtain ⟨_, added, same⟩ := bind_ok.1 rest
  cases same
  dsimp only
  rw [Sheet.tile_blocks]
  obtain ⟨_, rfl⟩ | ⟨source, desk, _, drawn, rfl⟩ | ⟨_, folded⟩ := Conversion.addSheets_ok added
  · rfl
  · have blocks : desk.sheet.blocks = [] := List.length_eq_zero_iff.1 (ends_drawSheet_names drawn).2.2.2
    dsimp only
    rw [blocks]
    rfl
  · have positions := Conversion.addSheet_positions folded
    have count := congrArg List.length positions
    simp only [Context.newSheet, List.map_nil, List.nil_append, List.length_map, List.length_range'] at positions count
    rw [positions, count, blockPlaces, List.range_eq_range']

end

end Redraft
