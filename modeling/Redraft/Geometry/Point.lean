/-!
# Points

Points and displacements have whole coordinates, in internal units. On a sheet
Y points down; in a symbol library it points up.
-/

namespace Redraft

/-- A point or a displacement. -/
@[ext] structure Point where
  x : Int
  y : Int
deriving DecidableEq, Repr, Inhabited

namespace Point

/-- The point with both coordinates zero. -/
def origin : Point := ⟨0, 0⟩

instance : Add Point := ⟨fun p q => ⟨p.x + q.x, p.y + q.y⟩⟩
instance : Sub Point := ⟨fun p q => ⟨p.x - q.x, p.y - q.y⟩⟩
instance : Neg Point := ⟨fun p => ⟨-p.x, -p.y⟩⟩

/-- A displacement taken `k` times. -/
def scale (k : Int) (p : Point) : Point := ⟨k * p.x, k * p.y⟩

/-- The same point with Y in the other direction. -/
def flip (p : Point) : Point := ⟨p.x, -p.y⟩

/-- The order by X, then by Y. -/
def before (p q : Point) : Bool := p.x < q.x || (p.x == q.x && p.y < q.y)

@[simp] theorem add_x (p q : Point) : (p + q).x = p.x + q.x := rfl
@[simp] theorem add_y (p q : Point) : (p + q).y = p.y + q.y := rfl
@[simp] theorem sub_x (p q : Point) : (p - q).x = p.x - q.x := rfl
@[simp] theorem sub_y (p q : Point) : (p - q).y = p.y - q.y := rfl
@[simp] theorem neg_x (p : Point) : (-p).x = -p.x := rfl
@[simp] theorem neg_y (p : Point) : (-p).y = -p.y := rfl

end Point

end Redraft
