import Redraft.Eagle.Schematic
import Redraft.Proofs.Arcs
import Redraft.Proofs.Translations

/-!
# Documents of moderate size

Reading a document fails as an import may, or with a value in an attribute that
has no result: a length, angle or count that is not finite or out of range.
From elements without such values everything that is read is of moderate size.
-/

namespace Redraft
open Redraft.Number

/-! ## Readings that may fail -/

/-- What is computed has a property, or fails as the import of a document may. -/
def Imports {α : Type} (P : α → Prop) : Except Failure α → Prop
  | .ok a => P a
  | .error failure => failure.isImport = true

instance {α : Type} {P : α → Prop} [DecidablePred P] : DecidablePred (Imports P)
  | .ok a => inferInstanceAs (Decidable (P a))
  | .error failure => inferInstanceAs (Decidable (failure.isImport = true))

namespace Imports
variable {α β : Type} {P : α → Prop} {Q : β → Prop} {x : Except Failure α}

theorem bind {f : α → Except Failure β} (first : Imports P x) (rest : ∀ a, P a → Imports Q (f a)) :
    Imports Q (x >>= f) := by
  cases x with
  | error failure => exact first
  | ok a => exact rest a first

theorem map {f : α → β} (first : Imports P x) (holds : ∀ a, P a → Q (f a)) : Imports Q (x.map f) := by
  cases x with
  | error failure => exact first
  | ok a => exact holds a first

theorem imp {Q : α → Prop} (first : Imports P x) (holds : ∀ a, P a → Q a) : Imports Q x := by
  cases x with
  | error failure => exact first
  | ok a => exact holds a first

theorem and {Q : α → Prop} (first : Imports P x) (second : Imports Q x) : Imports (fun a => P a ∧ Q a) x := by
  cases x with
  | error failure => exact first
  | ok a => exact ⟨first, second⟩

theorem none {P : α → Prop} : Imports (fun r => ∀ a ∈ r, P a) (.ok (none : Option α)) :=
  fun _ isNone => absurd isNone (Option.not_mem_none _)

/-- What holds of each reading of a list holds of all that is read. -/
theorem mapM {f : α → Except Failure β} {l : List α} (each : ∀ a ∈ l, Imports Q (f a)) :
    Imports (∀ b ∈ ·, Q b) (l.mapM f) := by
  induction l with
  | nil => exact nofun
  | cons a l ih =>
    rw [List.mapM_cons]
    refine (each a (.head _)).bind fun b here => (ih fun a member => each a (.tail _ member)).bind fun bs rest => ?_
    exact List.forall_mem_cons.2 ⟨here, rest⟩

end Imports

theorem Entries.mem_ofList {κ α : Type} [BEq κ] [LawfulBEq κ] {entries : Entries κ α} {entry : κ × α}
    (member : entry ∈ ofList entries) : entry ∈ entries :=
  (mem_putAll member).resolve_left nofun

/-! ## Elements -/

/-- The root element of a document, by its characters. -/
theorem Markup.read?_ofList (cs : List Char) : Markup.read? (String.ofList cs) =
    if (Text.unifyLineEnds (if cs.head? = some '\uFEFF' then cs.drop 1 else cs)).all Markup.isLegal then
      Markup.readChars (Text.unifyLineEnds (if cs.head? = some '\uFEFF' then cs.drop 1 else cs)) else none := by
  unfold Markup.read? Markup.documentChars
  rw [String.toList_ofList]

namespace Markup.Element

mutual
/-- The element and all elements within it. -/
def all : Element → List Element
  | ⟨tag, attributes, text, children⟩ => ⟨tag, attributes, text, children⟩ :: allOf children
/-- The elements and all elements within them. -/
def allOf : List Element → List Element
  | [] => []
  | e :: es => e.all ++ allOf es
end

theorem self_mem_all (e : Element) : e ∈ e.all := by
  cases e
  rw [all]
  exact .head _

theorem allOf_subset {e c : Element} {es : List Element} (member : c ∈ es) (within : e ∈ c.all) : e ∈ allOf es := by
  induction es with
  | nil => cases member
  | cons first es ih =>
    rw [allOf]
    rcases List.mem_cons.1 member with rfl | later
    · exact List.mem_append_left _ within
    · exact List.mem_append_right _ (ih later)

theorem all_of_child {e c x : Element} (child : c ∈ e.children) (within : x ∈ c.all) : x ∈ e.all := by
  cases e
  rw [all]
  exact .tail _ (allOf_subset child within)

theorem tag_of_grandchild {e c : Element} {outer inner : String} (member : c ∈ e.grandchildren outer inner) :
    c.tag = inner := by
  obtain ⟨parent, _, isInner⟩ := List.mem_flatMap.1 member
  simpa using (List.mem_filter.1 isInner).2

end Markup.Element

/-! ## Moderate documents -/

namespace Eagle
open Redraft.Markup (Element)

/-- The names of the attributes that are lengths. -/
def lengthNames : List String := ["x", "y", "x1", "y1", "x2", "y2", "size", "radius", "width"]

/-- How many rows of a frame have a letter. -/
def letteredRows : Int := 0x10FFFF - 'A'.toNat + 1

/-- The angle is finite. -/
def Rotation.Moderate (r : Rotation) : Prop := Below 1024 r.degrees

instance (r : Rotation) : Decidable r.Moderate := inferInstanceAs (Decidable (Below 1024 r.degrees))

/-- The curve is a finite angle, with a tangent that can be divided by. -/
def UsableCurve (degrees : Float) : Prop := Below 1024 degrees ∧ AtLeast (-80) degrees

instance (degrees : Float) : Decidable (UsableCurve degrees) := inferInstanceAs (Decidable (_ ∧ _))

/-- A curve of the element is none, or usable between ends that are no further than some kilometres off. -/
def CurvesModerately (e : Element) : Prop :=
  ∀ degrees ∈ (e.attribute? "curve").bind readReal, (degrees == 0.0) = false → UsableCurve degrees ∧
    ∀ name ∈ lengthNames, ∀ x ∈ (e.attribute? name).bind readReal, Below 26 x

instance (e : Element) : Decidable (CurvesModerately e) :=
  inferInstanceAs (Decidable (∀ degrees ∈ (e.attribute? "curve").bind readReal, (degrees == 0.0) = false → _ ∧ _))

/-- The values in the attributes of the element are finite and in range, and those of the wires of a symbol, which
    are drawn as arcs, make arcs. -/
structure ModerateElement (e : Element) : Prop where
  lengths : ∀ name ∈ lengthNames, ∀ x ∈ (e.attribute? name).bind readReal, Below 900 x
  angle : ∀ r ∈ (e.attribute? "rot").bind fun value => (Rotation.read value).toOption, r.Moderate
  rows : ∀ n ∈ (e.attribute? "rows").bind readWhole, n ≤ letteredRows
  columns : ∀ n ∈ (e.attribute? "columns").bind readWhole, n < 2 ^ 64
  arcs : e.tag = "symbol" → ∀ w ∈ e.named "wire", CurvesModerately w

instance (e : Element) : Decidable (ModerateElement e) :=
  decidable_of_iff ((∀ name ∈ lengthNames, ∀ x ∈ (e.attribute? name).bind readReal, Below 900 x) ∧
      (∀ r ∈ (e.attribute? "rot").bind fun value => (Rotation.read value).toOption, r.Moderate) ∧
      (∀ n ∈ (e.attribute? "rows").bind readWhole, n ≤ letteredRows) ∧
      (∀ n ∈ (e.attribute? "columns").bind readWhole, n < 2 ^ 64) ∧
      (e.tag = "symbol" → ∀ w ∈ e.named "wire", CurvesModerately w))
    ⟨fun ⟨lengths, angle, rows, columns, arcs⟩ => ⟨lengths, angle, rows, columns, arcs⟩,
      fun ⟨lengths, angle, rows, columns, arcs⟩ => ⟨lengths, angle, rows, columns, arcs⟩⟩

/-- All elements of a tree are moderate. -/
def ModerateTree (e : Element) : Prop := ∀ x ∈ e.all, ModerateElement x

instance (e : Element) : Decidable (ModerateTree e) := inferInstanceAs (Decidable (∀ x ∈ e.all, ModerateElement x))

namespace ModerateTree
variable {e c : Element} {tag outer inner : String}

theorem self (tree : ModerateTree e) : ModerateElement e := tree e e.self_mem_all

theorem child (tree : ModerateTree e) (member : c ∈ e.children) : ModerateTree c :=
  fun _ within => tree _ (Element.all_of_child member within)

theorem named (tree : ModerateTree e) (member : c ∈ e.named tag) : ModerateTree c :=
  tree.child (List.mem_filter.1 member).1

theorem first (tree : ModerateTree e) (found : e.first? tag = some c) : ModerateTree c :=
  tree.child (List.mem_of_find?_eq_some found)

theorem grandchild (tree : ModerateTree e) (member : c ∈ e.grandchildren outer inner) : ModerateTree c := by
  obtain ⟨parent, isParent, isInner⟩ := List.mem_flatMap.1 member
  exact (tree.named isParent).named isInner

end ModerateTree

/-- The wire has moderate ends. -/
structure Wire.Moderate (w : Wire) : Prop where
  start : w.start.Moderate
  stop : w.stop.Moderate

/-- The wire is not curved, or has a usable curve and ends and a pen for it. -/
def Wire.CurvesModerately (w : Wire) : Prop :=
  ∀ degrees ∈ w.curve, (degrees == 0.0) = false →
    UsableCurve degrees ∧ w.start.Near ∧ w.stop.Near ∧ w.width.natAbs < 2 ^ 42

/-- The frame has moderate corners, and no more rows than there are letters. -/
structure Frame.Moderate (f : Frame) : Prop where
  start : f.start.Moderate
  stop : f.stop.Moderate
  rows : f.rows ≤ letteredRows
  columns : f.columns < 2 ^ 64

/-- What the drawing of the item is computed from is moderate. -/
def Item.Moderate : Item → Prop
  | .wire w => w.Moderate
  | .text t => ∀ r ∈ t.rotation, r.Moderate
  | .pin p => ∀ r ∈ p.rotation, r.Moderate
  | .frame f => f.Moderate
  | .junction _ | .label _ | .circle _ | .rectangle _ | .polygon _ => True

/-- The items of the symbol are moderate, and its curved wires make arcs. -/
def Symbol.Moderate (s : Symbol) : Prop :=
  ∀ item ∈ s.items, item.Moderate ∧ ∀ w, item = .wire w → w.CurvesModerately

/-- The symbols of the library are moderate. -/
def Library.Moderate (l : Library) : Prop := ∀ entry ∈ l.symbols, entry.2.Moderate

/-- The angles of the instance and of its attributes are finite. -/
structure Instance.Moderate (i : Instance) : Prop where
  rotation : ∀ r ∈ i.rotation, r.Moderate
  attributes : ∀ a ∈ i.attributes, ∀ r ∈ a.rotation, r.Moderate

/-- The wires of the segment are moderate, and the angles of its labels finite. -/
structure Segment.Moderate (s : Segment) : Prop where
  wires : ∀ w ∈ s.wires, w.Moderate
  labels : ∀ l ∈ s.labels, ∀ r ∈ l.rotation, r.Moderate

/-- The segments of the net are moderate. -/
def Net.Moderate (n : Net) : Prop := ∀ s ∈ n.segments, s.Moderate

/-- What stands on the sheet is moderate. -/
structure Sheet.Moderate (s : Sheet) : Prop where
  plain : ∀ item ∈ s.plain, item.Moderate
  instances : ∀ i ∈ s.instances, i.Moderate
  buses : ∀ n ∈ s.buses, n.Moderate
  nets : ∀ n ∈ s.nets, n.Moderate

/-- The libraries and sheets of the schematic are moderate. -/
structure Schematic.Moderate (s : Schematic) : Prop where
  libraries : ∀ entry ∈ s.libraries, entry.2.Moderate
  sheets : ∀ sheet ∈ s.sheets, sheet.Moderate

/-! ## Attributes -/

section Attributes
variable {e : Element} {name : String}

theorem required_imports (e : Element) (name : String) : Imports (fun _ => True) (required e name) := by
  unfold required
  split
  · trivial
  · rfl

theorem real?_imports (e : Element) (name : String) :
    Imports (fun r => ∀ x ∈ r, x ∈ (e.attribute? name).bind readReal) (real? e name) := by
  unfold real?
  split
  · exact Imports.none
  · rename_i value found
    rw [found, Option.bind_some]
    split
    · rename_i x read
      rintro _ ⟨⟩
      exact read
    · rfl

theorem whole?_imports (e : Element) (name : String) :
    Imports (fun r => ∀ n ∈ r, n ∈ (e.attribute? name).bind readWhole) (whole? e name) := by
  unfold whole?
  split
  · exact Imports.none
  · rename_i value found
    rw [found, Option.bind_some]
    split
    · rename_i n read
      rintro _ ⟨⟩
      exact read
    · rfl

theorem wholeOrZero_imports {P : Int → Prop} (holds : ∀ n ∈ (e.attribute? name).bind readWhole, P n) (zero : P 0) :
    Imports P (wholeOrZero e name) := by
  refine (whole?_imports e name).bind fun r read => ?_
  cases r with
  | none => exact zero
  | some n => exact holds n (read n rfl)

/-- Millimetres less than a power of two are so many units. -/
theorem ofMillimetres_le {x : Float} {k : Nat} (below : Below k x) (range : k ≤ 900) :
    ∃ n, ofMillimetres x = .ok n ∧ n.natAbs ≤ 2 ^ (k + 15) := by
  have factor : Below 14 (ofInt unitsPerMillimetre) := by decide +kernel
  have product := below.mul factor (by omega) (by omega)
  obtain ⟨n, rounded⟩ := product.round_ok
  exact ⟨n, by rw [ofMillimetres, rounded]; rfl, Below.round_le (k := k + 15) product rounded⟩

theorem ModerateElement.length (moderate : ModerateElement e) (isLength : name ∈ lengthNames) :
    ∀ x ∈ (e.attribute? name).bind readReal, ∃ n, ofMillimetres x = .ok n ∧ n.natAbs < 2 ^ moderateDigits := by
  intro x isRead
  obtain ⟨n, converted, le⟩ := ofMillimetres_le (k := 900) (moderate.lengths name isLength x isRead) (by decide)
  exact ⟨n, converted, lt_two_pow_of_le le (by decide)⟩

section Lengths
variable {P : Int → Prop}

theorem length?_imports (holds : ∀ x ∈ (e.attribute? name).bind readReal, ∃ n, ofMillimetres x = .ok n ∧ P n) :
    Imports (fun r => ∀ n ∈ r, P n) (length? e name) := by
  refine (real?_imports e name).bind fun r read => ?_
  cases r with
  | none => exact Imports.none
  | some x =>
    obtain ⟨n, converted, isLength⟩ := holds x (read x rfl)
    dsimp only
    rw [converted]
    rintro _ ⟨⟩
    exact isLength

theorem length_imports (holds : ∀ x ∈ (e.attribute? name).bind readReal, ∃ n, ofMillimetres x = .ok n ∧ P n) :
    Imports P (length e name) := by
  refine (length?_imports holds).bind fun r isLength => ?_
  cases r with
  | none => rfl
  | some n => exact isLength n rfl

theorem lengthOrZero_imports (holds : ∀ x ∈ (e.attribute? name).bind readReal, ∃ n, ofMillimetres x = .ok n ∧ P n)
    (zero : P 0) : Imports P (lengthOrZero e name) := by
  refine (length?_imports holds).bind fun r isLength => ?_
  cases r with
  | none => exact zero
  | some n => exact isLength n rfl

theorem pointAt_imports {x y : String}
    (first : ∀ v ∈ (e.attribute? x).bind readReal, ∃ n, ofMillimetres v = .ok n ∧ P n)
    (second : ∀ v ∈ (e.attribute? y).bind readReal, ∃ n, ofMillimetres v = .ok n ∧ P n) :
    Imports (fun p : Point => P p.x ∧ P p.y) (pointAt e x y) :=
  (length_imports first).bind fun _ isLength => (length_imports second).bind fun _ isLength' => ⟨isLength, isLength'⟩

end Lengths

theorem ModerateElement.point (moderate : ModerateElement e) {x y : String} (first : x ∈ lengthNames)
    (second : y ∈ lengthNames) : Imports Point.Moderate (pointAt e x y) :=
  pointAt_imports (P := fun n => n.natAbs < 2 ^ moderateDigits) (moderate.length first) (moderate.length second)

theorem ModerateElement.lengthOrZero (moderate : ModerateElement e) (isLength : name ∈ lengthNames) :
    Imports (fun n => n.natAbs < 2 ^ moderateDigits) (Eagle.lengthOrZero e name) :=
  lengthOrZero_imports (moderate.length isLength) (Nat.two_pow_pos _)

theorem rotation?_imports (moderate : ModerateElement e) : Imports (fun r => ∀ a ∈ r, a.Moderate) (rotation? e) := by
  have angle := moderate.angle
  unfold rotation?
  split
  · rename_i value found
    rw [found, Option.bind_some] at angle
    cases read : Rotation.read value with
    | error failure =>
      unfold Rotation.read at read
      split at read
      · cases read
      · split at read
        · cases read
        · cases read
          rfl
    | ok r =>
      rintro _ ⟨⟩
      exact angle r (by rw [read]; rfl)
  · exact Imports.none

end Attributes

/-! ## Items -/

section Items
variable {e : Element}

theorem anyWhole_imports (e : Element) (name : String) : Imports (fun _ => True) (wholeOrZero e name) :=
  wholeOrZero_imports (fun _ _ => trivial) trivial

theorem Wire.read_imports (moderate : ModerateElement e) : Imports Wire.Moderate (Wire.read e) :=
  (moderate.point (by decide) (by decide)).bind fun _ start => (moderate.point (by decide) (by decide)).bind fun _ stop =>
  (moderate.lengthOrZero (by decide)).bind fun _ _ => (anyWhole_imports e "layer").bind fun _ _ =>
  (real?_imports e "curve").bind fun _ _ => ⟨start, stop⟩

/-- A curved wire of a symbol is read with ends near enough for its arc. -/
theorem Wire.read_curves (moderate : ModerateElement e) (curves : Eagle.CurvesModerately e) :
    Imports Wire.CurvesModerately (Wire.read e) := by
  by_cases bent : ∃ degrees ∈ (e.attribute? "curve").bind readReal, (degrees == 0.0) = false
  · obtain ⟨degrees, isCurve, isBent⟩ := bent
    have short {name : String} (isLength : name ∈ lengthNames) :
        ∀ x ∈ (e.attribute? name).bind readReal, ∃ n, ofMillimetres x = .ok n ∧ n.natAbs < 2 ^ 42 := by
      intro x isRead
      obtain ⟨n, converted, le⟩ := ofMillimetres_le (k := 26) ((curves degrees isCurve isBent).2 name isLength x isRead)
        (by decide)
      exact ⟨n, converted, lt_two_pow_of_le le (by decide)⟩
    refine (pointAt_imports (short (by decide)) (short (by decide))).bind fun _ start => ?_
    refine (pointAt_imports (short (by decide)) (short (by decide))).bind fun _ stop => ?_
    refine (lengthOrZero_imports (short (by decide)) (by decide)).bind fun _ width => ?_
    refine (anyWhole_imports e "layer").bind fun _ _ => (real?_imports e "curve").bind fun _ read => ?_
    exact fun degrees isDegrees isBent => ⟨(curves degrees (read degrees isDegrees) isBent).1, start, stop, width⟩
  · refine (moderate.point (by decide) (by decide)).bind fun _ _ => ?_
    refine (moderate.point (by decide) (by decide)).bind fun _ _ => ?_
    refine (moderate.lengthOrZero (by decide)).bind fun _ _ => ?_
    refine (anyWhole_imports e "layer").bind fun _ _ => (real?_imports e "curve").bind fun _ read => ?_
    exact fun degrees isDegrees isBent => absurd ⟨degrees, read degrees isDegrees, isBent⟩ bent

theorem Junction.read_imports (moderate : ModerateElement e) : Imports (fun _ => True) (Junction.read e) :=
  (moderate.point (by decide) (by decide)).bind fun _ _ => trivial

theorem Label.read_imports (moderate : ModerateElement e) :
    Imports (fun l : Label => ∀ r ∈ l.rotation, r.Moderate) (Label.read e) :=
  (moderate.point (by decide) (by decide)).bind fun _ _ =>
  (length_imports (moderate.length (by decide))).bind fun _ _ => (anyWhole_imports e "layer").bind fun _ _ =>
  (rotation?_imports moderate).bind fun _ angle => angle

theorem Text.read_imports (moderate : ModerateElement e) :
    Imports (fun t : Text => ∀ r ∈ t.rotation, r.Moderate) (Text.read e) :=
  (moderate.point (by decide) (by decide)).bind fun _ _ =>
  (length_imports (moderate.length (by decide))).bind fun _ _ => (anyWhole_imports e "layer").bind fun _ _ =>
  (whole?_imports e "ratio").bind fun _ _ => (rotation?_imports moderate).bind fun _ angle => angle

theorem Attribute.read_imports (moderate : ModerateElement e) :
    Imports (fun a : Attribute => ∀ r ∈ a.rotation, r.Moderate) (Attribute.read e) :=
  (required_imports e "name").bind fun _ _ => (length?_imports (moderate.length (by decide))).bind fun _ _ =>
  (length?_imports (moderate.length (by decide))).bind fun _ _ => (length?_imports (moderate.length (by decide))).bind fun _ _ =>
  (whole?_imports e "layer").bind fun _ _ => (whole?_imports e "ratio").bind fun _ _ =>
  (rotation?_imports moderate).bind fun _ angle => angle

theorem Pin.read_imports (moderate : ModerateElement e) :
    Imports (fun p : Pin => ∀ r ∈ p.rotation, r.Moderate) (Pin.read e) :=
  (required_imports e "name").bind fun _ _ => (moderate.point (by decide) (by decide)).bind fun _ _ =>
  (rotation?_imports moderate).bind fun _ angle => angle

theorem Circle.read_imports (moderate : ModerateElement e) : Imports (fun _ => True) (Circle.read e) :=
  (moderate.point (by decide) (by decide)).bind fun _ _ =>
  (length_imports (moderate.length (by decide))).bind fun _ _ => (moderate.lengthOrZero (by decide)).bind fun _ _ =>
  (anyWhole_imports e "layer").bind fun _ _ => trivial

theorem Rectangle.read_imports (moderate : ModerateElement e) : Imports (fun _ => True) (Rectangle.read e) :=
  (moderate.point (by decide) (by decide)).bind fun _ _ =>
  (moderate.point (by decide) (by decide)).bind fun _ _ => (anyWhole_imports e "layer").bind fun _ _ =>
  (rotation?_imports moderate).bind fun _ _ => trivial

theorem Polygon.read_imports (tree : ModerateTree e) : Imports (fun _ => True) (Polygon.read e) :=
  (Imports.mapM fun _ member => (tree.named member).self.point (by decide) (by decide)).bind fun _ _ =>
  (tree.self.lengthOrZero (by decide)).bind fun _ _ => (anyWhole_imports e "layer").bind fun _ _ => trivial

theorem Frame.read_imports (moderate : ModerateElement e) : Imports Frame.Moderate (Frame.read e) :=
  (moderate.point (by decide) (by decide)).bind fun _ start =>
  (moderate.point (by decide) (by decide)).bind fun _ stop =>
  (wholeOrZero_imports moderate.columns (by decide)).bind fun _ columns =>
  (wholeOrZero_imports moderate.rows (by decide)).bind fun _ rows => (anyWhole_imports e "layer").bind fun _ _ =>
  ⟨start, stop, rows, columns⟩

/-- What is read as one kind of item is an item of that kind with the property. -/
theorem Item.imports_of {α : Type} {P : α → Prop} {Q : Item → Prop} {x : Except Failure α} {make : α → Item}
    (read : Imports P x) (holds : ∀ a, P a → Q (make a)) : Imports (fun r => ∀ item ∈ r, Q item) (x.map (some ∘ make)) := by
  refine read.map fun a isRead => ?_
  rintro _ ⟨⟩
  exact holds a isRead

/-- What holds of wires as they are read, and of all other moderate items, holds of each item that is read. -/
theorem Item.read?_imports {Q : Item → Prop} (tree : ModerateTree e)
    (wires : e.tag = "wire" → Imports (fun w => Q (.wire w)) (Wire.read e))
    (others : ∀ item : Item, item.Moderate → (∀ w, item ≠ .wire w) → Q item) :
    Imports (fun r => ∀ item ∈ r, Q item) (Item.read? e) := by
  have moderate := tree.self
  unfold Item.read?
  split
  · rename_i isWire
    exact Item.imports_of (wires isWire) fun _ holds => holds
  · exact Item.imports_of (Junction.read_imports moderate) fun _ _ => others _ trivial nofun
  · exact Item.imports_of (Label.read_imports moderate) fun _ _ => others _ trivial nofun
  · exact Item.imports_of (Text.read_imports moderate) fun _ holds => others _ holds nofun
  · exact Item.imports_of (Pin.read_imports moderate) fun _ holds => others _ holds nofun
  · exact Item.imports_of (Circle.read_imports moderate) fun _ _ => others _ trivial nofun
  · exact Item.imports_of (Rectangle.read_imports moderate) fun _ _ => others _ trivial nofun
  · exact Item.imports_of (Polygon.read_imports tree) fun _ _ => others _ trivial nofun
  · exact Item.imports_of (Frame.read_imports moderate) fun _ holds => others _ holds nofun
  · exact Imports.none

theorem Item.readAll_imports {Q : Item → Prop} {es : List Element}
    (each : ∀ e ∈ es, Imports (fun r => ∀ item ∈ r, Q item) (Item.read? e)) :
    Imports (∀ item ∈ ·, Q item) (Item.readAll es) := by
  refine (Imports.mapM each).bind fun found holds => ?_
  intro item member
  obtain ⟨_, isFound, rfl⟩ := List.mem_filterMap.1 member
  exact holds _ isFound item rfl

/-- The items that stand on a sheet are moderate. -/
theorem Item.readAll_moderate {es : List Element} (trees : ∀ e ∈ es, ModerateTree e) :
    Imports (∀ item ∈ ·, item.Moderate) (Item.readAll es) :=
  Item.readAll_imports fun e member => Item.read?_imports (trees e member)
    (fun _ => Wire.read_imports (trees e member).self) fun _ moderate _ => moderate

end Items

/-! ## Libraries and sheets -/

section Trees
variable {e : Element}

theorem Connect.read_imports (e : Element) : Imports (fun _ => True) (Connect.read e) :=
  (required_imports e "gate").bind fun _ _ => (required_imports e "pin").bind fun _ _ =>
  (required_imports e "pad").bind fun _ _ => trivial

theorem Device.read_imports (e : Element) : Imports (fun _ => True) (Device.read e) :=
  (Imports.mapM fun connect _ => Connect.read_imports connect).bind fun _ _ => trivial

theorem Gate.read_imports (moderate : ModerateElement e) : Imports (fun _ => True) (Gate.read e) :=
  (required_imports e "name").bind fun _ _ => (required_imports e "symbol").bind fun _ _ =>
  (moderate.lengthOrZero (by decide)).bind fun _ _ =>
  (moderate.lengthOrZero (by decide)).bind fun _ _ => trivial

theorem DeviceSet.read_imports (tree : ModerateTree e) : Imports (fun _ => True) (DeviceSet.read e) :=
  (required_imports e "name").bind fun _ _ =>
  (Imports.mapM fun _ member => Gate.read_imports (tree.grandchild member).self).bind fun _ _ =>
  (Imports.mapM fun device _ => Device.read_imports device).bind fun _ _ => trivial

theorem Symbol.read_imports (tree : ModerateTree e) (isSymbol : e.tag = "symbol") :
    Imports Symbol.Moderate (Symbol.read e) := by
  refine (Item.readAll_imports fun c member => ?_).bind fun _ items => (required_imports e "name").bind fun _ _ => items
  refine Item.read?_imports (tree.child member) (fun isWire => ?_)
    fun item moderate other => ⟨moderate, fun w isWire => absurd isWire (other w)⟩
  have named : c ∈ e.named "wire" := List.mem_filter.2 ⟨member, by simpa using isWire⟩
  have moderate := (tree.child member).self
  refine ((Wire.read_imports moderate).and (Wire.read_curves moderate (tree.self.arcs isSymbol c named))).imp ?_
  rintro w ⟨holds, curves⟩
  exact ⟨holds, fun _ same => by cases same; exact curves⟩

theorem Library.read_imports (tree : ModerateTree e) : Imports Library.Moderate (Library.read e) := by
  refine (Imports.mapM fun _ member =>
    Symbol.read_imports (tree.grandchild member) (Element.tag_of_grandchild member)).bind fun symbols moderate => ?_
  refine (Imports.mapM fun _ member => DeviceSet.read_imports (tree.grandchild member)).bind fun _ _ => ?_
  rintro ⟨name, symbol⟩ member
  obtain ⟨_, isRead, same⟩ := List.mem_map.1 (Entries.mem_ofList member)
  cases same
  exact moderate _ isRead

theorem Layer.read_imports (e : Element) : Imports (fun _ => True) (Layer.read e) :=
  (anyWhole_imports e "number").bind fun _ _ => trivial

theorem Part.read_imports (e : Element) : Imports (fun _ => True) (Part.read e) :=
  (required_imports e "name").bind fun _ _ => (required_imports e "library").bind fun _ _ =>
  (required_imports e "deviceset").bind fun _ _ => trivial

theorem Instance.read_imports (tree : ModerateTree e) : Imports Instance.Moderate (Instance.read e) :=
  (required_imports e "part").bind fun _ _ => (required_imports e "gate").bind fun _ _ =>
  (tree.self.point (by decide) (by decide)).bind fun _ _ =>
  (rotation?_imports tree.self).bind fun _ angle =>
  (Imports.mapM fun _ member => Attribute.read_imports (tree.named member).self).bind fun _ attributes =>
  ⟨angle, attributes⟩

theorem Segment.read_imports (tree : ModerateTree e) : Imports Segment.Moderate (Segment.read e) :=
  (Imports.mapM fun _ member => Wire.read_imports (tree.named member).self).bind fun _ wires =>
  (Imports.mapM fun _ member => Junction.read_imports (tree.named member).self).bind fun _ _ =>
  (Imports.mapM fun _ member => Label.read_imports (tree.named member).self).bind fun _ labels => ⟨wires, labels⟩

theorem Net.read_imports (tree : ModerateTree e) : Imports Net.Moderate (Net.read e) :=
  (Imports.mapM fun _ member => Segment.read_imports (tree.named member)).bind fun _ segments => segments

theorem Sheet.read_imports (tree : ModerateTree e) : Imports Sheet.Moderate (Sheet.read e) := by
  have rest {plain : List Item} (items : ∀ item ∈ plain, item.Moderate) : Imports Sheet.Moderate (do
      return ⟨(e.first? "description").bind (·.text?), plain,
        ← (e.grandchildren "instances" "instance").mapM Instance.read,
        ← (e.grandchildren "busses" "bus").mapM Net.read, ← (e.grandchildren "nets" "net").mapM Net.read⟩) :=
    (Imports.mapM fun _ member => Instance.read_imports (tree.grandchild member)).bind fun _ instances =>
    (Imports.mapM fun _ member => Net.read_imports (tree.grandchild member)).bind fun _ buses =>
    (Imports.mapM fun _ member => Net.read_imports (tree.grandchild member)).bind fun _ nets =>
    ⟨items, instances, buses, nets⟩
  unfold Sheet.read
  cases found : e.first? "plain" with
  | none => exact rest (List.forall_mem_nil _)
  | some p => exact (Item.readAll_moderate fun _ member => (tree.first found).child member).bind fun _ items => rest items

theorem Schematic.ofElement_imports (tree : ModerateTree e) : Imports Schematic.Moderate (Schematic.ofElement e) := by
  unfold Schematic.ofElement
  by_cases isRoot : (e.tag != "eagle") = true
  · rw [if_pos isRoot]
    rfl
  rw [if_neg isRoot]
  cases drawn : e.first? "drawing" with
  | none => rfl
  | some drawing =>
    cases found : drawing.first? "schematic" with
    | none =>
      dsimp only
      rw [found]
      rfl
    | some schematic =>
      dsimp only
      rw [found]
      have within := (tree.first drawn).first found
      refine (Imports.mapM fun _ _ => Layer.read_imports _).bind fun _ _ => ?_
      refine (Imports.mapM fun _ member => Library.read_imports (within.grandchild member)).bind fun _ libraries => ?_
      refine (Imports.mapM fun _ _ => Part.read_imports _).bind fun _ _ => ?_
      refine (Imports.mapM fun _ member => Sheet.read_imports (within.grandchild member)).bind fun _ sheets => ?_
      refine ⟨?_, sheets⟩
      rintro ⟨name, library⟩ member
      obtain ⟨_, isRead, same⟩ := List.mem_map.1 (Entries.mem_ofList member)
      cases same
      exact libraries _ isRead

end Trees

/-- Reading a text without immoderate elements fails as an import may, or comes to a moderate schematic. -/
theorem Schematic.read_imports {text : String} (moderate : ∀ root ∈ Markup.read? text, ModerateTree root) :
    Imports Schematic.Moderate (Schematic.read text) := by
  unfold Schematic.read
  split
  · rename_i root found
    exact Schematic.ofElement_imports (moderate root found)
  · rfl

end Eagle

end Redraft
