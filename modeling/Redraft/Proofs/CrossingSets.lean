import Redraft.Net.Tracker

/-!
# The crossings that are noted

Wires are added to the groups of a sheet one after the other, and each is
crossed with those that are there already. What is noted in the end is the
crossing of every two wires of different nets, of the later with the earlier
one. The crossings are in order, so a binary search finds what is noted.
-/

namespace Redraft

open scoped List

theorem Point.before_iff {p q : Point} : p.before q = true ↔ p.x < q.x ∨ p.x = q.x ∧ p.y < q.y := by
  simp [before]

/-- No point of the list comes before one that stands to its left. -/
def InOrder (points : List Point) : Prop := points.Pairwise fun p q => ¬ q.before p

/-! ## Binary search -/

/-- Where a binary search between two places ends that goes to the right of the points that pass. -/
def searchFrom (passes : Point → Bool) (points : List Point) (low high : Nat) : Nat :=
  if low < high then
    let middle := (low + high) / 2
    if points[middle]?.any passes then searchFrom passes points (middle + 1) high
    else searchFrom passes points low middle
  else low
termination_by high - low

/-- The list with a point where a binary search puts it, to the right of those equal to it. -/
def insertBySearch (p : Point) (points : List Point) : List Point :=
  let place := searchFrom (!p.before ·) points 0 points.length
  points.take place ++ p :: points.drop place

/-- A binary search for the leftmost place of a point comes to that point. -/
def findsBySearch (p : Point) (points : List Point) : Bool :=
  points[searchFrom (·.before p) points 0 points.length]? == some p

section Search
variable {passes : Point → Bool} {points : List Point}

/-- A binary search ends between the points that pass and those that do not. -/
theorem searchFrom_append {left right : List Point} (all : ∀ p ∈ left, passes p)
    (none : ∀ p ∈ right, ¬ passes p) {low high : Nat} (above : low ≤ left.length) (below : left.length ≤ high)
    (inside : high ≤ (left ++ right).length) : searchFrom passes (left ++ right) low high = left.length := by
  fun_induction searchFrom passes (left ++ right) low high with
  | case1 low high more middle passed ih =>
    refine ih (Nat.lt_of_not_le fun beyond => ?_) below inside
    rw [List.getElem?_append_right beyond] at passed
    obtain ⟨p, found, passes⟩ := (Option.any_eq_true ..).1 passed
    exact none p (List.mem_of_getElem? found) passes
  | case2 low high more middle failed ih =>
    refine ih above (Nat.le_of_not_lt fun before => failed ?_) (by omega)
    rw [List.getElem?_append_left before, List.getElem?_eq_getElem before]
    exact all _ (List.getElem_mem before)
  | case3 low high done => omega

/-- Where a point passes only if all those to its left do, the points that pass stand to the left of the others. -/
theorem exists_split (closed : points.Pairwise fun p q => passes q → passes p) :
    ∃ left right, points = left ++ right ∧ (∀ p ∈ left, passes p) ∧ ∀ p ∈ right, ¬ passes p := by
  induction points with
  | nil => exact ⟨[], [], rfl, nofun, nofun⟩
  | cons p points ih =>
    obtain ⟨first, rest⟩ := List.pairwise_cons.1 closed
    by_cases passed : passes p
    · obtain ⟨left, right, split, all, none⟩ := ih rest
      exact ⟨p :: left, right, by rw [split]; rfl, List.forall_mem_cons.2 ⟨passed, all⟩, none⟩
    · refine ⟨[], p :: points, rfl, nofun, List.forall_mem_cons.2 ⟨passed, fun q later passed' => ?_⟩⟩
      exact passed (first q later passed')

theorem searchFrom_split {left right : List Point} (all : ∀ p ∈ left, passes p)
    (none : ∀ p ∈ right, ¬ passes p) :
    searchFrom passes (left ++ right) 0 (left ++ right).length = left.length :=
  searchFrom_append all none (Nat.zero_le _) (by simp) (Nat.le_refl _)

end Search

namespace Tracker

theorem insertPoint_append {p : Point} {left right : List Point} (all : ∀ q ∈ left, ¬ p.before q)
    (none : ∀ q ∈ right, p.before q) : insertPoint p (left ++ right) = left ++ p :: right := by
  induction left with
  | nil =>
    cases right with
    | nil => rfl
    | cons q right => simp [insertPoint, none q (.head _)]
  | cons q left ih =>
    obtain ⟨first, rest⟩ := List.forall_mem_cons.1 all
    simp [insertPoint, first, ih rest]

theorem insertPoint_perm (p : Point) (points : List Point) : insertPoint p points ~ p :: points := by
  induction points with
  | nil => exact .refl _
  | cons q points ih =>
    rw [insertPoint]
    by_cases first : p.before q
    · rw [if_pos first]
    · rw [if_neg first]
      exact (ih.cons q).trans (.swap p q points)

theorem insertPoint_inOrder {p : Point} {points : List Point} (inOrder : InOrder points) :
    InOrder (insertPoint p points) := by
  induction points with
  | nil => exact List.pairwise_singleton ..
  | cons q points ih =>
    obtain ⟨first, rest⟩ := List.pairwise_cons.1 inOrder
    rw [insertPoint]
    by_cases here : p.before q
    · rw [if_pos here]
      refine List.pairwise_cons.2 ⟨fun r member => ?_, inOrder⟩
      have least : r = q ∨ ¬ r.before q := (List.mem_cons.1 member).imp_right (first r)
      rcases least with rfl | later
      · rw [Point.before_iff] at *
        omega
      · rw [Point.before_iff] at *
        omega
    · rw [if_neg here]
      refine List.pairwise_cons.2 ⟨fun r member => ?_, ih rest⟩
      rcases List.mem_cons.1 ((insertPoint_perm p points).mem_iff.1 member) with rfl | there
      · exact here
      · exact first r there

/-- In order, a binary search puts a point where it is inserted. -/
theorem insertBySearch_eq {p : Point} {points : List Point} (inOrder : InOrder points) :
    insertBySearch p points = insertPoint p points := by
  have closed : points.Pairwise fun q r => !p.before r → !p.before q := by
    refine inOrder.imp fun {q r} apart passes => ?_
    simp only [Bool.not_eq_true', ← Bool.not_eq_true, Point.before_iff] at apart passes ⊢
    omega
  obtain ⟨left, right, rfl, all, none⟩ := exists_split closed
  rw [insertBySearch, searchFrom_split all none, List.take_left, List.drop_left]
  exact (insertPoint_append (fun q member => by simpa using all q member) fun q member => by
    simpa using none q member).symm

/-- In order, a binary search finds a point if it is there. -/
theorem findsBySearch_eq {p : Point} {points : List Point} (inOrder : InOrder points) :
    findsBySearch p points = points.contains p := by
  have closed : points.Pairwise fun q r => r.before p → q.before p := by
    refine inOrder.imp fun {q r} apart passes => ?_
    rw [Point.before_iff] at *
    omega
  obtain ⟨left, right, rfl, all, none⟩ := exists_split closed
  have absent : p ∉ left := fun member => by
    have before := Point.before_iff.1 (all p member)
    omega
  rw [findsBySearch, searchFrom_split all none, List.getElem?_append_right (Nat.le_refl _), Nat.sub_self,
    Bool.eq_iff_iff, beq_iff_eq, List.contains_iff_mem, List.mem_append, or_iff_right absent]
  cases right with
  | nil => simp
  | cons q right =>
    obtain ⟨_, sorted, _⟩ := List.pairwise_append.1 inOrder
    obtain ⟨first, _⟩ := List.pairwise_cons.1 sorted
    rw [List.getElem?_cons_zero, Option.some.injEq]
    constructor
    · rintro rfl
      exact .head _
    · intro member
      rcases List.mem_cons.1 member with rfl | later
      · rfl
      · -- neither comes before the other
        have least := first p later
        have notBefore := none q (.head _)
        rw [Point.before_iff] at least notBefore
        ext <;> omega

theorem foldl_insertPoint_perm (added points : List Point) :
    added.foldl (fun ps p => insertPoint p ps) points ~ points ++ added := by
  induction added generalizing points with
  | nil => rw [List.append_nil]; exact .refl _
  | cons p added ih =>
    calc added.foldl (fun ps p => insertPoint p ps) (insertPoint p points)
      _ ~ insertPoint p points ++ added := ih _
      _ ~ p :: points ++ added := (insertPoint_perm p points).append_right added
      _ ~ points ++ p :: added := List.perm_middle.symm

theorem foldl_insertPoint_inOrder {added points : List Point} (inOrder : InOrder points) :
    InOrder (added.foldl (fun ps p => insertPoint p ps) points) := by
  induction added generalizing points with
  | nil => exact inOrder
  | cons p added ih => exact ih (insertPoint_inOrder inOrder)

theorem foldl_insertBySearch_eq {added points : List Point} (inOrder : InOrder points) :
    added.foldl (fun ps p => insertBySearch p ps) points = added.foldl (fun ps p => insertPoint p ps) points := by
  induction added generalizing points with
  | nil => rfl
  | cons p added ih =>
    rw [List.foldl_cons, List.foldl_cons, insertBySearch_eq inOrder]
    exact ih (insertPoint_inOrder inOrder)

end Tracker

/-! ## Wires that are added one after the other -/

/-- A wire, and the net whose group it was added to. -/
structure AddedWire where
  net : String
  wire : Segment

/-- Where a later wire crosses an earlier one, if that is of another net. -/
def AddedWire.crossing? (later earlier : AddedWire) : Option Point :=
  if earlier.net = later.net then none else later.wire.crossing earlier.wire true

/-- The crossings of every two wires, each of the later with the earlier one. -/
def crossingsAmong : List AddedWire → List Point
  | [] => []
  | earlier :: wires => wires.filterMap (·.crossing? earlier) ++ crossingsAmong wires

theorem crossingsAmong_append (wires : List AddedWire) (later : AddedWire) :
    crossingsAmong (wires ++ [later]) ~ crossingsAmong wires ++ wires.filterMap later.crossing? := by
  induction wires with
  | nil => exact .refl _
  | cons earlier wires ih =>
    have new : (earlier :: wires).filterMap later.crossing? =
        (later.crossing? earlier).toList ++ wires.filterMap later.crossing? := by
      cases crosses : later.crossing? earlier <;> simp [crosses]
    have last : (wires ++ [later]).filterMap (·.crossing? earlier) =
        wires.filterMap (·.crossing? earlier) ++ (later.crossing? earlier).toList := by
      cases crosses : later.crossing? earlier <;> simp [crosses]
    rw [List.cons_append, crossingsAmong, crossingsAmong, new, last, List.append_assoc, List.append_assoc]
    exact ((ih.append_left _).trans (List.perm_append_comm_assoc ..)).append_left _

theorem mem_crossingsAmong {wires : List AddedWire} {p : Point} : p ∈ crossingsAmong wires ↔
    ∃ earlier later, [earlier, later].Sublist wires ∧ later.crossing? earlier = some p := by
  induction wires with
  | nil => simp [crossingsAmong]
  | cons earlier wires ih =>
    rw [crossingsAmong, List.mem_append, ih, List.mem_filterMap]
    constructor
    · rintro (⟨later, member, crosses⟩ | ⟨first, second, apart, crosses⟩)
      · exact ⟨earlier, later, (List.singleton_sublist.2 member).cons_cons earlier, crosses⟩
      · exact ⟨first, second, apart.cons earlier, crosses⟩
    · rintro ⟨first, second, apart, crosses⟩
      cases apart with
      | cons _ apart => exact .inr ⟨first, second, apart, crosses⟩
      | cons_cons _ member => exact .inl ⟨second, List.singleton_sublist.1 member, crosses⟩

namespace Tracker

/-- A call to the tracker while a sheet is drawn. A group is one that was made since the last clearing,
    and is known by how many were made before it. -/
inductive Call where
  | group (net : String) (isBus : Bool)
  | wire (group : Nat) (wire : Segment)
  | label (group label : Nat)

/-- The tracker after a call. -/
def perform (t : Tracker) : Call → Tracker
  | .group net isBus => t.addGroup net isBus
  | .wire group wire => t.addWire (t.first + group) wire
  | .label group label => t.addLabel (t.first + group) label

/-- The tracker after a call, if crossings are inserted by binary search. -/
def performBySearch (t : Tracker) (call : Call) : Tracker :=
  match call with
  | .wire group wire =>
    match t.group? (t.first + group) with
    | none => t
    | some g =>
      { t.perform call with
        crossings := (crossingsOf g.net wire t.tracked).foldl (fun ps p => insertBySearch p ps) t.crossings }
  | .group .. | .label .. => t.perform call

/-- The wires that calls add when groups of some nets are there, in order; there is no wire without a group. -/
def addedBy (nets : List String) : List Call → List AddedWire
  | [] => []
  | .group net _ :: calls => addedBy (nets ++ [net]) calls
  | .wire group wire :: calls =>
    match nets[group]? with
    | some net => ⟨net, wire⟩ :: addedBy nets calls
    | none => addedBy nets calls
  | .label .. :: calls => addedBy nets calls

/-- The wires of some groups. -/
def wiresOf (groups : List NetGroup) : List AddedWire := groups.flatMap fun g => g.wires.map (⟨g.net, ·⟩)

theorem crossingsOf_eq (net : String) (wire : Segment) (groups : List NetGroup) :
    crossingsOf net wire groups = (wiresOf groups).filterMap (AddedWire.crossing? ⟨net, wire⟩) := by
  induction groups with
  | nil => rfl
  | cons g groups ih =>
    rw [wiresOf, List.flatMap_cons, List.filterMap_append, ← wiresOf, ← ih]
    by_cases same : g.net = net
    · simp [crossingsOf, AddedWire.crossing?, same, List.filterMap_map, Function.comp_def]
    · simp [crossingsOf, AddedWire.crossing?, same, List.filterMap_map, Function.comp_def]

theorem wiresOf_modify {groups : List NetGroup} {n : Nat} {g : NetGroup} (found : groups[n]? = some g)
    (wire : Segment) : wiresOf (groups.modify n fun g => { g with wires := g.wires ++ [wire] }) ~
      wiresOf groups ++ [⟨g.net, wire⟩] := by
  induction groups generalizing n with
  | nil => cases found
  | cons h groups ih =>
    cases n with
    | zero =>
      obtain rfl := Option.some.inj found
      have last (rest : List AddedWire) : ⟨h.net, wire⟩ :: rest ~ rest ++ [⟨h.net, wire⟩] :=
        (List.perm_append_singleton _ rest).symm
      simpa [wiresOf] using (last _).append_left _
    | succ n =>
      have rest := (ih found).append_left (h.wires.map (AddedWire.mk h.net))
      simpa [wiresOf] using rest

/-- Changes to a group that keep something of it keep that of all groups. -/
theorem map_modify_of_kept {α : Type} {part : NetGroup → α} (f : NetGroup → NetGroup)
    (kept : ∀ g, part (f g) = part g) (groups : List NetGroup) (n : Nat) :
    (groups.modify n f).map part = groups.map part := by
  apply List.ext_getElem?
  intro k
  rw [List.getElem?_map, List.getElem?_map, List.getElem?_modify]
  by_cases here : n = k
  · simp [here, kept, Function.comp_def]
  · simp [here]

variable {t : Tracker}

theorem tracked_group? (t : Tracker) (n : Nat) : t.group? (t.first + n) = t.tracked[n]? :=
  (List.getElem?_drop ..).symm

theorem tracked_modify (t : Tracker) (n : Nat) (f : NetGroup → NetGroup) (crossings : List Point) :
    tracked { t with groups := t.groups.modify (t.first + n) f, crossings := crossings } =
      t.tracked.modify n f := by
  apply List.ext_getElem?
  intro k
  simp [tracked, List.getElem?_modify]

/-- Groups of some nets are tracked, some wires have been added to them, and their crossings are noted. -/
structure Notes (t : Tracker) (nets : List String) (added : List AddedWire) : Prop where
  tracks : t.first ≤ t.size
  nets : t.tracked.map (·.net) = nets
  wires : wiresOf t.tracked ~ added
  inOrder : InOrder t.crossings
  exact : t.crossings ~ crossingsAmong added

theorem Notes.clear (t : Tracker) : t.clear.Notes [] [] := by
  have none : t.clear.tracked = [] := List.drop_length
  exact ⟨Nat.le_refl _, by rw [none]; rfl, by rw [none]; exact .refl _, .nil, .refl _⟩

variable {nets : List String} {added : List AddedWire}

theorem Notes.addGroup (notes : t.Notes nets added) (net : String) (isBus : Bool) :
    (t.addGroup net isBus).Notes (nets ++ [net]) added := by
  have tracked : (t.addGroup net isBus).tracked = t.tracked ++ [({ net := net, isBus := isBus } : NetGroup)] :=
    List.drop_append_of_le_length notes.tracks
  refine ⟨?_, ?_, ?_, notes.inOrder, notes.exact⟩
  · have tracks := notes.tracks
    simp only [size, Tracker.addGroup, List.length_append] at tracks ⊢
    omega
  · simp [tracked, notes.nets]
  · simpa [tracked, wiresOf] using notes.wires

/-- A group keeps its net while wires and labels are added to it. -/
theorem Notes.modify (notes : t.Notes nets added) (f : NetGroup → NetGroup) (kept : ∀ g, (f g).net = g.net)
    {n : Nat} {new : List AddedWire} {crossings : List Point}
    (wires : wiresOf (t.tracked.modify n f) ~ new) (inOrder : InOrder crossings)
    (exact : crossings ~ crossingsAmong new) :
    Notes { t with groups := t.groups.modify (t.first + n) f, crossings := crossings } nets new := by
  refine ⟨?_, ?_, ?_, inOrder, exact⟩
  · simpa [size] using notes.tracks
  · rw [tracked_modify, map_modify_of_kept f kept, notes.nets]
  · rwa [tracked_modify]

theorem Notes.addLabel (notes : t.Notes nets added) (n label : Nat) :
    (t.addLabel (t.first + n) label).Notes nets added := by
  let f := fun g : NetGroup => { g with labels := g.labels ++ [label] }
  refine notes.modify f (fun _ => rfl) ?_ notes.inOrder notes.exact
  have kept : (t.tracked.modify n f).map (fun g => g.wires.map (AddedWire.mk g.net)) =
      t.tracked.map fun g => g.wires.map (AddedWire.mk g.net) := map_modify_of_kept f (fun _ => rfl) ..
  rw [wiresOf, List.flatMap_def, kept, ← List.flatMap_def]
  exact notes.wires

theorem Notes.group?_eq (notes : t.Notes nets added) {n : Nat} {net : String} (found : nets[n]? = some net) :
    ∃ g, t.tracked[n]? = some g ∧ t.group? (t.first + n) = some g ∧ g.net = net := by
  rw [← notes.nets, List.getElem?_map, Option.map_eq_some_iff] at found
  obtain ⟨g, there, same⟩ := found
  exact ⟨g, there, (t.tracked_group? n).trans there, same⟩

/-- A wire is crossed with all that are there, and goes to the end of its group. -/
theorem Notes.addWire (notes : t.Notes nets added) {n : Nat} {net : String} (found : nets[n]? = some net)
    (wire : Segment) : (t.addWire (t.first + n) wire).Notes nets (added ++ [⟨net, wire⟩]) := by
  obtain ⟨g, there, isGroup, rfl⟩ := notes.group?_eq found
  have crossed : crossingsOf g.net wire t.tracked ~ added.filterMap (AddedWire.crossing? ⟨g.net, wire⟩) := by
    rw [crossingsOf_eq]
    exact notes.wires.filterMap _
  simp only [Tracker.addWire, isGroup]
  refine notes.modify (fun g => { g with wires := g.wires ++ [wire] }) (fun _ => rfl)
    ((wiresOf_modify there wire).trans (notes.wires.append_right _)) (foldl_insertPoint_inOrder notes.inOrder) ?_
  calc (crossingsOf g.net wire t.tracked).foldl (fun ps p => insertPoint p ps) t.crossings
    _ ~ t.crossings ++ crossingsOf g.net wire t.tracked := foldl_insertPoint_perm ..
    _ ~ crossingsAmong added ++ added.filterMap (AddedWire.crossing? ⟨g.net, wire⟩) := notes.exact.append crossed
    _ ~ crossingsAmong (added ++ [⟨g.net, wire⟩]) := (crossingsAmong_append ..).symm

theorem Notes.addWire_none (notes : t.Notes nets added) {n : Nat} (absent : nets[n]? = none) (wire : Segment) :
    t.addWire (t.first + n) wire = t := by
  have none : t.group? (t.first + n) = none := by
    rw [← notes.nets, List.getElem?_map, Option.map_eq_none_iff] at absent
    rw [tracked_group?, absent]
  simp only [Tracker.addWire, none]

/-- What is noted is in order, so a binary search puts new crossings where they are inserted. -/
theorem Notes.performBySearch_eq (notes : t.Notes nets added) (call : Call) :
    t.performBySearch call = t.perform call := by
  cases call with
  | group net isBus => rfl
  | label group label => rfl
  | wire group wire =>
    rw [performBySearch, perform, Tracker.addWire]
    cases t.group? (t.first + group) with
    | none => rfl
    | some g => simp only [foldl_insertBySearch_eq notes.inOrder]

/-- Each wire of a run of calls is crossed with those that were added before it. -/
theorem Notes.run (notes : t.Notes nets added) (calls : List Call) :
    (∃ nets', (calls.foldl perform t).Notes nets' (added ++ addedBy nets calls)) ∧
      calls.foldl performBySearch t = calls.foldl perform t := by
  induction calls generalizing t nets added with
  | nil => exact ⟨⟨nets, by rwa [addedBy, List.append_nil]⟩, rfl⟩
  | cons call calls ih =>
    rw [List.foldl_cons, List.foldl_cons, notes.performBySearch_eq call]
    cases call with
    | group net isBus => exact ih (notes.addGroup net isBus)
    | label group label => exact ih (notes.addLabel group label)
    | wire group wire =>
      rw [addedBy, perform]
      cases found : nets[group]? with
      | none =>
        rw [notes.addWire_none found wire]
        exact ih notes
      | some net => simpa using ih (notes.addWire found wire)

/-- After a clearing and any calls, what is noted is in order, and it is the crossings
    of every two wires that have been added since, of the later with the earlier one, if
    they are of different nets. So a point is found among them if it is one of these, also
    by binary search, and also if new ones are put in by binary search. -/
theorem crossings_of_calls (t : Tracker) (calls : List Call) :
    let after := calls.foldl perform t.clear
    let wires := addedBy [] calls
    InOrder after.crossings ∧ after.crossings ~ crossingsAmong wires ∧
      calls.foldl performBySearch t.clear = after ∧
      ∀ p, (after.isCrossing p ↔
          ∃ earlier later, [earlier, later].Sublist wires ∧ later.crossing? earlier = some p) ∧
        findsBySearch p after.crossings = after.isCrossing p := by
  intro after wires
  obtain ⟨⟨_, notes⟩, bySearch⟩ := (Notes.clear t).run calls
  refine ⟨notes.inOrder, notes.exact, bySearch, fun p => ⟨?_, findsBySearch_eq notes.inOrder⟩⟩
  rw [isCrossing, List.contains_iff_mem, notes.exact.mem_iff]
  exact mem_crossingsAmong

/-- A place where wires of three nets meet is noted for each two of them. -/
example :
    let calls : List Call := [.group "A" false, .wire 0 ⟨⟨0, 0⟩, ⟨4, 0⟩⟩, .group "B" false,
      .wire 1 ⟨⟨2, -2⟩, ⟨2, 2⟩⟩, .group "C" true, .wire 2 ⟨⟨0, -2⟩, ⟨4, 2⟩⟩, .wire 0 ⟨⟨1, 1⟩, ⟨3, 1⟩⟩]
    (calls.foldl perform {}).crossings = [⟨2, 0⟩, ⟨2, 0⟩, ⟨2, 0⟩, ⟨2, 1⟩, ⟨3, 1⟩] := by
  decide

end Tracker
end Redraft
