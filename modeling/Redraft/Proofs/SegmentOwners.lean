import Redraft.Proofs.NetNames

/-!
# Owners of wires and labels

The lines of a drawn sheet are those of its segments in order, and so are the
labels. So a line or a label is known to be of a segment by its number alone.
-/

namespace Redraft

/-- A segment under the name it is drawn by, and how many segments its net has on the sheet. -/
structure DrawnSegment where
  net : String
  groups : Nat
  segment : Eagle.Segment

def Eagle.Net.drawnSegments (n : Eagle.Net) (net : String) : List DrawnSegment :=
  n.segments.map fun s => ⟨net, n.segments.length, s⟩

/-- The segments of a sheet in the order in which they are drawn. -/
def Eagle.Sheet.drawnSegments (e : Eagle.Sheet) : List DrawnSegment :=
  e.buses.flatMap (fun n => n.drawnSegments (Name.bus n.name)) ++ e.nets.flatMap fun n => n.drawnSegments n.name

namespace Context
variable {c : Context}

def segmentLines (c : Context) (x : DrawnSegment) : List Line := x.segment.wires.map c.line

theorem netLines_eq (c : Context) (net : String) (n : Eagle.Net) :
    c.netLines n = (n.drawnSegments net).flatMap c.segmentLines := by
  simp [netLines, Eagle.Net.drawnSegments, List.flatMap_map, segmentLines]

/-- How many labels are drawn for a segment. -/
def labelCount (c : Context) (x : DrawnSegment) : Nat :=
  x.segment.labels.length +
    (neededLabels (Name.label x.net) (neededScope (c.spansSheets x.net) x.groups) x.segment).length

end Context

/-- The numbers of the groups that the items of groups of some sizes belong to, in order. -/
def owners (sizes : List Nat) : List Nat := sizes.zipIdx.flatMap fun (size, group) => List.replicate size group

/-- The numbers of the segments that the lines of a sheet belong to. -/
def Eagle.Sheet.wireOwners (e : Eagle.Sheet) : List Nat :=
  owners (e.drawnSegments.map (·.segment.wires.length))

/-- The numbers of the segments that the labels of a sheet belong to. -/
def Context.labelOwners (c : Context) (e : Eagle.Sheet) : List Nat := owners (e.drawnSegments.map c.labelCount)

private theorem owned_from {α : Type} (groups : List (List α)) (k : Nat) {n : Nat} {a : α}
    (found : groups.flatten[n]? = some a) :
    ∃ i group, (((groups.map List.length).zipIdx k).flatMap fun (size, group) => List.replicate size group)[n]? =
      some (k + i) ∧ groups[i]? = some group ∧ a ∈ group := by
  induction groups generalizing k n with
  | nil => simp at found
  | cons group groups ih =>
    rw [List.flatten_cons, List.getElem?_append] at found
    rw [List.map_cons, List.zipIdx_cons, List.flatMap_cons, List.getElem?_append, List.length_replicate]
    split at found
    · rename_i inside
      exact ⟨0, group, by simp [inside], rfl, List.mem_of_getElem? found⟩
    · rename_i outside
      obtain ⟨i, later, owner, isLater, member⟩ := ih (k + 1) found
      refine ⟨i + 1, later, ?_, isLater, member⟩
      rw [if_neg outside, owner]
      congr 1
      omega

/-- An item of some groups is of the group that owns its number. -/
theorem owned {α : Type} {groups : List (List α)} {n : Nat} {a : α} (found : groups.flatten[n]? = some a) :
    ∃ i group, (owners (groups.map List.length))[n]? = some i ∧ groups[i]? = some group ∧ a ∈ group := by
  obtain ⟨i, group, owner, here, member⟩ := owned_from groups 0 found
  exact ⟨i, group, by simpa [owners] using owner, here, member⟩

theorem Context.SegmentLabels.length {c : Context} {x : DrawnSegment} {labels : List NetLabel}
    (made : c.SegmentLabels x.net x.groups x.segment labels) : labels.length = c.labelCount x := by
  obtain ⟨explicit, drawn, rfl⟩ := made
  rw [List.length_append, ← drawn.length_eq]
  rfl

private theorem netLabels_segments {c : Context} {net : Eagle.Net → String} {nets : List Eagle.Net}
    {ofNets : List (List NetLabel)} (drawn : List.Forall₂ (fun n labels => c.NetLabels (net n) n labels) nets ofNets) :
    ∃ bySegment, List.Forall₂ (fun (x : DrawnSegment) labels => c.SegmentLabels x.net x.groups x.segment labels)
      (nets.flatMap fun n => n.drawnSegments (net n)) bySegment ∧ bySegment.flatten = ofNets.flatten := by
  induction drawn with
  | nil => exact ⟨[], .nil, rfl⟩
  | @cons n _ _ _ first _ ih =>
    obtain ⟨here, made, rfl⟩ := first
    obtain ⟨later, laterMade, same⟩ := ih
    refine ⟨here ++ later, ?_, by simp [same]⟩
    rw [List.flatMap_cons]
    apply List.rel_append _ laterMade
    rw [Eagle.Net.drawnSegments, List.forall₂_map_left_iff]
    exact made

section Drawn
open Drafting
variable {c : Context} {e : Eagle.Sheet} {d connected : Desk}

/-- Connections drawn on a sheet with nothing on it, segment by segment. -/
structure DrawnSegments (c : Context) (e : Eagle.Sheet) (s : Sheet) (labels : List (List NetLabel)) : Prop where
  lines : s.lines = e.drawnSegments.flatMap c.segmentLines
  made : List.Forall₂ (fun (x : DrawnSegment) labels => c.SegmentLabels x.net x.groups x.segment labels)
    e.drawnSegments labels
  labels : s.labels.map NetLabel.unplaced = labels.flatten.map NetLabel.unplaced

theorem ends_drawConnections_segments (ran : Ends (drawConnections c e) d () connected) (noLines : d.sheet.lines = [])
    (noLabels : d.sheet.labels = []) : ∃ labels, DrawnSegments c e connected.sheet labels := by
  obtain ⟨_, ofBuses, ofNets, drawn⟩ := ends_drawConnections ran
  obtain ⟨busLabels, busMade, busSame⟩ := netLabels_segments drawn.buses
  obtain ⟨netLabels, netMade, netSame⟩ := netLabels_segments drawn.nets
  refine ⟨busLabels ++ netLabels, ?_, List.rel_append busMade netMade, ?_⟩
  · rw [drawn.lines, noLines, List.nil_append, Eagle.Sheet.drawnSegments, List.flatMap_append, List.flatMap_assoc,
      List.flatMap_assoc]
    simp only [← c.netLines_eq]
  · rw [drawn.labels, noLabels, List.flatten_append, busSame, netSame, List.nil_append]

variable {s : Sheet} {labels : List (List NetLabel)} {n : Nat}

/-- A line is of the segment that owns its number. -/
theorem DrawnSegments.line_owner (drawn : DrawnSegments c e s labels) {l : Line} (found : s.lines[n]? = some l) :
    ∃ i x, e.wireOwners[n]? = some i ∧ e.drawnSegments[i]? = some x ∧ l ∈ c.segmentLines x := by
  rw [drawn.lines, List.flatMap_def] at found
  obtain ⟨i, group, owner, here, member⟩ := owned found
  rw [List.getElem?_map, Option.map_eq_some_iff] at here
  obtain ⟨x, isSegment, rfl⟩ := here
  refine ⟨i, x, ?_, isSegment, member⟩
  rw [← owner, Eagle.Sheet.wireOwners, List.map_map]
  congr 2
  apply List.map_congr_left
  intro x _
  simp [Context.segmentLines]

/-- A label is of the segment that owns its number. -/
theorem DrawnSegments.label_owner (drawn : DrawnSegments c e s labels) {l : NetLabel} (found : s.labels[n]? = some l) :
    ∃ i x, (c.labelOwners e)[n]? = some i ∧ e.drawnSegments[i]? = some x ∧ l.text = Name.label x.net := by
  have unplaced : (labels.flatten.map NetLabel.unplaced)[n]? = some l.unplaced := by
    rw [← drawn.labels, List.getElem?_map, found]
    rfl
  rw [List.getElem?_map, Option.map_eq_some_iff] at unplaced
  obtain ⟨made, here, same⟩ := unplaced
  obtain ⟨i, group, owner, isGroup, member⟩ := owned here
  obtain ⟨x, isSegment, isMade⟩ := forall₂_getElem? drawn.made isGroup
  refine ⟨i, x, ?_, isSegment, ?_⟩
  · have sizes : labels.map List.length = e.drawnSegments.map c.labelCount := by
      have same : List.Forall₂ (· = ·) (e.drawnSegments.map c.labelCount) (labels.map List.length) := by
        rw [List.forall₂_map_left_iff, List.forall₂_map_right_iff]
        exact drawn.made.imp fun _ _ made => made.length.symm
      rw [List.forall₂_eq_eq_eq] at same
      exact same.symm
    rw [← owner, sizes]
    rfl
  · rw [show l.text = made.text from (congrArg NetLabel.text same).symm]
    exact (isMade.named member).1

end Drawn

end Redraft
