import Mathlib.Data.List.Forall2
import Redraft.Proofs.Drafting
import Redraft.Sheet.Nets
import Redraft.Sheet.Plain

/-!
# What nets and plain items add to a sheet

Nets, buses and plain items add lines, junctions, labels and notes. Both ends of
each line become joints, and nothing that was there before changes.
-/

namespace Redraft

/-- The line that an EAGLE wire becomes. -/
def Context.line (c : Context) (w : Eagle.Wire) : Line :=
  { kind := c.document.lineKind w.layer, start := w.start.flip, stop := w.stop.flip }

/-- The ends of a line, once each. -/
def Line.ends (l : Line) : List Point := Sheet.lineEnds l.start l.stop

/-- A desk before and after lines and labels are added to its sheet. -/
structure Desk.Grown (before after : Desk) (added : List Line) (named : List NetLabel) : Prop where
  rest : after.sheet = { before.sheet with
    lines := after.sheet.lines, joints := after.sheet.joints, labels := after.sheet.labels
    junctions := after.sheet.junctions, notes := after.sheet.notes, tracker := after.sheet.tracker }
  lines : after.sheet.lines = before.sheet.lines ++ added
  joints : after.sheet.joints = before.sheet.joints ++ added.flatMap Line.ends
  labels : after.sheet.labels = before.sheet.labels ++ named
  units : after.units = before.units

namespace Desk.Grown
variable {a b d : Desk} {lines more : List Line} {labels others : List NetLabel}

theorem refl (d : Desk) : d.Grown d [] [] := ⟨rfl, by simp, by simp, by simp, rfl⟩

theorem trans (first : a.Grown b lines labels) (second : b.Grown d more others) :
    a.Grown d (lines ++ more) (labels ++ others) := by
  refine ⟨?_, ?_, ?_, ?_, second.units.trans first.units⟩
  · rw [second.rest, first.rest]
  · rw [second.lines, first.lines, List.append_assoc]
  · rw [second.joints, first.joints, List.flatMap_append, List.append_assoc]
  · rw [second.labels, first.labels, List.append_assoc]

end Desk.Grown

namespace Drafting

/-- What each step over a list adds, the run over the whole list adds in order. -/
theorem Ends.forM_grown {α : Type} {f : α → Drafting Unit} {lines : α → List Line}
    {made : α → List NetLabel → Prop}
    (step : ∀ a d d', Ends (f a) d () d' → ∃ labels, made a labels ∧ d.Grown d' (lines a) labels)
    {l : List α} {d d' : Desk} (ran : Ends (l.forM f) d () d') :
    ∃ labels, List.Forall₂ made l labels ∧ d.Grown d' (l.flatMap lines) labels.flatten := by
  induction l generalizing d with
  | nil => exact ⟨[], .nil, ends_forM_nil.1 ran ▸ .refl d⟩
  | cons a l ih =>
    obtain ⟨middle, first, rest⟩ := ends_forM_cons.1 ran
    obtain ⟨here, isMade, grown⟩ := step a d middle first
    obtain ⟨later, areMade, grown'⟩ := ih rest
    exact ⟨here :: later, .cons isMade areMade, grown.trans grown'⟩

end Drafting

/-! ## Nets -/

/-- The label that an explicit one becomes, running to some side. -/
def explicitLabel (text : String) (scope : Scope) (l : Eagle.Label) (spin : Spin) : NetLabel :=
  { text, position := l.position.flip, spin, size := scaleBy scope.scale l.size, scope }

/-- The scope of the explicit labels of a net. -/
def Context.netScope (c : Context) (net : String) : Scope := if c.spansSheets net then .document else .sheet

/-- The label made for a group without one, if it needs one. -/
def neededLabels (text : String) (scope : Option Scope) (segment : Eagle.Segment) : List NetLabel :=
  match segment.labels, segment.wires, scope with
  | [], w :: _, some scope => [madeLabel text w.start.flip scope]
  | _, _, _ => []

/-- The labels drawn for a segment of a net with so many segments on its sheet:
    one for each explicit label, and the one that is made for a group without any. -/
def Context.SegmentLabels (c : Context) (net : String) (groups : Nat) (segment : Eagle.Segment)
    (labels : List NetLabel) : Prop :=
  ∃ explicit, List.Forall₂ (fun l label => ∃ spin, label = explicitLabel (Name.label net) (c.netScope net) l spin)
      segment.labels explicit ∧
    labels = explicit ++ neededLabels (Name.label net) (neededScope (c.spansSheets net) groups) segment

section Nets
open Drafting
variable {c : Context} {d d' : Desk}

theorem grown_addWires (c : Context) (group : Nat) (wires : List Eagle.Wire) (d : Desk) :
    d.Grown { d with sheet := wires.foldl (Sheet.addWire c group) d.sheet } (wires.map c.line) [] := by
  induction wires generalizing d with
  | nil => exact .refl d
  | cons w wires ih =>
    have first : d.Grown { d with sheet := d.sheet.addWire c group w } [c.line w] [] :=
      ⟨rfl, rfl, by simp [Sheet.addWire, Sheet.addLine, Line.ends, Context.line], by
        simp [Sheet.addWire, Sheet.addLine], rfl⟩
    exact first.trans (ih _)

theorem grown_addJunctions (junctions : List Eagle.Junction) (d : Desk) :
    d.Grown { d with sheet := junctions.foldl (fun s j => s.addJunction j.position.flip) d.sheet } [] [] := by
  induction junctions generalizing d with
  | nil => exact .refl d
  | cons j junctions ih =>
    have first : d.Grown { d with sheet := d.sheet.addJunction j.position.flip } [] [] :=
      ⟨rfl, by simp [Sheet.addJunction], by simp [Sheet.addJunction], by simp [Sheet.addJunction], rfl⟩
    exact first.trans (ih _)

theorem Sheet.addJunctions_tracker (junctions : List Eagle.Junction) (s : Sheet) :
    (junctions.foldl (fun s j => s.addJunction j.position.flip) s).tracker = s.tracker := by
  induction junctions generalizing s with
  | nil => rfl
  | cons j junctions ih => exact ih _

theorem Sheet.addMadeLabel_tracker (s : Sheet) (text : String) (scope : Option Scope) (segment : Eagle.Segment) :
    (s.addMadeLabel text scope segment).tracker = s.tracker := by
  unfold Sheet.addMadeLabel
  split <;> rfl

theorem grown_drawLabel {text : String} {scope : Scope} {group : Nat} {l : Eagle.Label}
    (ran : Ends (drawLabel text scope group l) d () d') :
    ∃ label, (∃ spin, label = explicitLabel text scope l spin) ∧ d.Grown d' [] [label] := by
  obtain ⟨spin, _, turned, rest⟩ := ends_bind.1 ran
  obtain ⟨_, rfl⟩ := ends_lift.1 turned
  rw [← ends_changeSheet.1 rest]
  exact ⟨_, ⟨spin, rfl⟩, rfl, by simp [Sheet.addGroupLabel, Sheet.addLabel], by
    simp [Sheet.addGroupLabel, Sheet.addLabel], rfl, rfl⟩

theorem grown_drawLabels {text : String} {scope : Scope} {group : Nat} {labels : List Eagle.Label}
    (ran : Ends (labels.forM (drawLabel text scope group)) d () d') :
    ∃ explicit, List.Forall₂ (fun l label => ∃ spin, label = explicitLabel text scope l spin) labels explicit ∧
      d.Grown d' [] explicit := by
  induction labels generalizing d with
  | nil => exact ⟨[], .nil, ends_forM_nil.1 ran ▸ .refl d⟩
  | cons l labels ih =>
    obtain ⟨middle, first, rest⟩ := ends_forM_cons.1 ran
    obtain ⟨label, turned, grown⟩ := grown_drawLabel first
    obtain ⟨explicit, others, grown'⟩ := ih rest
    exact ⟨label :: explicit, .cons turned others, grown.trans grown'⟩

theorem grown_addMadeLabel (text : String) (scope : Option Scope) (segment : Eagle.Segment) (d : Desk) :
    d.Grown { d with sheet := d.sheet.addMadeLabel text scope segment } [] (neededLabels text scope segment) := by
  obtain ⟨wires, junctions, labels⟩ := segment
  cases labels with
  | cons l labels => exact .refl d
  | nil =>
    cases wires with
    | nil => exact .refl d
    | cons w wires =>
      cases scope with
      | none => exact .refl d
      | some scope => exact ⟨rfl, by simp [Sheet.addMadeLabel, Sheet.addLabel], by
          simp [Sheet.addMadeLabel, Sheet.addLabel], rfl, rfl⟩

theorem grown_drawSegment {net : String} {isBus : Bool} {groups : Nat} {segment : Eagle.Segment}
    (ran : Ends (drawSegment c net isBus groups segment) d () d') :
    ∃ labels, c.SegmentLabels net groups segment labels ∧ d.Grown d' (segment.wires.map c.line) labels := by
  obtain ⟨_, _, looked, ran⟩ := ends_bind.1 ran
  obtain ⟨rfl, rfl⟩ := ends_sheet.1 looked
  obtain ⟨_, tracked, isTracked, ran⟩ := ends_bind.1 ran
  obtain ⟨_, wired, isWired, ran⟩ := ends_bind.1 ran
  obtain ⟨_, joined, isJoined, ran⟩ := ends_bind.1 ran
  obtain ⟨_, labelled, isLabelled, isMade⟩ := ends_bind.1 ran
  obtain ⟨explicit, turned, named⟩ := grown_drawLabels isLabelled
  have group : d.Grown tracked [] [] := by
    rw [← ends_changeSheet.1 isTracked]
    exact ⟨rfl, by simp, by simp, by simp, rfl⟩
  have wires := grown_addWires c d.sheet.tracker.size segment.wires tracked
  rw [ends_changeSheet.1 isWired] at wires
  have junctions := grown_addJunctions segment.junctions wired
  rw [ends_changeSheet.1 isJoined] at junctions
  have made := grown_addMadeLabel (Name.label net) (neededScope (c.spansSheets net) groups) segment labelled
  rw [ends_changeSheet.1 isMade] at made
  refine ⟨_, ⟨explicit, turned, rfl⟩, ?_⟩
  simpa using (((group.trans wires).trans junctions).trans named).trans made

/-- The lines of a net. -/
def Context.netLines (c : Context) (n : Eagle.Net) : List Line := n.segments.flatMap fun s => s.wires.map c.line

/-- The labels of a net drawn under a name, segment by segment. -/
def Context.NetLabels (c : Context) (net : String) (n : Eagle.Net) (labels : List NetLabel) : Prop :=
  ∃ bySegment, List.Forall₂ (c.SegmentLabels net n.segments.length) n.segments bySegment ∧
    labels = bySegment.flatten

theorem grown_drawNet {net : String} {isBus : Bool} {n : Eagle.Net}
    (ran : Ends (drawNet c net isBus n) d () d') :
    ∃ labels, c.NetLabels net n labels ∧ d.Grown d' (c.netLines n) labels := by
  obtain ⟨bySegment, made, grown⟩ := ran.forM_grown fun segment d d' => grown_drawSegment
  exact ⟨_, ⟨bySegment, made, rfl⟩, grown⟩

end Nets

/-! ## Plain items -/

/-- The sides of a frame. -/
def Eagle.Frame.sides (f : Eagle.Frame) : List Line :=
  (f.corners.zip (f.corners.drop 1 ++ f.corners.take 1)).map fun (a, b) => { kind := .notes, start := a, stop := b }

/-- The lines that a plain item becomes. -/
def Context.itemLines (c : Context) : Eagle.Item → List Line
  | .wire w => [c.line w]
  | .frame f => f.sides
  | _ => []

section Plain
open Drafting
variable {c : Context} {d d' : Desk}

theorem grown_addLines (ends : List (Point × Point)) (kind : Eagle.LineKind) (d : Desk) :
    d.Grown { d with sheet := ends.foldl (fun s (a, b) => s.addLine kind a b) d.sheet }
      (ends.map fun (a, b) => { kind, start := a, stop := b }) [] := by
  induction ends generalizing d with
  | nil => exact .refl d
  | cons side ends ih =>
    have first : d.Grown { d with sheet := d.sheet.addLine kind side.1 side.2 }
        [{ kind, start := side.1, stop := side.2 }] [] :=
      ⟨rfl, rfl, by simp [Sheet.addLine, Line.ends], by simp [Sheet.addLine], rfl⟩
    exact first.trans (ih _)

theorem grown_drawPlain {item : Eagle.Item} (ran : Ends (drawPlain c item) d () d') :
    ∃ labels, labels = [] ∧ d.Grown d' (c.itemLines item) labels := by
  refine ⟨[], rfl, ?_⟩
  cases item with
  | text t =>
    obtain ⟨note, _, read, added⟩ := ends_bind.1 ran
    obtain ⟨_, rfl⟩ := ends_lift.1 read
    rw [← ends_changeSheet.1 added]
    exact ⟨rfl, by simp [Sheet.addNote, Context.itemLines], by simp [Sheet.addNote, Context.itemLines], by
      simp [Sheet.addNote], rfl⟩
  | wire w =>
    simp only [drawPlain, ends_changeSheet] at ran
    rw [← ran]
    exact ⟨rfl, rfl, by simp [Sheet.addLine, Line.ends, Context.itemLines, Context.line], by
      simp [Sheet.addLine], rfl⟩
  | frame f =>
    simp only [drawPlain, ends_changeSheet] at ran
    rw [← ran]
    exact grown_addLines _ .notes d
  | _ =>
    obtain ⟨_, rfl⟩ := ends_pure.1 ran
    exact .refl d

end Plain

end Redraft
