import Redraft.Proofs.Conversion
import Redraft.Proofs.SheetDrawing

/-!
# Names of nets

The labels of a segment bear the name of its net, and reach over the document if
the net is drawn more than once. A segment with a wire has a label if its net
has another one, here or on another sheet.
-/

namespace Redraft

/-! ## Counting nets -/

/-- How many nets of a name the sheets have. -/
def Eagle.Schematic.occurrences (s : Eagle.Schematic) (net : String) : Nat :=
  (s.sheets.flatMap (·.nets)).countP (·.name == net)

private theorem foldl_put_count (nets : List Eagle.Net) (counts : Entries String Nat) (net : String) :
    ((nets.foldl (fun (counts : Entries String Nat) n => counts.put n.name ((counts.get? n.name).getD 0 + 1))
      counts).get? net).getD 0 = (counts.get? net).getD 0 + nets.countP (·.name == net) := by
  induction nets generalizing counts with
  | nil => rfl
  | cons n nets ih =>
    rw [List.foldl_cons, ih, List.countP_cons]
    by_cases same : n.name = net
    · subst same
      rw [Entries.get?_put_self]
      simp
      omega
    · rw [Entries.get?_put_of_ne (Ne.symm same)]
      simp [same]

theorem Eagle.Schematic.netCounts_occurrences (s : Eagle.Schematic) (net : String) :
    (s.netCounts.get? net).getD 0 = s.occurrences net := by
  rw [netCounts, foldl_put_count]
  simp [occurrences, Entries.get?]

/-- A net spans sheets if its name occurs more than once. -/
theorem Context.spansSheets_iff {c : Context} {document : Eagle.Schematic} (counts : c.netCounts = document.netCounts)
    (net : String) : c.spansSheets net ↔ 2 ≤ document.occurrences net := by
  rw [spansSheets, counts, Eagle.Schematic.netCounts_occurrences, decide_eq_true_iff]
  rfl

/-! ## Pieces -/

/-- A segment of a net on an EAGLE sheet, with the labels drawn for it. -/
structure NetPiece where
  net : Eagle.Net
  segment : Eagle.Segment
  labels : List NetLabel

namespace NetPiece

/-- The piece has a wire. -/
def wired (x : NetPiece) : Bool := !x.segment.wires.isEmpty

/-- The labels stand where the explicit labels do, or at the start of the first wire. -/
def Own (x : NetPiece) : Prop :=
  x.labels.map (·.position) = x.segment.labels.map (·.position.flip) ∨
    x.segment.labels = [] ∧ ∃ w rest, x.segment.wires = w :: rest ∧ x.labels.map (·.position) = [w.start.flip]

end NetPiece

/-- The segments of some nets, each with its net. -/
def netSegments (nets : List Eagle.Net) : List (Eagle.Net × Eagle.Segment) :=
  nets.flatMap fun n => n.segments.map fun s => (n, s)

namespace Context
variable {c : Context} {net : String} {groups : Nat} {segment : Eagle.Segment} {labels : List NetLabel}

/-- A label is made only for a segment with a wire and without an explicit label. -/
theorem neededLabels_cases (text : String) (scope : Option Scope) (segment : Eagle.Segment) :
    neededLabels text scope segment = [] ∨ segment.labels = [] ∧ ∃ w rest reach, segment.wires = w :: rest ∧
      scope = some reach ∧ neededLabels text scope segment = [madeLabel text w.start.flip reach] := by
  obtain ⟨wires, junctions, labels⟩ := segment
  cases labels with
  | cons l labels => exact .inl rfl
  | nil =>
    cases wires with
    | nil => exact .inl rfl
    | cons w wires =>
      cases scope with
      | none => exact .inl rfl
      | some reach => exact .inr ⟨rfl, w, wires, reach, rfl, rfl, rfl⟩

theorem neededScope_eq {spans : Bool} {groups : Nat} {reach : Scope} (needed : neededScope spans groups = some reach) :
    reach = if spans then .document else .sheet := by
  cases spans with
  | true => exact (Option.some.inj needed).symm
  | false =>
    simp only [neededScope, Bool.false_eq_true, if_false, Option.ite_none_right_eq_some] at needed ⊢
    exact (Option.some.inj needed.2).symm

theorem SegmentLabels.own {n : Eagle.Net} (made : c.SegmentLabels net groups segment labels) :
    NetPiece.Own ⟨n, segment, labels⟩ := by
  obtain ⟨explicit, drawn, rfl⟩ := made
  have places : explicit.map (·.position) = segment.labels.map (·.position.flip) := by
    have same : List.Forall₂ (· = ·) (explicit.map (·.position)) (segment.labels.map (·.position.flip)) := by
      rw [List.forall₂_map_left_iff, List.forall₂_map_right_iff]
      refine List.Forall₂.flip (drawn.imp ?_)
      rintro l label ⟨spin, rfl⟩
      rfl
    rwa [List.forall₂_eq_eq_eq] at same
  rcases neededLabels_cases (Name.label net) (neededScope (c.spansSheets net) groups) segment with
    none | ⟨unlabelled, w, rest, reach, wires, _, one⟩
  · rw [none, List.append_nil]
    exact .inl places
  · rw [unlabelled] at places
    refine .inr ⟨unlabelled, w, rest, wires, ?_⟩
    rw [one, List.map_append, places]
    rfl

/-- All labels of a segment bear the name of its net, and reach over the document if the net spans sheets. -/
theorem SegmentLabels.named (made : c.SegmentLabels net groups segment labels) {l : NetLabel} (member : l ∈ labels) :
    l.text = Name.label net ∧ l.scope = c.netScope net := by
  obtain ⟨explicit, drawn, rfl⟩ := made
  rcases List.mem_append.1 member with isExplicit | isMade
  · obtain ⟨n, here⟩ := List.mem_iff_getElem?.1 isExplicit
    obtain ⟨_, _, spin, rfl⟩ := forall₂_getElem? drawn here
    exact ⟨rfl, rfl⟩
  · rcases neededLabels_cases (Name.label net) (neededScope (c.spansSheets net) groups) segment with
      none | ⟨_, w, rest, reach, _, needed, one⟩
    · rw [none] at isMade
      cases isMade
    · rw [one, List.mem_singleton] at isMade
      rw [isMade]
      exact ⟨rfl, neededScope_eq needed⟩

/-- A segment with a wire has a label if its net spans sheets or has another segment on its sheet. -/
theorem SegmentLabels.ne_nil (made : c.SegmentLabels net groups segment labels) (wires : segment.wires ≠ [])
    (split : c.spansSheets net ∨ 2 ≤ groups) : labels ≠ [] := by
  obtain ⟨explicit, drawn, rfl⟩ := made
  by_cases unlabelled : segment.labels = []
  · obtain ⟨w, rest, isWire⟩ := List.exists_cons_of_ne_nil wires
    have needed : ∃ reach, neededScope (c.spansSheets net) groups = some reach := by
      unfold neededScope
      rcases split with spans | several
      · simp [spans]
      · split
        · exact ⟨_, rfl⟩
        · simp [show 1 < groups from several]
    obtain ⟨reach, needed⟩ := needed
    simp [neededLabels, unlabelled, isWire, needed]
  · intro none
    have noExplicit : explicit = [] := (List.append_eq_nil_iff.1 none).1
    rw [noExplicit, List.forall₂_nil_right_iff] at drawn
    exact unlabelled drawn

theorem NetLabels.named {n : Eagle.Net} (made : c.NetLabels net n labels) {l : NetLabel} (member : l ∈ labels) :
    l.text = Name.label net := by
  obtain ⟨bySegment, drawn, rfl⟩ := made
  obtain ⟨some, isSome, here⟩ := List.mem_flatten.1 member
  obtain ⟨i, found⟩ := List.mem_iff_getElem?.1 isSome
  obtain ⟨_, _, made⟩ := forall₂_getElem? drawn found
  exact (made.named here).1

end Context

/-! ## Small nets -/

/-- A wire of the layer of nets. -/
def netWire (start stop : Point) : Eagle.Wire := { start, stop, width := 0, layer := 91, curve := none }

/-- A net with a wire and a label. -/
def labelledNet (name : String) (place : Point) : Eagle.Net :=
  ⟨name, [⟨[netWire place (place + ⟨0, mils 100⟩)], [], [⟨place, mils 70, 95, none, false⟩]⟩]⟩

end Redraft
