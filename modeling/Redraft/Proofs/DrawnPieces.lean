import Redraft.Proofs.LabelCorrection
import Redraft.Proofs.NetNames

/-!
# Pieces on a sheet

Each piece of a bus or net brings its wires, its labels and one group. The group
knows the explicit labels by their numbers, so they are corrected with the wires
of their own piece. A label made for a piece is known to no group and stays at
the start of its wire.
-/

namespace Redraft
open Drafting

namespace NetPiece

/-- The wires of the piece on the sheet. -/
def wires (x : NetPiece) : List Segment := x.segment.wires.map Eagle.Wire.onSheet

/-- The point touches a wire of the piece. -/
def Touches (x : NetPiece) (p : Point) : Prop := ∃ w ∈ x.wires, w.touches p = true

/-- The group of the piece, if its first label gets the given number. -/
structure IsGroup (x : NetPiece) (first : Nat) (g : NetGroup) : Prop where
  wires : g.wires = x.wires
  labels : g.labels = List.range' first x.segment.labels.length

/-- A sheet before and after a piece is drawn on it. -/
structure Drawn (x : NetPiece) (before after : Sheet) : Prop where
  lines : after.lines.map Line.segment = before.lines.map Line.segment ++ x.wires
  labels : after.labels = before.labels ++ x.labels
  explicit : x.segment.labels = [] ∨ x.labels.length = x.segment.labels.length
  group : ∃ g, x.IsGroup before.labels.length g ∧ after.tracker.groups = before.tracker.groups ++ [g]
  first : after.tracker.first = before.tracker.first

theorem Drawn.explicit_le {x : NetPiece} {before after : Sheet} (drawn : x.Drawn before after) :
    x.segment.labels.length ≤ x.labels.length := by
  rcases drawn.explicit with none | same
  · simp [none]
  · exact Nat.le_of_eq same.symm

end NetPiece

/-- Pieces are drawn one after the other. -/
inductive PiecesDrawn : Sheet → List NetPiece → Sheet → Prop
  | nil {s : Sheet} : PiecesDrawn s [] s
  | cons {s middle t : Sheet} {x : NetPiece} {rest : List NetPiece} (first : x.Drawn s middle)
      (later : PiecesDrawn middle rest t) : PiecesDrawn s (x :: rest) t

/-! ## The group of a piece -/

/-- A tracker that has got one more group, the one that is being drawn. -/
structure Tracker.Draws (before after : Tracker) (g : NetGroup) : Prop where
  groups : after.groups = before.groups ++ [g]
  first : after.first = before.first

namespace Tracker.Draws
variable {before after : Tracker} {g : NetGroup}

theorem addGroup (t : Tracker) (net : String) (isBus : Bool) : t.Draws (t.addGroup net isBus) { net, isBus } :=
  ⟨rfl, rfl⟩

theorem modify (draws : before.Draws after g) (change : NetGroup → NetGroup) :
    after.groups.modify before.size change = before.groups ++ [change g] := by
  simp [draws.groups, size, List.modify_eq_set_getElem?]

theorem addWire (draws : before.Draws after g) (w : Segment) :
    before.Draws (after.addWire before.size w) { g with wires := g.wires ++ [w] } := by
  have found : after.group? before.size = some g := by simp [group?, draws.groups, size]
  unfold Tracker.addWire
  rw [found]
  exact ⟨draws.modify _, draws.first⟩

theorem addLabel (draws : before.Draws after g) (n : Nat) :
    before.Draws (after.addLabel before.size n) { g with labels := g.labels ++ [n] } :=
  ⟨draws.modify _, draws.first⟩

theorem addWires {s : Sheet} (c : Context) (draws : before.Draws s.tracker g) (wires : List Eagle.Wire) :
    before.Draws (wires.foldl (Sheet.addWire c before.size) s).tracker
      { g with wires := g.wires ++ wires.map Eagle.Wire.onSheet } := by
  induction wires generalizing s g with
  | nil => simpa using draws
  | cons w wires ih =>
    have first : before.Draws (s.addWire c before.size w).tracker { g with wires := g.wires ++ [w.onSheet] } :=
      draws.addWire w.onSheet
    simpa using ih first

/-- The explicit labels of a group are known to it by the numbers that they get. -/
theorem drawLabels {text : String} {scope : Scope} {labels : List Eagle.Label} {d d' : Desk}
    (draws : before.Draws d.sheet.tracker g)
    (ran : Ends (labels.forM (drawLabel text scope before.size)) d () d') :
    before.Draws d'.sheet.tracker
      { g with labels := g.labels ++ List.range' d.sheet.labels.length labels.length } := by
  induction labels generalizing d g with
  | nil =>
    rw [← ends_forM_nil.1 ran]
    simpa using draws
  | cons l labels ih =>
    obtain ⟨middle, first, rest⟩ := ends_forM_cons.1 ran
    obtain ⟨spin, _, turned, added⟩ := ends_bind.1 first
    obtain ⟨_, rfl⟩ := ends_lift.1 turned
    rw [← ends_changeSheet.1 added] at rest
    have later := ih (draws.addLabel d.sheet.labels.length) rest
    simpa [List.range'_succ, Sheet.addGroupLabel, Sheet.addLabel] using later

end Tracker.Draws

section Pieces
variable {c : Context} {net : String} {isBus : Bool} {d d' : Desk}

theorem draws_drawSegment {groups : Nat} {segment : Eagle.Segment}
    (ran : Ends (drawSegment c net isBus groups segment) d () d') : d.sheet.tracker.Draws d'.sheet.tracker
      ⟨net, isBus, segment.wires.map Eagle.Wire.onSheet,
        List.range' d.sheet.labels.length segment.labels.length⟩ := by
  obtain ⟨_, _, looked, ran⟩ := ends_bind.1 ran
  obtain ⟨rfl, rfl⟩ := ends_sheet.1 looked
  obtain ⟨_, tracked, isTracked, ran⟩ := ends_bind.1 ran
  obtain ⟨_, wired, isWired, ran⟩ := ends_bind.1 ran
  obtain ⟨_, joined, isJoined, ran⟩ := ends_bind.1 ran
  obtain ⟨_, labelled, isLabelled, isMade⟩ := ends_bind.1 ran
  have group : d.sheet.tracker.Draws tracked.sheet.tracker { net, isBus } := by
    rw [← ends_changeSheet.1 isTracked]
    exact .addGroup ..
  have wires : d.sheet.tracker.Draws wired.sheet.tracker
      ⟨net, isBus, segment.wires.map Eagle.Wire.onSheet, []⟩ := by
    rw [← ends_changeSheet.1 isWired]
    exact group.addWires c segment.wires
  have junctions : d.sheet.tracker.Draws joined.sheet.tracker
      ⟨net, isBus, segment.wires.map Eagle.Wire.onSheet, []⟩ := by
    rw [← ends_changeSheet.1 isJoined, Sheet.addJunctions_tracker]
    exact wires
  have wireLabels := (grown_addWires c d.sheet.tracker.size segment.wires tracked).labels
  rw [ends_changeSheet.1 isWired] at wireLabels
  have junctionLabels := (grown_addJunctions segment.junctions wired).labels
  rw [ends_changeSheet.1 isJoined] at junctionLabels
  have unlabelled : joined.sheet.labels = d.sheet.labels := by
    rw [junctionLabels, wireLabels, ← ends_changeSheet.1 isTracked]
    simp
  have explicit := junctions.drawLabels isLabelled
  rw [unlabelled] at explicit
  rw [← ends_changeSheet.1 isMade, Sheet.addMadeLabel_tracker]
  exact explicit

/-- A segment of a net is drawn as a piece. -/
theorem ends_drawSegment_piece {n : Eagle.Net} {segment : Eagle.Segment}
    (ran : Ends (drawSegment c net isBus n.segments.length segment) d () d') :
    ∃ labels, c.SegmentLabels net n.segments.length segment labels ∧
      NetPiece.Drawn ⟨n, segment, labels⟩ d.sheet d'.sheet := by
  obtain ⟨labels, made, grown⟩ := grown_drawSegment ran
  have draws := draws_drawSegment ran
  refine ⟨labels, made, ?_, grown.labels, ?_, ⟨_, ⟨rfl, rfl⟩, draws.groups⟩, draws.first⟩
  · simp [grown.lines, NetPiece.wires, Function.comp_def, Context.line, Line.segment, Eagle.Wire.onSheet]
  · obtain ⟨explicit, drawn, rfl⟩ := made
    rcases Context.neededLabels_cases (Name.label net) (neededScope (c.spansSheets net) n.segments.length) segment with
      none | ⟨unlabelled, _⟩
    · exact .inr (by simp [none, drawn.length_eq])
    · exact .inl unlabelled

/-! ## Runs of pieces -/

namespace PiecesDrawn
variable {s middle t : Sheet} {pieces more : List NetPiece}

theorem append (first : PiecesDrawn s pieces middle) (later : PiecesDrawn middle more t) :
    PiecesDrawn s (pieces ++ more) t := by
  induction first with
  | nil => exact later
  | cons first _ ih => exact .cons first (ih later)

theorem lines (drawn : PiecesDrawn s pieces t) :
    t.lines.map Line.segment = s.lines.map Line.segment ++ pieces.flatMap NetPiece.wires := by
  induction drawn with
  | nil => simp
  | cons first _ ih => simp [ih, first.lines]

theorem labels (drawn : PiecesDrawn s pieces t) : t.labels = s.labels ++ pieces.flatMap (·.labels) := by
  induction drawn with
  | nil => simp
  | cons first _ ih => simp [ih, first.labels]

theorem first (drawn : PiecesDrawn s pieces t) : t.tracker.first = s.tracker.first := by
  induction drawn with
  | nil => rfl
  | cons first _ ih => exact ih.trans first.first

/-- Each piece brings a group with its wires, and the groups know labels of their own alone, each once. -/
theorem groups (drawn : PiecesDrawn s pieces t) : ∃ added, t.tracker.groups = s.tracker.groups ++ added ∧
    added.map (·.wires) = pieces.map NetPiece.wires ∧ (added.flatMap (·.labels)).Nodup ∧
    ∀ n ∈ added.flatMap (·.labels), s.labels.length ≤ n ∧ n < t.labels.length := by
  induction drawn with
  | nil => exact ⟨[], by simp, rfl, .nil, nofun⟩
  | @cons s middle t x rest first later ih =>
    obtain ⟨added, groups, wires, once, bounds⟩ := ih
    obtain ⟨g, isGroup, here⟩ := first.group
    have longer : middle.labels.length ≤ t.labels.length := by simp [later.labels]
    have inside : ∀ n ∈ g.labels, s.labels.length ≤ n ∧ n < middle.labels.length := by
      intro n member
      rw [isGroup.labels, List.mem_range'_1] at member
      have := first.explicit_le
      rw [first.labels, List.length_append]
      omega
    have start : s.labels.length ≤ middle.labels.length := by simp [first.labels]
    refine ⟨g :: added, by simp [groups, here], by simp [wires, isGroup.wires], ?_, ?_⟩
    · rw [List.flatMap_cons, List.nodup_append]
      refine ⟨isGroup.labels ▸ List.nodup_range' .., once, fun n known m later same => ?_⟩
      have := inside n known
      have := bounds m later
      omega
    · rw [List.flatMap_cons]
      refine List.forall_mem_append.2 ⟨fun n known => ?_, fun n known => ?_⟩
      · have := inside n known
        omega
      · have := bounds n known
        omega

/-- On a sheet without groups before, each label is tracked once. -/
theorem tracksOnce (drawn : PiecesDrawn s pieces t) (blank : s.tracker = {}) :
    t.TracksOnce ∧ t.tracker.tracked.map (·.wires) = pieces.map NetPiece.wires := by
  obtain ⟨added, groups, wires, once, bounds⟩ := drawn.groups
  have tracked : t.tracker.tracked = added := by
    rw [Tracker.tracked, drawn.first, groups, blank]
    rfl
  rw [← tracked] at wires once bounds
  exact ⟨⟨once, fun n known => (bounds n known).2⟩, wires⟩

end PiecesDrawn

/-- The entries are drawn as pieces with a property. -/
def DrawnAs (P : NetPiece → Prop) (entries : List (Eagle.Net × Eagle.Segment)) (before after : Sheet) : Prop :=
  ∃ pieces, pieces.map (fun x => (x.net, x.segment)) = entries ∧ (∀ x ∈ pieces, P x) ∧
    PiecesDrawn before pieces after

/-- What each step over a list draws as pieces, the run over the whole list draws in order. -/
theorem Drafting.Ends.forM_drawnAs {α : Type} {f : α → Drafting Unit} {P : NetPiece → Prop}
    {entries : α → List (Eagle.Net × Eagle.Segment)} {l : List α} (ran : Ends (l.forM f) d () d')
    (step : ∀ a d d', Ends (f a) d () d' → DrawnAs P (entries a) d.sheet d'.sheet) :
    DrawnAs P (l.flatMap entries) d.sheet d'.sheet := by
  induction l generalizing d with
  | nil => exact ⟨[], rfl, nofun, ends_forM_nil.1 ran ▸ .nil⟩
  | cons a l ih =>
    obtain ⟨middle, first, rest⟩ := ends_forM_cons.1 ran
    obtain ⟨pieces, here, each, drawn⟩ := step a d middle first
    obtain ⟨more, there, eachLater, later⟩ := ih rest
    exact ⟨pieces ++ more, by simp [here, there], List.forall_mem_append.2 ⟨each, eachLater⟩, drawn.append later⟩

/-- The segments of some nets, each drawn under a name, are pieces with the labels of a segment. -/
theorem drawnAs_nets (name : Eagle.Net → String) {nets : List Eagle.Net}
    (ran : Ends (nets.forM fun n => drawNet c (name n) isBus n) d () d') :
    DrawnAs (fun x => c.SegmentLabels (name x.net) x.net.segments.length x.segment x.labels) (netSegments nets)
      d.sheet d'.sheet := by
  refine ran.forM_drawnAs fun n d d' ran => ?_
  rw [List.map_eq_flatMap]
  refine ran.forM_drawnAs fun segment d d' ran => ?_
  obtain ⟨labels, made, drawn⟩ := ends_drawSegment_piece ran
  exact ⟨[⟨n, segment, labels⟩], rfl, by simpa using made, .cons drawn .nil⟩

end Pieces

/-! ## Corrected labels -/

/-- Where a label of the piece comes to when the labels are corrected. One made for the piece stays. An explicit one
    goes to the place found for it with the wires of the piece: it stays if it touches one of them off the crossings,
    and comes to such a place if it moves. -/
structure NetPiece.Settles (x : NetPiece) (t : Tracker) (l l' : NetLabel) : Prop where
  unplaced : l'.unplaced = l.unplaced
  made : x.segment.labels = [] → l' = l
  found : x.segment.labels ≠ [] → ∃ g place, g.wires = x.wires ∧ t.newPlace g l.position = .ok place ∧
    l'.position = place.getD l.position
  stays : x.Touches l.position → t.isCrossing l.position = false → l' = l
  moves : l'.position ≠ l.position → x.Touches l'.position ∧ t.isCrossing l'.position = false

theorem NetPiece.holds_iff {x : NetPiece} {g : NetGroup} (wires : g.wires = x.wires) (p : Point) :
    g.Holds p ↔ x.Touches p := by
  rw [NetGroup.Holds, wires, Touches]

section Corrected
variable {before after : Desk} {moved : Nat}

theorem LabelsCorrected.length (corrected : LabelsCorrected before after moved) :
    after.sheet.labels.length = before.sheet.labels.length := by
  simpa using congrArg List.length corrected.unplaced

/-- An explicit label settles if the group of its piece knows it, and a made one if no group does. -/
theorem label_settles (tracks : before.sheet.TracksOnce) (ran : Ends adjustLabels before moved after) {x : NetPiece}
    {n : Nat} {l l' : NetLabel} (here : before.sheet.labels[n]? = some l) (there : after.sheet.labels[n]? = some l')
    (known : x.segment.labels ≠ [] ∧ (∃ g ∈ before.sheet.tracker.tracked, g.wires = x.wires ∧ n ∈ g.labels) ∨
      x.segment.labels = [] ∧ n ∉ before.sheet.tracker.tracked.flatMap (·.labels)) :
    x.Settles before.sheet.tracker l l' := by
  have corrected := ends_adjustLabels_corrected tracks ran
  obtain ⟨settled, _⟩ := ends_adjustLabels_settled tracks ran
  have unplaced : l'.unplaced = l.unplaced := by
    have same := congrArg (·[n]?) corrected.unplaced
    simpa [here, there] using same
  rcases known with ⟨explicit, g, isTracked, wires, isLabel⟩ | ⟨none, unknown⟩
  · obtain ⟨place, found, new⟩ := settled.places (g, n) (Tracker.mem_owned.2 ⟨isTracked, isLabel⟩) l.position
      (by simp [Sheet.places, here])
    have position : l'.position = place.getD l.position := by
      simpa [Sheet.places, there] using new
    refine ⟨unplaced, fun none => absurd none explicit, fun _ => ⟨g, place, wires, found, position⟩,
      fun touches free => ?_, fun moves => ?_⟩
    · have stays := corrected.stays g isTracked n isLabel l here ((NetPiece.holds_iff wires _).2 touches) free
      exact Option.some.inj (there.symm.trans stays)
    · obtain ⟨touches, free⟩ := corrected.moves g isTracked n isLabel l l' here there moves
      exact ⟨(NetPiece.holds_iff wires _).1 touches, free⟩
  · have same : l' = l := by
      have stays := corrected.untracked n unknown
      rw [here, there] at stays
      exact Option.some.inj stays
    exact ⟨unplaced, fun _ => same, fun explicit => absurd none explicit, fun _ _ => same,
      fun moves => absurd (congrArg NetLabel.position same) moves⟩

/-- The labels of a piece settle, whatever is drawn before and after it. -/
theorem piece_settles (tracks : before.sheet.TracksOnce) (ran : Ends adjustLabels before moved after) {x : NetPiece}
    {s middle : Sheet} {more : List NetPiece} (drawn : x.Drawn s middle) (later : PiecesDrawn middle more before.sheet)
    (blank : s.tracker.first = 0) (known : ∀ n ∈ s.tracker.groups.flatMap (·.labels), n < s.labels.length) :
    List.Forall₂ (x.Settles before.sheet.tracker) x.labels
      ((after.sheet.labels.drop s.labels.length).take x.labels.length) := by
  obtain ⟨g, isGroup, here⟩ := drawn.group
  obtain ⟨added, groups, _, _, bounds⟩ := later.groups
  have tracked : before.sheet.tracker.tracked = s.tracker.groups ++ g :: added := by
    rw [Tracker.tracked, later.first, drawn.first, blank, groups, here]
    simp
  have labels : before.sheet.labels = s.labels ++ (x.labels ++ more.flatMap (·.labels)) := by
    rw [later.labels, drawn.labels, List.append_assoc]
  have middleLength : middle.labels.length = s.labels.length + x.labels.length := by
    rw [drawn.labels, List.length_append]
  have length := (ends_adjustLabels_corrected tracks ran).length
  rw [List.forall₂_iff_get]
  refine ⟨by simp [length, labels], fun i inside _ => ?_⟩
  refine label_settles tracks ran (n := s.labels.length + i) ?_ ?_ ?_
  · rw [labels, List.getElem?_append_right (Nat.le_add_right ..), Nat.add_sub_cancel_left,
      List.getElem?_append_left inside]
    exact List.getElem?_eq_getElem inside
  · simp only [List.get_eq_getElem, List.getElem_take, List.getElem_drop]
    exact List.getElem?_eq_getElem _
  · rw [tracked]
    rcases Decidable.em (x.segment.labels = []) with none | explicit
    · -- groups before know earlier numbers, this one knows none, and those that follow know later ones
      refine .inr ⟨none, ?_⟩
      simp only [List.flatMap_append, List.flatMap_cons, List.mem_append, not_or]
      refine ⟨fun earlier => ?_, fun own => ?_, fun late => ?_⟩
      · have := known _ earlier
        omega
      · simp [isGroup.labels, none] at own
      · have := (bounds _ late).1
        omega
    · refine .inl ⟨explicit, g, by simp, isGroup.wires, ?_⟩
      have := drawn.explicit.resolve_left explicit
      rw [isGroup.labels, List.mem_range'_1]
      omega

/-- The labels of pieces drawn one after the other settle piece by piece. -/
theorem pieces_settle (tracks : before.sheet.TracksOnce) (ran : Ends adjustLabels before moved after) {s : Sheet}
    {pieces : List NetPiece} (drawn : PiecesDrawn s pieces before.sheet) (blank : s.tracker.first = 0)
    (known : ∀ n ∈ s.tracker.groups.flatMap (·.labels), n < s.labels.length) :
    ∃ settled, after.sheet.labels.drop s.labels.length = settled.flatten ∧
      List.Forall₂ (fun x labels => List.Forall₂ (x.Settles before.sheet.tracker) x.labels labels) pieces settled := by
  generalize isEnd : before.sheet = t at drawn
  induction drawn with
  | nil =>
    subst isEnd
    exact ⟨[], by simp [(ends_adjustLabels_corrected tracks ran).length], .nil⟩
  | @cons s middle t x rest first later ih =>
    subst isEnd
    have middleLength : middle.labels.length = s.labels.length + x.labels.length := by
      rw [first.labels, List.length_append]
    obtain ⟨g, isGroup, here⟩ := first.group
    have knownLater : ∀ n ∈ middle.tracker.groups.flatMap (·.labels), n < middle.labels.length := by
      rw [here, List.flatMap_append, middleLength]
      refine List.forall_mem_append.2 ⟨fun n earlier => Nat.lt_add_right _ (known n earlier), fun n own => ?_⟩
      have := first.explicit_le
      rw [List.flatMap_singleton, isGroup.labels, List.mem_range'_1] at own
      omega
    obtain ⟨settled, flat, each⟩ := ih (first.first.trans blank) knownLater rfl
    refine ⟨_, ?_, .cons (piece_settles tracks ran first later blank known) each⟩
    rw [List.flatten_cons, ← flat, middleLength, ← List.drop_drop, List.take_append_drop]

end Corrected

end Redraft
