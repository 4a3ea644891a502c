import Redraft.Proofs.ModerateDrawings

/-!
# Failures of an import

A conversion comes to a project or fails as an import may, unless a value in an
attribute has no result: a coordinate that is not finite escapes as a failure of
arithmetic.
-/

namespace Redraft

/-! ## Steps that complete -/

namespace Drafting
variable {α β : Type} {I J K : Desk → Prop}

/-- From each desk of one kind the step ends at a desk of another kind. -/
def Completes (I : Desk → Prop) (x : Drafting α) (J : Desk → Prop) : Prop :=
  ∀ d, I d → ∃ a d', Ends x d a d' ∧ J d'

namespace Completes

theorem value (a : α) : Completes I (pure a) I := fun d holds => ⟨a, d, ends_pure.2 ⟨rfl, rfl⟩, holds⟩

theorem bind {x : Drafting α} {f : α → Drafting β} (first : Completes I x J) (rest : ∀ a, Completes J (f a) K) :
    Completes I (x >>= f) K := by
  intro d holds
  obtain ⟨a, middle, ran, holds⟩ := first d holds
  obtain ⟨b, d', ran', holds⟩ := rest a middle holds
  exact ⟨b, d', ends_bind.2 ⟨a, middle, ran, ran'⟩, holds⟩

theorem lift {x : Except Failure α} (returns : Returns x) : Completes I (Drafting.lift x) I := by
  intro d holds
  obtain ⟨a, returned⟩ := returns
  exact ⟨a, d, ends_lift.2 ⟨returned, rfl⟩, holds⟩

theorem change {f : Desk → Desk} (keeps : ∀ d, I d → I (f d)) : Completes I (modify f) I :=
  fun d holds => ⟨(), f d, ends_modify.2 rfl, keeps d holds⟩

theorem changeSheet {f : Sheet → Sheet} (keeps : ∀ d, I d → I { d with sheet := f d.sheet }) :
    Completes I (Drafting.changeSheet f) I := change keeps

theorem report (messages : Report) (keeps : ∀ d, I d → I { d with report := d.report ++ messages }) :
    Completes I (Drafting.report messages) I := change keeps

theorem sheet : Completes I Drafting.sheet I := fun d holds => ⟨d.sheet, d, ends_sheet.2 ⟨rfl, rfl⟩, holds⟩

theorem drop {x : Drafting α} (completes : Completes I x J) : Completes I (discard x) J := by
  intro d holds
  obtain ⟨a, d', ran, holds⟩ := completes d holds
  exact ⟨(), d', ends_discard.2 ⟨a, ran⟩, holds⟩

theorem forM {f : α → Drafting Unit} {l : List α} (each : ∀ a ∈ l, Completes I (f a) I) : Completes I (l.forM f) I := by
  induction l with
  | nil => exact value ()
  | cons a l ih => exact (each a (.head _)).bind fun _ => ih fun a member => each a (.tail _ member)

end Completes

end Drafting

/-! ## Sheets -/

/-- The tracked wires are of moderate size. -/
def Tracker.Moderate (t : Tracker) : Prop := ∀ g ∈ t.tracked, ∀ w ∈ g.wires, w.Moderate

/-- The wires that are tracked on the sheet are of moderate size. -/
def Desk.Moderate (d : Desk) : Prop := d.sheet.tracker.Moderate

theorem Desk.Moderate.of_tracker {d : Desk} (moderate : d.Moderate) {s : Sheet} (same : s.tracker = d.sheet.tracker) :
    ({ d with sheet := s } : Desk).Moderate := by
  unfold Desk.Moderate
  rw [same]
  exact moderate

namespace Tracker
variable {t : Tracker}

theorem Moderate.addGroup (moderate : t.Moderate) (net : String) (isBus : Bool) : (t.addGroup net isBus).Moderate := by
  intro g isTracked w isWire
  unfold tracked Tracker.addGroup at isTracked
  rw [List.drop_append] at isTracked
  rcases List.mem_append.1 isTracked with old | new
  · exact moderate g old w isWire
  · obtain rfl := List.mem_singleton.1 (List.mem_of_mem_drop new)
    cases isWire

/-- What holds of the wires of all tracked groups, and of those a group gets, holds when that group is changed. -/
theorem Moderate.modify {group : Nat} {f : NetGroup → NetGroup} {groups : List NetGroup} {first : Nat}
    (moderate : ∀ g ∈ groups.drop first, ∀ w ∈ g.wires, w.Moderate)
    (keeps : ∀ g, (∀ w ∈ g.wires, w.Moderate) → ∀ w ∈ (f g).wires, w.Moderate) :
    ∀ g ∈ (groups.modify group f).drop first, ∀ w ∈ g.wires, w.Moderate := by
  intro g isTracked
  obtain ⟨n, found⟩ := List.mem_iff_getElem?.1 isTracked
  rw [List.getElem?_drop, List.getElem?_modify] at found
  obtain ⟨g', isOld, rfl⟩ := Option.map_eq_some_iff.1 found
  have old := moderate g' (List.mem_iff_getElem?.2 ⟨n, by rwa [List.getElem?_drop]⟩)
  split
  · exact keeps g' old
  · exact old

theorem Moderate.addWire (moderate : t.Moderate) {group : Nat} {wire : Segment} (isModerate : wire.Moderate) :
    (t.addWire group wire).Moderate := by
  unfold Tracker.addWire
  split
  · exact moderate
  · refine Moderate.modify moderate fun g old w isWire => ?_
    rcases List.mem_append.1 isWire with earlier | new
    · exact old w earlier
    · obtain rfl := List.mem_singleton.1 new
      exact isModerate

theorem Moderate.addLabel (moderate : t.Moderate) (group label : Nat) : (t.addLabel group label).Moderate :=
  Moderate.modify moderate fun _ old => old

end Tracker

theorem Point.Moderate.flip {p : Point} (moderate : p.Moderate) : p.flip.Moderate := by
  obtain ⟨x, y⟩ := moderate
  exact ⟨x, by rwa [show p.flip.y = -p.y from rfl, Int.natAbs_neg]⟩

section Sheets
open Drafting
variable {c : Context}

theorem attributeAlignment_returns {i : Eagle.Instance} {a : Eagle.Attribute} (moderate : i.Moderate)
    (member : a ∈ i.attributes) : Returns (attributeAlignment i a) :=
  (wholeDegreesOf_returns (moderate.attributes a member)).bind fun _ _ =>
  (wholeDegreesOf_returns moderate.rotation).bind fun _ _ => ⟨_, rfl⟩

theorem placeSymbol_returns {path : SheetPath} {number : Nat} {i : Eagle.Instance} {r : Resolved} {placement : Placement}
    (moderate : i.Moderate) : Returns (placeSymbol path number i r placement) := by
  refine Returns.bind (Returns.bind (foldlM_returns (fun fields a member => ?_) _) fun _ _ => ⟨_, rfl⟩) fun _ _ => ⟨_, rfl⟩
  unfold applyAttribute
  dsimp only
  split
  · exact ⟨_, rfl⟩
  · exact (attributeAlignment_returns moderate member).bind fun _ _ => ⟨_, rfl⟩

theorem placeInstance_completes {i : Eagle.Instance} (moderate : i.Moderate) :
    Completes Desk.Moderate (placeInstance c i) Desk.Moderate := by
  unfold placeInstance
  split
  · exact (Completes.report _ fun _ holds => holds).bind fun _ => .value _
  · have stands : Returns i.placement := (wholeDegreesOf_returns moderate.rotation).bind fun _ _ => ⟨_, rfl⟩
    refine (Completes.lift stands).bind fun ⟨_, _⟩ => (Completes.report _ fun _ holds => holds).bind fun _ => ?_
    refine (Completes.changeSheet fun _ holds => Desk.Moderate.of_tracker holds ?_).bind fun _ => ?_
    · rw [Sheet.embed_rest]
    refine Completes.sheet.bind fun _ => ?_
    refine (Completes.lift (placeSymbol_returns moderate)).bind fun _ => ?_
    exact (Completes.changeSheet fun _ holds => holds).bind fun _ => .value _

theorem drawLabel_completes {text : String} {scope : Scope} {group : Nat} {l : Eagle.Label}
    (moderate : ∀ r ∈ l.rotation, r.Moderate) :
    Completes Desk.Moderate (drawLabel text scope group l) Desk.Moderate :=
  (Completes.lift (Spin.ofRotation_returns moderate)).bind fun _ =>
    Completes.changeSheet fun _ holds => Tracker.Moderate.addLabel holds _ _

theorem addWires_moderate {wires : List Eagle.Wire} (moderate : ∀ w ∈ wires, w.Moderate) (group : Nat) {s : Sheet}
    (holds : s.tracker.Moderate) : (wires.foldl (Sheet.addWire c group) s).tracker.Moderate := by
  induction wires generalizing s with
  | nil => exact holds
  | cons w wires ih =>
    have isModerate := moderate w (.head _)
    exact ih (fun w member => moderate w (.tail _ member)) (holds.addWire ⟨isModerate.start.flip, isModerate.stop.flip⟩)

theorem drawSegment_completes {net : String} {isBus : Bool} {groups : Nat} {segment : Eagle.Segment}
    (moderate : segment.Moderate) : Completes Desk.Moderate (drawSegment c net isBus groups segment) Desk.Moderate := by
  refine Completes.sheet.bind fun _ => ?_
  refine (Completes.changeSheet fun _ holds => Tracker.Moderate.addGroup holds _ _).bind fun _ => ?_
  refine (Completes.changeSheet fun _ holds => addWires_moderate moderate.wires _ holds).bind fun _ => ?_
  refine (Completes.changeSheet fun _ holds =>
    Desk.Moderate.of_tracker holds (Sheet.addJunctions_tracker ..)).bind fun _ => ?_
  refine (Completes.forM fun l member => drawLabel_completes (moderate.labels l member)).bind fun _ => ?_
  exact Completes.changeSheet fun _ holds => Desk.Moderate.of_tracker holds (Sheet.addMadeLabel_tracker ..)

theorem drawNet_completes {net : String} {isBus : Bool} {n : Eagle.Net} (moderate : n.Moderate) :
    Completes Desk.Moderate (drawNet c net isBus n) Desk.Moderate :=
  .forM fun segment member => drawSegment_completes (moderate segment member)

theorem anySheet_completes (f : Sheet → Sheet) : Completes (fun _ => True) (changeSheet f) fun _ => True :=
  .changeSheet fun _ _ => trivial

theorem adjustLabels_completes : Completes Desk.Moderate adjustLabels fun _ => True := by
  intro d moderate
  obtain ⟨moved, d', ran⟩ := ends_adjustLabels_returns moderate
  exact ⟨moved, d', ran, trivial⟩

theorem joinBuses_completes : Completes (fun _ => True) joinBuses fun _ => True :=
  Completes.sheet.bind fun _ => (anySheet_completes _).bind fun _ => .value _

theorem drawPlain_completes {item : Eagle.Item} (moderate : item.Moderate) :
    Completes (fun _ => True) (drawPlain c item) fun _ => True := by
  unfold drawPlain
  cases item with
  | text t =>
    have style : Returns (t.style 0) := textStyle_returns moderate
    exact (Completes.lift (style.bind fun _ _ => ⟨_, rfl⟩)).bind fun _ => anySheet_completes _
  | wire w => exact anySheet_completes _
  | frame f => exact anySheet_completes _
  | _ => exact .value ()

theorem drawAllImplied_completes (symbols : List PlacedSymbol) :
    Completes (fun _ => True) (drawAllImplied symbols) fun _ => True := by
  refine .forM fun symbol _ => Completes.sheet.bind fun s => ?_
  split
  · refine .drop (Completes.sheet.bind fun _ => (anySheet_completes _).bind fun _ => ?_)
    exact (Completes.change fun _ _ => trivial).bind fun _ => .value _
  · exact .value ()

theorem reportMarkers_completes : Completes (fun _ => True) reportMarkers fun _ => True :=
  Completes.sheet.bind fun _ => Completes.report _ fun _ _ => trivial

/-- A moderate sheet is drawn on each sheet with no wires tracked that are not moderate. -/
theorem drawSheet_completes {e : Eagle.Sheet} (moderate : e.Moderate) :
    Completes Desk.Moderate (drawSheet c e) fun _ => True := by
  refine Completes.sheet.bind fun _ => ?_
  refine (Completes.forM fun i member => .drop (placeInstance_completes (moderate.instances i member))).bind fun _ => ?_
  refine (Completes.forM fun n member => drawNet_completes (moderate.buses n member)).bind fun _ => ?_
  refine (Completes.forM fun n member => drawNet_completes (moderate.nets n member)).bind fun _ => ?_
  -- the tracked wires bear on the correction of the labels alone
  refine adjustLabels_completes.drop.bind fun _ => joinBuses_completes.drop.bind fun _ => ?_
  refine (Completes.forM fun item member => drawPlain_completes (moderate.plain item member)).bind fun _ => ?_
  refine Completes.sheet.bind fun _ => (anySheet_completes _).bind fun _ => Completes.sheet.bind fun _ => ?_
  refine (drawAllImplied_completes _).bind fun _ => (anySheet_completes _).bind fun _ => ?_
  exact reportMarkers_completes

end Sheets

/-! ## Documents -/

section Documents
open Drafting
variable {c : Context} {stem : String} {page : Page}

theorem newSheet_moderate (name file : String) (path : SheetPath) : (c.newSheet name file path page).tracker.Moderate :=
  fun _ isTracked => absurd isTracked (List.not_mem_nil)

theorem draw_returns {state : Conversion} {sheet : Sheet} {e : Eagle.Sheet} (moderate : e.Moderate)
    (holds : sheet.tracker.Moderate) : Returns (state.draw sheet (drawSheet c e)) := by
  obtain ⟨_, desk, ran, _⟩ := drawSheet_completes (c := c) moderate ⟨sheet, state.report, state.units⟩ holds
  exact ⟨desk, Conversion.draw_ok.2 ran⟩

theorem addSheets_returns {state : Conversion} (moderate : ∀ e ∈ c.document.sheets, e.Moderate)
    (holds : state.root.tracker.Moderate) : Returns (Conversion.addSheets c stem page state) := by
  unfold Conversion.addSheets
  split
  · exact ⟨_, rfl⟩
  · rename_i sheet single
    exact (draw_returns (moderate sheet (single ▸ .head _)) holds).bind fun _ _ => ⟨_, rfl⟩
  · refine foldlM_returns (fun state entry member => ?_) _
    have isSheet : entry.1 ∈ c.document.sheets := by
      obtain ⟨e, i⟩ := entry
      exact List.fst_mem_of_mem_zipIdx member
    exact (draw_returns (moderate _ isSheet) (newSheet_moderate _ _ _)).bind fun _ _ => ⟨_, rfl⟩

/-- A moderate schematic is converted. -/
theorem convert_returns {document : Eagle.Schematic} {project : Option String} (moderate : document.Moderate) :
    Returns (convert document project stem page) := by
  refine (Context.ofDocument_returns moderate).bind fun ⟨c, report⟩ made => ?_
  have same := (ofDocument_ok made).1
  refine (addSheets_returns (fun e member => ?_) (newSheet_moderate _ _ _)).bind fun _ _ => ⟨_, rfl⟩
  exact moderate.sheets e (same ▸ member)

/-- The text of a document without immoderate values is converted on a known paper, or fails as an import may. -/
theorem convertText_imports {text : String} {project : Option String} {file paper : String}
    (known : ∃ page, Page.ofPaper paper = .ok page) (moderate : ∀ root ∈ Markup.read? text, Eagle.ModerateTree root) :
    (∃ result, convertText text project file paper = .ok result) ∨
      ∃ failure, convertText text project file paper = .error failure ∧ failure.isImport = true := by
  obtain ⟨page, isPage⟩ := known
  have outcome := Eagle.Schematic.read_imports moderate
  unfold convertText
  rw [isPage]
  cases read : Eagle.Schematic.read text with
  | ok document =>
    rw [read] at outcome
    exact .inl (convert_returns outcome)
  | error failure =>
    rw [read] at outcome
    exact .inr ⟨failure, rfl, outcome⟩

/-- The pieces of a document with a symbol that has a curved wire, a frame and a turned pin, placed turned and
    mirrored, and a net with a wire whose curve has no value. -/
def curvedPieces (pen : String) : List String :=
  ["<eagle><drawing><schematic>", "<libraries><library name=\"L\">", "<symbols><symbol name=\"S\">",
    "<wire x1=\"0\" y1=\"0\" x2=\"2\" y2=\"0\"", " curve=\"-90\" width=\"", pen, "\"/>",
    "<frame x1=\"0\" y1=\"0\" x2=\"9\" y2=\"9\"", " rows=\"2\" columns=\"2\"/>",
    "<pin name=\"P\" x=\"5\" y=\"0\" rot=\"R180\"/>", "</symbol></symbols>",
    "<devicesets><deviceset name=\"D\">", "<gates><gate name=\"G\"", " symbol=\"S\" x=\"0\" y=\"0\"/></gates>",
    "<devices><device name=\"\"/></devices>", "</deviceset></devicesets>", "</library></libraries>",
    "<parts><part name=\"U\" library=\"L\"", " deviceset=\"D\" device=\"\"/></parts>", "<sheets><sheet>",
    "<instances><instance part=\"U\"", " gate=\"G\" x=\"9\" y=\"9\" rot=\"MR90\"/>", "</instances>",
    "<nets><net name=\"A\"><segment>", "<wire x1=\"0\" y1=\"0\" x2=\"5\" y2=\"0\"", " curve=\"nan\"/>",
    "<label x=\"0\" y=\"0\" size=\"1\" rot=\"R90\"/>", "</segment></net></nets></sheet></sheets>",
    "</schematic></drawing></eagle>"]

/-- The document of these pieces. -/
def curvedDocument (pen : String) : String := String.join (curvedPieces pen)

theorem toList_curvedDocument (pen : String) : (curvedDocument pen).toList = (curvedPieces pen).flatMap String.toList := by
  simp [curvedDocument]

theorem read?_curvedDocument (pen : String) : Markup.read? (curvedDocument pen) =
    Markup.read? (String.ofList ((curvedPieces pen).flatMap String.toList)) := by
  rw [← toList_curvedDocument, String.ofList_toList]

/-- With a pen of half a millimetre the document is read, with one that is no number it is refused. Neither fails
    in any other way. -/
theorem curvedDocument_imports :
    (∃ page, Page.ofPaper "A4" = .ok page) ∧ ∀ pen ∈ ["0.5", "thin"],
      ((Eagle.Schematic.read (curvedDocument pen)).toOption.isSome = true ↔ pen = "0.5") ∧
      (∀ root ∈ Markup.read? (curvedDocument pen), Eagle.ModerateTree root) ∧
        ((∃ result, convertText (curvedDocument pen) none "demo.sch" "A4" = .ok result) ∨
          ∃ failure, convertText (curvedDocument pen) none "demo.sch" "A4" = .error failure ∧ failure.isImport = true) := by
  have known : ∃ page, Page.ofPaper "A4" = .ok page := ⟨_, rfl⟩
  have moderate : ∀ pen ∈ ["0.5", "thin"], ∀ root ∈ Markup.read? (curvedDocument pen), Eagle.ModerateTree root := by
    simp only [read?_curvedDocument, Markup.read?_ofList]
    decide +kernel
  have isRead : ∀ pen ∈ ["0.5", "thin"],
      ((Eagle.Schematic.read (curvedDocument pen)).toOption.isSome = true ↔ pen = "0.5") := by
    simp only [Eagle.Schematic.read, read?_curvedDocument, Markup.read?_ofList]
    decide +kernel
  exact ⟨known, fun pen member =>
    ⟨isRead pen member, moderate pen member, convertText_imports known (moderate pen member)⟩⟩

/-- A document with one wire, from an abscissa. -/
def wireFrom (x : String) : String :=
  "<eagle><drawing><schematic><sheets><sheet><nets><net name=\"A\"><segment><wire x1=\"" ++ x ++
    "\" y1=\"0\" x2=\"5\" y2=\"0\"/></segment></net></nets></sheet></sheets></schematic></drawing></eagle>"

/-- An abscissa that is a number but has no value is not refused as the text of the document is read. -/
theorem not_all_failures_import :
    ¬ ∀ (text : String) (project : Option String) (file paper : String), (∃ page, Page.ofPaper paper = .ok page) →
      (∃ result, convertText text project file paper = .ok result) ∨
        ∃ failure, convertText text project file paper = .error failure ∧ failure.isImport = true := by
  intro all
  have escapes : ¬ Imports (fun _ => True) (convertText (wireFrom "nan") none "demo.sch" "A4") := by decide +kernel
  rcases all (wireFrom "nan") none "demo.sch" "A4" ⟨_, rfl⟩ with ⟨_, converted⟩ | ⟨failure, failed, isImport⟩
  · rw [converted] at escapes
    exact escapes trivial
  · rw [failed] at escapes
    exact escapes isImport

end Documents

end Redraft
