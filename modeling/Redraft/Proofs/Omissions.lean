import Redraft.Proofs.DeviceDrawing
import Redraft.Proofs.SheetDrawing

/-!
# What is left out

A device without a name or with a gate that has no symbol is left out of its
library, and an instance that stands for nothing is left out of its sheet. Each
is reported once as an error; all else comes out as if it had not been there.
-/

namespace Redraft

/-! ## Reports -/

namespace Report

/-- The messages that are no errors. -/
def mild (r : Report) : Report := r.filter (·.severity ≠ .error)

/-- No message is an error. -/
def IsMild (r : Report) : Prop := ∀ m ∈ r, m.severity ≠ .error

variable {r r' : Report}

theorem texts_append (severity : Severity) : texts (r ++ r') severity = texts r severity ++ texts r' severity := by
  simp [texts]

theorem texts_error (text : String) : texts [.error text] .error = [text] := by
  simp [texts, Message.error]

theorem mild_nil : mild [] = [] := rfl

theorem mild_append : mild (r ++ r') = mild r ++ mild r' := by
  simp [mild]

theorem mild_error (text : String) : mild [.error text] = [] := by
  simp [mild, Message.error]

theorem IsMild.nil : IsMild [] := by
  simp [IsMild]

theorem IsMild.append (first : IsMild r) (second : IsMild r') : IsMild (r ++ r') := by
  intro m member
  rcases List.mem_append.1 member with here | there
  · exact first m here
  · exact second m there

theorem IsMild.warning (text : String) : IsMild [.warning text] := by
  simp [IsMild, Message.warning]

theorem IsMild.texts (isMild : IsMild r) : r.texts .error = [] := by
  simpa [Report.texts, List.filter_eq_nil_iff, IsMild] using isMild

theorem IsMild.mild_eq (isMild : IsMild r) : mild r = r := by
  simpa [mild, List.filter_eq_self, IsMild] using isMild

end Report

open Report (IsMild)

/-! ## Devices -/

namespace Eagle

/-- A gate has no symbol in its library. -/
def Gate.isBare (library : Library) (gate : Gate) : Bool := (library.symbols.get? gate.symbol).isNone

/-- Why a device is left out of its library: it has no name, or a gate has no symbol. -/
def Library.refusal (library : Library) (deviceSet : DeviceSet) (device : Device) : Option String :=
  if (Name.symbolKey deviceSet.name device.name).isEmpty then
    some ("Library '" ++ library.name ++ "': device set without a name")
  else (deviceSet.gates.find? (·.isBare library)).map fun gate =>
    (Failure.missingSymbol library.name deviceSet.name gate.name gate.symbol).message

/-- The device set without the devices that are left out. -/
def DeviceSet.sound (library : Library) (deviceSet : DeviceSet) : DeviceSet :=
  { deviceSet with devices := deviceSet.devices.filter fun device => (library.refusal deviceSet device).isNone }

/-- The library without the devices that are left out. -/
def Library.sound (library : Library) : Library :=
  { library with deviceSets := library.deviceSets.map (DeviceSet.sound library) }

end Eagle

theorem Eagle.Pin.draw_mild {p : Eagle.Pin} {report : Report} {pin : Redraft.Pin} (drawn : p.draw = .ok (report, pin)) :
    IsMild report := by
  obtain ⟨degrees, _, same⟩ := bind_ok.1 drawn
  cases same
  split
  · exact .nil
  · exact .warning _

namespace UnitDrawing
variable {device : Eagle.Device} {gate : String} {d d' : UnitDrawing}

/-- Only a pin has something to report, and that is a warning. -/
theorem addItem_mild {item : Eagle.Item} (ran : addItem device gate d item = .ok d') (isMild : IsMild d.report) :
    IsMild d'.report := by
  rcases addItem_cases ran with ⟨p, _, _, rfl, drawn, rfl⟩ | ⟨_, ph, middle, rfl, _, placed, rfl⟩ | ⟨_, _, _, rfl⟩
  · exact isMild.append (Eagle.Pin.draw_mild drawn)
  · obtain ⟨_, _, report⟩ := placeField_ok placed
    rw [report_mark, report]
    exact isMild
  · exact isMild

theorem ofItems_mild {fields : List (Field (Option Point))} {items : List Eagle.Item}
    (ran : ofItems device gate fields items = .ok d) : IsMild d.report := by
  obtain ⟨drawn, isDrawn, same⟩ := bind_ok.1 ran
  have isMild : IsMild drawn.report := by
    refine foldlM_keeps (fun d : UnitDrawing => IsMild d.report) ?_ .nil isDrawn
    intro d item d' isMild step
    exact addItem_mild step isMild
  cases same
  exact isMild

end UnitDrawing

section Devices
variable {library : Eagle.Library} {deviceSet : Eagle.DeviceSet} {device : Eagle.Device}

/-- The drawing of the gates ends at the first one without a symbol, and reports no error. -/
theorem drawGates_missing {gates : List Eagle.Gate} {d d' : SymbolDrawing} {missing : Option Failure}
    (ran : drawGates library deviceSet device d gates = .ok (d', missing)) (isMild : IsMild d.report) :
    IsMild d'.report ∧ missing = (gates.find? (·.isBare library)).map fun gate =>
      .missingSymbol library.name deviceSet.name gate.name gate.symbol := by
  induction gates generalizing d with
  | nil =>
    cases ran
    exact ⟨isMild, rfl⟩
  | cons gate gates ih =>
    unfold drawGates at ran
    split at ran
    · rename_i absent
      cases ran
      have bare : gate.isBare library = true := by simp [Eagle.Gate.isBare, absent]
      rw [List.find?_cons_of_pos bare]
      exact ⟨isMild, rfl⟩
    · rename_i symbol found
      obtain ⟨u, isUnit, rest⟩ := bind_ok.1 ran
      have drawn : ¬gate.isBare library = true := by simp [Eagle.Gate.isBare, found]
      rw [List.find?_cons_of_neg drawn]
      exact ih rest (isMild.append (UnitDrawing.ofItems_mild isUnit))

/-- The devices that are left out have no part in drawing the others. -/
theorem drawGates_sound (gates : List Eagle.Gate) (d : SymbolDrawing) :
    drawGates library.sound (deviceSet.sound library) device d gates =
      drawGates library deviceSet device d gates := by
  induction gates generalizing d with
  | nil => rfl
  | cons gate gates ih =>
    unfold drawGates
    simp only [ih]
    rfl

theorem drawDevice_sound : drawDevice library.sound (deviceSet.sound library) device =
    drawDevice library deviceSet device := by
  unfold drawDevice
  simp only [drawGates_sound]
  rfl

/-- A device with a name is drawn, unless one of its gates has no symbol. -/
theorem drawDevice_symbol {result : DeviceResult} (ran : drawDevice library deviceSet device = .ok result)
    (named : ¬(Name.symbolKey deviceSet.name device.name).isEmpty) : IsMild result.report ∧
      (∀ text, library.refusal deviceSet device = some text →
        ∃ failure, result.symbol = .error failure ∧ failure.message = text) ∧
      (library.refusal deviceSet device = none → ∃ symbol, result.symbol = .ok symbol) := by
  obtain ⟨⟨d, missing⟩, drawn, ran⟩ := bind_ok.1 ran
  obtain ⟨isMild, rfl⟩ := drawGates_missing drawn .nil
  rw [Eagle.Library.refusal, if_neg named]
  cases bare : deviceSet.gates.find? (·.isBare library) with
  | some gate =>
    rw [bare] at ran
    obtain rfl := Except.ok.inj ran
    refine ⟨isMild, fun text refused => ?_, nofun⟩
    exact ⟨_, rfl, Option.some.inj refused⟩
  | none =>
    rw [bare] at ran
    obtain rfl := Except.ok.inj ran
    exact ⟨isMild, nofun, fun _ => ⟨_, rfl⟩⟩

namespace SymbolLibrary
variable {l l' : SymbolLibrary × Report}

/-- A device that is refused is left out, with one error. -/
theorem convertDevice_refused (ran : convertDevice library deviceSet l device = .ok l') {text : String}
    (refused : library.refusal deviceSet device = some text) :
    l'.1 = l.1 ∧ ∃ warnings, IsMild warnings ∧ l'.2 = l.2 ++ (warnings ++ [.error text]) := by
  unfold convertDevice at ran
  by_cases nameless : (Name.symbolKey deviceSet.name device.name).isEmpty
  · rw [if_pos nameless] at ran
    rw [Eagle.Library.refusal, if_pos nameless] at refused
    obtain rfl := Except.ok.inj ran
    obtain rfl := Option.some.inj refused
    exact ⟨rfl, [], .nil, by rw [List.nil_append]⟩
  · rw [if_neg nameless] at ran
    obtain ⟨result, drawn, ran⟩ := bind_ok.1 ran
    obtain ⟨isMild, fails, _⟩ := drawDevice_symbol drawn nameless
    obtain ⟨failure, failed, rfl⟩ := fails text refused
    rw [failed] at ran
    obtain rfl := Except.ok.inj ran
    exact ⟨rfl, result.report, isMild, by rw [List.append_assoc]⟩

/-- A device that is not refused is added, as it is in the library without those that are. -/
theorem convertDevice_sound (ran : convertDevice library deviceSet l device = .ok l')
    (sound : library.refusal deviceSet device = none) : ∃ warnings, IsMild warnings ∧ l'.2 = l.2 ++ warnings ∧
      ∀ report, convertDevice library.sound (deviceSet.sound library) (l.1, report) device =
        .ok (l'.1, report ++ warnings) := by
  unfold convertDevice at ran
  by_cases nameless : (Name.symbolKey deviceSet.name device.name).isEmpty
  · rw [Eagle.Library.refusal, if_pos nameless] at sound
    cases sound
  · rw [if_neg nameless] at ran
    obtain ⟨result, drawn, ran⟩ := bind_ok.1 ran
    obtain ⟨isMild, _, comes⟩ := drawDevice_symbol drawn nameless
    obtain ⟨symbol, made⟩ := comes sound
    rw [made] at ran
    obtain rfl := Except.ok.inj ran
    refine ⟨result.report, isMild, rfl, fun report => ?_⟩
    have named : ¬(Name.symbolKey (deviceSet.sound library).name device.name).isEmpty := nameless
    unfold convertDevice
    rw [if_neg named, drawDevice_sound, drawn]
    refine bind_ok.2 ⟨result, rfl, ?_⟩
    rw [made]
    rfl

/-- The devices that are refused leave an error each and nothing else behind. -/
private theorem convertDevices_sound {entries : List (Eagle.DeviceSet × Eagle.Device)}
    (ran : entries.foldlM (fun l e => convertDevice library e.1 l e.2) l = .ok l') :
    l'.2.texts .error = l.2.texts .error ++ entries.filterMap (fun e => library.refusal e.1 e.2) ∧
    ∀ report, ∃ warnings, IsMild warnings ∧
      ((entries.filter fun e => (library.refusal e.1 e.2).isNone).map fun e => (e.1.sound library, e.2)).foldlM
        (fun l e => convertDevice library.sound e.1 l e.2) (l.1, report) = .ok (l'.1, report ++ warnings) := by
  induction entries generalizing l with
  | nil =>
    cases ran
    exact ⟨by simp, fun report => ⟨[], .nil, by rw [List.append_nil]; rfl⟩⟩
  | cons entry entries ih =>
    rw [List.foldlM_cons] at ran
    obtain ⟨middle, first, rest⟩ := bind_ok.1 ran
    obtain ⟨errors, again⟩ := ih rest
    rw [List.filterMap_cons]
    cases refused : library.refusal entry.1 entry.2 with
    | some text =>
      obtain ⟨same, warnings, isMild, reported⟩ := convertDevice_refused first refused
      rw [List.filter_cons_of_neg (by simp [refused]), ← same]
      refine ⟨?_, again⟩
      rw [errors, reported, Report.texts_append, Report.texts_append, isMild.texts, Report.texts_error]
      simp
    | none =>
      obtain ⟨warnings, isMild, reported, alike⟩ := convertDevice_sound first refused
      rw [List.filter_cons_of_pos (by simp [refused]), List.map_cons]
      constructor
      · rw [errors, reported, Report.texts_append, isMild.texts, List.append_nil]
      · intro report
        obtain ⟨later, isMild', ran⟩ := again (report ++ warnings)
        refine ⟨warnings ++ later, isMild.append isMild', ?_⟩
        rw [List.foldlM_cons, ← List.append_assoc]
        exact bind_ok.2 ⟨_, alike report, ran⟩

theorem devices_sound (library : Eagle.Library) : devices library.sound =
    ((devices library).filter fun e => (library.refusal e.1 e.2).isNone).map fun e => (e.1.sound library, e.2) := by
  unfold devices Eagle.Library.sound
  induction library.deviceSets with
  | nil => rfl
  | cons deviceSet deviceSets ih =>
    rw [List.map_cons, List.flatMap_cons, List.flatMap_cons, List.filter_append, List.map_append, ← ih]
    congr 1
    simp [Eagle.DeviceSet.sound, List.filter_map, Function.comp_def]

/-- A library comes out as the one without the refused devices does, with one error for each of them. -/
theorem convert_sound {converted : SymbolLibrary} {report : Report}
    (ran : convert library = .ok (converted, report)) :
    report.texts .error = (devices library).filterMap (fun e => library.refusal e.1 e.2) ∧
    ∃ warnings, IsMild warnings ∧ convert library.sound = .ok (converted, warnings) := by
  obtain ⟨errors, again⟩ := convertDevices_sound ran
  obtain ⟨warnings, isMild, ran⟩ := again []
  refine ⟨errors, warnings, isMild, ?_⟩
  rw [convert, devices_sound]
  exact ran

end SymbolLibrary

end Devices

/-! ## Steps of drawing -/

namespace Drafting
variable {α β : Type}

/-- Wherever the first step ends, it has reported the given errors, and the second one ends with the same
    value on the same sheet and record, but for these errors. -/
def Omits (errors : List String) (x y : Drafting α) : Prop :=
  ∀ d a d', Ends x d a d' → ∃ added, d'.report = d.report ++ added ∧ Report.texts added .error = errors ∧
    ∀ before, Ends y { d with report := before } a { d' with report := before ++ Report.mild added }

namespace Omits
variable {errors errors' : List String}

theorem pure (a : α) : Omits [] (pure a) (pure a) := by
  intro d b d' ran
  obtain ⟨rfl, rfl⟩ := ends_pure.1 ran
  exact ⟨[], by simp, rfl, fun before => ends_pure.2 ⟨rfl, by rw [Report.mild_nil, List.append_nil]⟩⟩

theorem bind {x y : Drafting α} {f g : α → Drafting β} (first : Omits errors x y)
    (rest : ∀ a, Omits errors' (f a) (g a)) : Omits (errors ++ errors') (x >>= f) (y >>= g) := by
  intro d b d'' ran
  obtain ⟨a, d', ran, ran'⟩ := ends_bind.1 ran
  obtain ⟨added, here, isErrors, alike⟩ := first d a d' ran
  obtain ⟨later, there, areErrors, alike'⟩ := rest a d' b d'' ran'
  refine ⟨added ++ later, ?_, ?_, fun before => ?_⟩
  · rw [there, here, List.append_assoc]
  · rw [Report.texts_append, isErrors, areErrors]
  · rw [Report.mild_append, ← List.append_assoc]
    exact ends_bind.2 ⟨a, _, alike before, alike' _⟩

theorem modifyDesk {f : Desk → Desk} (same : ∀ d before, f { d with report := before } = { f d with report := before })
    (keeps : ∀ d, (f d).report = d.report) : Omits [] (modify f) (modify f) := by
  intro d _ d' ran
  obtain rfl := ends_modify.1 ran
  refine ⟨[], by rw [keeps, List.append_nil], rfl, fun before => ends_modify.2 ?_⟩
  rw [same, Report.mild_nil, List.append_nil]

theorem changeSheet (f : Sheet → Sheet) : Omits [] (changeSheet f) (changeSheet f) :=
  modifyDesk (fun _ _ => rfl) fun _ => rfl

theorem changeUnits (f : UnitRecord → UnitRecord) : Omits [] (modify fun d => { d with units := f d.units })
    (modify fun d => { d with units := f d.units }) :=
  modifyDesk (fun _ _ => rfl) fun _ => rfl

theorem sheet : Omits [] sheet sheet := by
  intro d s d' ran
  obtain ⟨rfl, rfl⟩ := ends_sheet.1 ran
  exact ⟨[], by simp, rfl, fun before => ends_sheet.2 ⟨rfl, by rw [Report.mild_nil, List.append_nil]⟩⟩

theorem report {messages : Report} (isMild : IsMild messages) : Omits [] (report messages) (report messages) := by
  intro d _ d' ran
  obtain rfl := ends_report.1 ran
  exact ⟨messages, rfl, isMild.texts, fun before => ends_report.2 (by rw [isMild.mild_eq])⟩

/-- What is lifted comes to its value, whatever has been reported. -/
theorem lift_bind {x : Except Failure α} {f g : α → Drafting β} (rest : ∀ a, x = .ok a → Omits errors (f a) (g a)) :
    Omits errors (lift x >>= f) (lift x >>= g) := by
  intro d b d' ran
  obtain ⟨a, _, lifted, ran⟩ := ends_bind.1 ran
  obtain ⟨ok, rfl⟩ := ends_lift.1 lifted
  obtain ⟨added, reported, isErrors, alike⟩ := rest a ok d b d' ran
  exact ⟨added, reported, isErrors, fun before => ends_bind.2 ⟨a, _, ends_lift.2 ⟨ok, rfl⟩, alike before⟩⟩

theorem discard {x y : Drafting α} (omits : Omits errors x y) : Omits errors (discard x) (discard y) := by
  intro d _ d' ran
  obtain ⟨a, ran⟩ := ends_discard.1 ran
  obtain ⟨added, reported, isErrors, alike⟩ := omits d a d' ran
  exact ⟨added, reported, isErrors, fun before => ends_discard.2 ⟨a, alike before⟩⟩

theorem forM {f : α → Drafting Unit} (steady : ∀ a, Omits [] (f a) (f a)) (l : List α) :
    Omits [] (l.forM f) (l.forM f) := by
  induction l with
  | nil => exact pure ()
  | cons a l ih => exact bind (steady a) fun _ => ih

end Omits

end Drafting

/-! ## Sheets -/

/-- Why an instance is left out of its sheet: its part, symbol or unit is not found. -/
def Context.omission (c : Context) (i : Eagle.Instance) : Option String :=
  match c.resolve i with
  | .ok _ => none
  | .error cause => some cause.message

/-- The EAGLE sheet without the instances that are left out. -/
def Context.withoutOmitted (c : Context) (e : Eagle.Sheet) : Eagle.Sheet :=
  { e with instances := e.instances.filter fun i => (c.omission i).isNone }

section Sheets
open Drafting
variable {c : Context}

theorem Eagle.Instance.placement_mild {i : Eagle.Instance} {warnings : Report} {placement : Placement}
    (placed : i.placement = .ok (warnings, placement)) : IsMild warnings := by
  obtain ⟨degrees, _, same⟩ := bind_ok.1 placed
  cases same
  split
  · exact .nil
  · exact .warning _

/-- An instance that is found reports no error. -/
theorem placeInstance_steady {i : Eagle.Instance} (found : c.omission i = none) :
    Omits [] (placeInstance c i) (placeInstance c i) := by
  unfold placeInstance
  unfold Context.omission at found
  split at found
  · rename_i resolved isResolved
    rw [isResolved]
    refine .lift_bind fun (warnings, placement) placed => ?_
    refine .bind (.report (Eagle.Instance.placement_mild placed)) fun _ => ?_
    refine .bind (.changeSheet _) fun _ => ?_
    refine .bind .sheet fun s => ?_
    refine .lift_bind fun symbol _ => ?_
    exact .bind (.changeSheet _) fun _ => .pure _
  · cases found

/-- An instance that is not found does nothing but report one error. -/
theorem placeInstance_omitted {i : Eagle.Instance} {text : String} (omitted : c.omission i = some text) :
    Omits [text] (discard (placeInstance c i)) (pure ()) := by
  unfold placeInstance
  unfold Context.omission at omitted
  split at omitted
  · cases omitted
  · rename_i cause isUnplaced
    obtain rfl := Option.some.inj omitted
    rw [isUnplaced]
    intro d _ d' ran
    obtain ⟨a, ran⟩ := ends_discard.1 ran
    obtain ⟨_, middle, reported, ended⟩ := ends_bind.1 ran
    obtain rfl := ends_report.1 reported
    obtain ⟨_, rfl⟩ := ends_pure.1 ended
    refine ⟨[.error cause.message], rfl, Report.texts_error _, fun before => ends_pure.2 ⟨rfl, ?_⟩⟩
    rw [Report.mild_error, List.append_nil]

/-- The instances that are not found leave an error each and nothing else behind. -/
theorem placeInstances_omits (instances : List Eagle.Instance) :
    Omits (instances.filterMap c.omission) (instances.forM fun i => discard (placeInstance c i))
      ((instances.filter fun i => (c.omission i).isNone).forM fun i => discard (placeInstance c i)) := by
  induction instances with
  | nil => exact .pure ()
  | cons i instances ih =>
    cases omitted : c.omission i with
    | some text =>
      rw [List.filterMap_cons_some omitted, List.filter_cons_of_neg (by simp [omitted])]
      exact .bind (placeInstance_omitted omitted) fun _ => ih
    | none =>
      rw [List.filterMap_cons_none omitted, List.filter_cons_of_pos (by simp [omitted])]
      exact .bind (.discard (placeInstance_steady omitted)) fun _ => ih

theorem drawSegment_steady (net : String) (isBus : Bool) (groups : Nat) (segment : Eagle.Segment) :
    Omits [] (drawSegment c net isBus groups segment) (drawSegment c net isBus groups segment) := by
  unfold drawSegment
  refine .bind .sheet fun s => ?_
  refine .bind (.changeSheet _) fun _ => ?_
  refine .bind (.changeSheet _) fun _ => ?_
  refine .bind (.changeSheet _) fun _ => ?_
  refine .bind (.forM (fun l => ?_) _) fun _ => .changeSheet _
  exact .lift_bind fun spin _ => .changeSheet _

theorem drawNet_steady (net : String) (isBus : Bool) (n : Eagle.Net) :
    Omits [] (drawNet c net isBus n) (drawNet c net isBus n) :=
  .forM (drawSegment_steady net isBus n.segments.length) n.segments

theorem adjustLabels_steady : Omits [] adjustLabels adjustLabels := by
  refine .bind .sheet fun s => ?_
  refine .lift_bind fun (positions, moved) _ => ?_
  exact .bind (.changeSheet _) fun _ => .pure _

theorem joinBuses_steady : Omits [] joinBuses joinBuses :=
  .bind .sheet fun _ => .bind (.changeSheet _) fun _ => .pure _

theorem drawPlain_steady (item : Eagle.Item) : Omits [] (drawPlain c item) (drawPlain c item) := by
  cases item with
  | text t => exact .lift_bind fun note _ => .changeSheet _
  | wire w =>
    simp only [drawPlain]
    exact .changeSheet _
  | frame f =>
    simp only [drawPlain]
    exact .changeSheet _
  | _ => exact .pure ()

theorem drawAllImplied_steady (symbols : List PlacedSymbol) :
    Omits [] (drawAllImplied symbols) (drawAllImplied symbols) := by
  refine .forM (fun symbol => .bind .sheet fun s => ?_) symbols
  cases s.symbol? symbol.name with
  | none => exact .pure ()
  | some source =>
    refine .discard (.bind .sheet fun t => .bind (.changeSheet _) fun _ => ?_)
    exact .bind (.changeUnits (·.place symbol source)) fun _ => .pure _

theorem reportMarkers_steady : Omits [] reportMarkers reportMarkers := by
  refine .bind .sheet fun s => .report ?_
  intro m member
  obtain ⟨marker, _, rfl⟩ := List.mem_map.1 member
  simp [markerWarning, Message.warning]

/-- A sheet comes out as the one without the omitted instances does, with one error for each of them. -/
theorem drawSheet_omits (e : Eagle.Sheet) :
    Omits (e.instances.filterMap c.omission) (drawSheet c e) (drawSheet c (c.withoutOmitted e)) := by
  unfold drawSheet
  refine .bind .sheet fun before => ?_
  rw [← List.append_nil (List.filterMap _ _)]
  refine .bind (placeInstances_omits e.instances) fun _ => ?_
  refine .bind (.forM (fun n => drawNet_steady _ _ n) _) fun _ => ?_
  refine .bind (.forM (fun n => drawNet_steady _ _ n) _) fun _ => ?_
  refine .bind (.discard adjustLabels_steady) fun _ => ?_
  refine .bind (.discard joinBuses_steady) fun _ => ?_
  refine .bind (.forM drawPlain_steady _) fun _ => ?_
  refine .bind .sheet fun content => ?_
  refine .bind (.changeSheet _) fun _ => ?_
  refine .bind .sheet fun fitted => ?_
  refine .bind (drawAllImplied_steady _) fun _ => ?_
  exact .bind (.changeSheet _) fun _ => reportMarkers_steady

/-- What is left out leaves exactly one error each, and all else as it is without it: a library without its
    refused devices, and a sheet with its record of units without the instances that are not found. -/
theorem omissions_leave_the_rest :
    (∀ (library : Eagle.Library) (l : SymbolLibrary) (report : Report),
      SymbolLibrary.convert library = .ok (l, report) →
      report.texts .error = (SymbolLibrary.devices library).filterMap (fun e => library.refusal e.1 e.2) ∧
      ∃ warnings, IsMild warnings ∧ SymbolLibrary.convert library.sound = .ok (l, warnings)) ∧
    ∀ (c : Context) (e : Eagle.Sheet) (d d' : Desk), Ends (drawSheet c e) d () d' →
      ∃ added, d'.report = d.report ++ added ∧ added.texts .error = e.instances.filterMap c.omission ∧
        Ends (drawSheet c (c.withoutOmitted e)) d () { d' with report := d.report ++ added.mild } := by
  constructor
  · intro library l report converted
    exact SymbolLibrary.convert_sound converted
  · intro c e d d' ran
    obtain ⟨added, reported, errors, alike⟩ := drawSheet_omits e d () d' ran
    exact ⟨added, reported, errors, alike d.report⟩

end Sheets

/-- A library with a device of which only the first gate can be drawn, one without a name, and a good one. -/
def patchyLibrary : Eagle.Library where
  name := "a"
  symbols := [("S", ⟨"S", [.pin ⟨"P", ⟨0, 0⟩, none, none, none, none, none⟩]⟩)]
  deviceSets := [
    ⟨"X", "U", [⟨"A", "S", ⟨0, 0⟩⟩, ⟨"B", "T", ⟨0, 0⟩⟩], [⟨"", none, []⟩]⟩,
    ⟨"", "U", [⟨"A", "S", ⟨0, 0⟩⟩], [⟨"", none, []⟩]⟩,
    ⟨"Y", "U", [⟨"A", "S", ⟨0, 0⟩⟩], [⟨"", some "P", []⟩]⟩]

/-- Parts of the good device and of the one that is left out. -/
def patchyDocument : Eagle.Schematic where
  libraries := [("a", patchyLibrary)]
  parts := [("U1", ⟨"U1", "a", "Y", "", none, none, [], []⟩), ("U2", ⟨"U2", "a", "X", "", none, none, [], []⟩)]

/-- A sheet of which only the second instance is found, and a wire at its pin. -/
def patchySheet : Eagle.Sheet where
  description := none
  plain := []
  instances := [⟨"U2", "A", ⟨0, 0⟩, false, none, [], []⟩, ⟨"U1", "A", ⟨0, 0⟩, false, none, [], []⟩,
    ⟨"U1", "Q", ⟨0, 0⟩, false, none, [], []⟩, ⟨"U9", "A", ⟨0, 0⟩, false, none, [], []⟩]
  buses := []
  nets := [⟨"N", [⟨[⟨⟨0, 0⟩, ⟨254000, 0⟩, 1524, 91, none⟩], [], []⟩]⟩]

open Drafting in
theorem patchyDocument_leaves_the_rest : ∃ l report warnings,
    SymbolLibrary.convert patchyLibrary = .ok (l, report) ∧
    report.texts .error = ["Library 'a': gate 'B' of device set 'X' uses unknown symbol 'T'",
      "Library 'a': device set without a name"] ∧
    SymbolLibrary.convert patchyLibrary.sound = .ok (l, warnings) ∧ IsMild warnings ∧
    ∃ c d d' added, c.libraries = [("a", l)] ∧ Ends (drawSheet c patchySheet) d () d' ∧
      d'.report = d.report ++ added ∧ added.texts .error = ["Could not find 'X' in the imported library.",
        "Could not find 'Y' in the imported library.",
        "Error parsing Eagle file. Could not find 'U9' instance but it is referenced in the schematic."] ∧
      d'.sheet.symbols.length = 1 ∧
      Ends (drawSheet c (c.withoutOmitted patchySheet)) d () { d' with report := d.report ++ added.mild } := by
  have checked : (SymbolLibrary.convert patchyLibrary).toOption.any (fun converted =>
      let c : Context :=
        { document := patchyDocument, libraries := [("a", converted.1)], library := "demo", project := "demo" }
      let drawn := (drawSheet c patchySheet).outcome
        { sheet := c.newSheet "demo" "demo.kicad_sch" .root ⟨some "A4", ⟨2970000, 2100000⟩⟩ }
      drawn.1.toBool && decide (drawn.2.sheet.symbols.length = 1 ∧
        patchySheet.instances.filterMap c.omission = ["Could not find 'X' in the imported library.",
          "Could not find 'Y' in the imported library.",
          "Error parsing Eagle file. Could not find 'U9' instance but it is referenced in the schematic."])) = true := by
    decide +kernel
  obtain ⟨⟨l, report⟩, converted, holds⟩ := (Option.any_eq_true ..).1 checked
  obtain ⟨ran, holds⟩ := Bool.and_eq_true_iff.1 holds
  obtain ⟨placed, omitted⟩ := of_decide_eq_true holds
  obtain ⟨refused, warnings, isMild, again⟩ := omissions_leave_the_rest.1 _ _ _ (ok_of_toOption converted)
  obtain ⟨added, reported, errors, alike⟩ := omissions_leave_the_rest.2 _ _ _ _ (.of_toBool ran)
  refine ⟨l, report, warnings, ok_of_toOption converted, ?_, again, isMild, _, _, _, added, rfl, .of_toBool ran,
    reported, errors.trans omitted, placed, alike⟩
  rw [refused]
  decide +kernel

end Redraft
