import Redraft.Proofs.DeviceDrawing

/-!
# Pads

The pins of a gate are numbered after the pads that the device connects them to.
Of all connections of a pin the first one counts, so that a pad of another one is
kept just if it is also a pad of the first connection of a pin with the same label.
-/

namespace Redraft

/-! ## Connections -/

namespace Eagle

/-- A connection of the pin of the gate lists the pad. -/
def Device.Connects (device : Device) (gate name pad : String) : Prop :=
  ∃ c ∈ device.connects, c.gate = gate ∧ c.pin = name ∧ pad ∈ Text.words c.pads

/-- The first connection of the pin of the gate lists the pad. -/
def Device.ConnectsFirst (device : Device) (gate name pad : String) : Prop :=
  ∃ c, device.connects.find? (fun c => c.gate == gate && c.pin == name) = some c ∧ pad ∈ Text.words c.pads

/-- The symbol of the gate has a pin of the name. -/
def Gate.HasPin (gate : Gate) (library : Library) (name : String) : Prop :=
  ∃ source, library.symbols.get? gate.symbol = some source ∧ ∃ p, .pin p ∈ source.items ∧ p.name = name

theorem Device.ConnectsFirst.connects {device : Device} {gate name pad : String}
    (first : device.ConnectsFirst gate name pad) : device.Connects gate name pad := by
  obtain ⟨c, found, isPad⟩ := first
  have passes := List.find?_some found
  rw [Bool.and_eq_true_iff, beq_iff_eq, beq_iff_eq] at passes
  exact ⟨c, List.mem_of_find?_eq_some found, passes.1, passes.2, isPad⟩

/-- Connections of one pin each list all their pads first. -/
theorem Device.Connects.first {device : Device} {gate name pad : String} (connects : device.Connects gate name pad)
    (once : device.connects.Pairwise fun c c' => (c.gate, c.pin) ≠ (c'.gate, c'.pin)) :
    device.ConnectsFirst gate name pad := by
  obtain ⟨c, member, rfl, rfl, isPad⟩ := connects
  unfold ConnectsFirst
  generalize device.connects = connects at member once
  induction connects with
  | nil => cases member
  | cons c' rest ih =>
    obtain ⟨apart, once⟩ := List.pairwise_cons.1 once
    rcases List.mem_cons.1 member with rfl | later
    · exact ⟨c, List.find?_cons_of_pos (by simp), isPad⟩
    · rw [List.find?_cons_of_neg (by simpa using apart c later)]
      exact ih later once

end Eagle

/-- One of the pins has the name and the number. -/
def HasPad (pins : List Pin) (name pad : String) : Prop := ∃ pin ∈ pins, pin.name = name ∧ pin.number = pad

theorem hasPad_append {pins more : List Pin} {name pad : String} :
    HasPad (pins ++ more) name pad ↔ HasPad pins name pad ∨ HasPad more name pad := by
  unfold HasPad
  constructor
  · rintro ⟨pin, member, named⟩
    exact (List.mem_append.1 member).imp (⟨pin, ·, named⟩) (⟨pin, ·, named⟩)
  · rintro (⟨pin, member, named⟩ | ⟨pin, member, named⟩)
    · exact ⟨pin, List.mem_append_left _ member, named⟩
    · exact ⟨pin, List.mem_append_right _ member, named⟩

/-! ## Units -/

namespace UnitDrawing
variable {device : Eagle.Device} {gate name pad : String} {d d' : UnitDrawing}

theorem hasPad_padPins {pin : Pin} {c : Eagle.Connect} :
    HasPad (padPins pin c) name pad ↔ Name.label pin.name = name ∧ pad ∈ Text.words c.pads := by
  unfold HasPad padPins
  constructor
  · rintro ⟨_, member, rfl, rfl⟩
    obtain ⟨pad, isPad, rfl⟩ := List.mem_map.1 member
    exact ⟨rfl, isPad⟩
  · rintro ⟨rfl, isPad⟩
    exact ⟨_, List.mem_map_of_mem isPad, rfl, rfl⟩

theorem hasPad_numberedPins (connected : device.connects ≠ []) {count : Nat} {pin : Pin} :
    HasPad (numberedPins device gate count pin) name pad ↔
      Name.label pin.name = name ∧ device.ConnectsFirst gate pin.name pad := by
  have some : ¬ device.connects.isEmpty = true := by simpa using connected
  unfold numberedPins Eagle.Device.ConnectsFirst
  rw [if_neg some]
  cases device.connects.find? fun c => c.gate == gate && c.pin == pin.name with
  | none => simp [HasPad]
  | some c => simp [hasPad_padPins]

/-- A pin item gets the pads of its first connection, and no other item gets any. -/
theorem addItem_pads (connected : device.connects ≠ []) {item : Eagle.Item}
    (ran : addItem device gate d item = .ok d') : HasPad d'.pins name pad ↔ HasPad d.pins name pad ∨
      ∃ p, item = .pin p ∧ Name.label p.name = name ∧ device.ConnectsFirst gate p.name pad := by
  rcases addItem_cases ran with ⟨p, _, pin, rfl, drawn, rfl⟩ | ⟨_, ph, middle, rfl, _, placed, rfl⟩ |
    ⟨other, _, _, rfl⟩
  · have kept : pin.name = p.name := by
      obtain ⟨degrees, _, same⟩ := bind_ok.1 drawn
      cases same
      rfl
    simp [hasPad_append, hasPad_numberedPins connected, kept]
  · obtain ⟨_, pins, _⟩ := placeField_ok placed
    simp [pins]
  · simp [other, addGraphics]

theorem foldlM_addItem_pads (connected : device.connects ≠ []) {items : List Eagle.Item}
    (ran : items.foldlM (addItem device gate) d = .ok d') : HasPad d'.pins name pad ↔ HasPad d.pins name pad ∨
      ∃ p, .pin p ∈ items ∧ Name.label p.name = name ∧ device.ConnectsFirst gate p.name pad := by
  induction items generalizing d with
  | nil =>
    cases ran
    simp
  | cons item items ih =>
    rw [List.foldlM_cons] at ran
    obtain ⟨middle, first, rest⟩ := bind_ok.1 ran
    rw [ih rest, addItem_pads connected first, or_assoc]
    simp only [List.mem_cons, or_and_right, exists_or, eq_comm]

theorem ofItems_pads (connected : device.connects ≠ []) {fields : List (Field (Option Point))}
    {items : List Eagle.Item} (ran : ofItems device gate fields items = .ok d) : HasPad d.pins name pad ↔
      ∃ p, .pin p ∈ items ∧ Name.label p.name = name ∧ device.ConnectsFirst gate p.name pad := by
  obtain ⟨drawn, isDrawn, same⟩ := bind_ok.1 ran
  cases same
  have pads : HasPad drawn.pins name pad ↔ _ := foldlM_addItem_pads connected isDrawn
  simpa [HasPad] using pads

end UnitDrawing

/-! ## Gates -/

/-- The unit of a gate has the pads of the first connection of each pin of the gate, and no others. -/
theorem drawDevice_pads {library : Eagle.Library} {deviceSet : Eagle.DeviceSet} {device : Eagle.Device}
    {report : Report} {symbol : Symbol} (connected : device.connects ≠ [])
    (made : drawDevice library deviceSet device = .ok ⟨report, .ok symbol⟩) {gate : Eagle.Gate} {unit : SymbolUnit}
    (member : (gate, unit) ∈ deviceSet.gates.zip symbol.units) (name pad : String) : HasPad unit.pins name pad ↔
      ∃ pin, gate.HasPin library pin ∧ Name.label pin = name ∧ device.ConnectsFirst gate.name pin pad := by
  obtain ⟨source, fields, u, found, drawn, pins⟩ := (drawDevice_units made).2 gate unit member
  rw [pins, UnitDrawing.ofItems_pads connected drawn]
  constructor
  · rintro ⟨p, isItem, label, first⟩
    exact ⟨p.name, ⟨source, found, p, isItem, rfl⟩, label, first⟩
  · rintro ⟨_, ⟨source', found', p, isItem, rfl⟩, label, first⟩
    obtain rfl := Option.some.inj (found.symm.trans found')
    exact ⟨p, isItem, label, first⟩

/-- Every pad is kept just if each pad that is connected to a pin is listed by the first connection of a pin of the
    same gate with the same label. No pin has a number that its connections do not list. -/
theorem pads_kept_iff {library : Eagle.Library} {deviceSet : Eagle.DeviceSet} {device : Eagle.Device}
    {report : Report} {symbol : Symbol} (made : drawDevice library deviceSet device = .ok ⟨report, .ok symbol⟩)
    (connected : device.connects ≠ []) : symbol.units.length = deviceSet.gates.length ∧
    ((∀ gate unit, (gate, unit) ∈ deviceSet.gates.zip symbol.units → ∀ name pad, gate.HasPin library name →
        device.Connects gate.name name pad → HasPad unit.pins (Name.label name) pad) ↔
      ∀ gate ∈ deviceSet.gates, ∀ name pad, gate.HasPin library name → device.Connects gate.name name pad →
        ∃ pin, gate.HasPin library pin ∧ Name.label pin = Name.label name ∧
          device.ConnectsFirst gate.name pin pad) ∧
    ∀ gate unit, (gate, unit) ∈ deviceSet.gates.zip symbol.units → ∀ pin ∈ unit.pins,
      ∃ name, gate.HasPin library name ∧ Name.label name = pin.name ∧
        device.Connects gate.name name pin.number := by
  have length := (drawDevice_units made).1
  refine ⟨length, ⟨?_, ?_⟩, ?_⟩
  · intro kept gate isGate name pad isPin connects
    rw [← List.map_fst_zip (Nat.le_of_eq length.symm)] at isGate
    obtain ⟨⟨gate, unit⟩, member, rfl⟩ := List.mem_map.1 isGate
    exact (drawDevice_pads connected made member _ _).1 (kept gate unit member name pad isPin connects)
  · intro listed gate unit member name pad isPin connects
    have isGate := (List.of_mem_zip member).1
    exact (drawDevice_pads connected made member _ _).2 (listed gate isGate name pad isPin connects)
  · intro gate unit member pin isPin
    obtain ⟨name, has, label, first⟩ := (drawDevice_pads connected made member _ _).1 ⟨pin, isPin, rfl, rfl⟩
    exact ⟨name, has, label, first.connects⟩

/-- A library with a symbol of one pin. -/
def groundLibrary : Eagle.Library where
  name := "a"
  symbols := [("S", ⟨"S", [.pin ⟨"GND", ⟨0, 0⟩, none, none, none, none, none⟩]⟩)]
  deviceSets := []

/-- A device set with one gate that is drawn by that symbol. -/
def groundSet : Eagle.DeviceSet := ⟨"X", "U", [⟨"G", "S", ⟨0, 0⟩⟩], []⟩

/-- A device that connects the pin to two pads at once. -/
def twoPadDevice : Eagle.Device := ⟨"", some "P", [⟨"G", "GND", "4 8"⟩]⟩

/-- A device that connects the pin to the two pads one after the other. -/
def twoConnectDevice : Eagle.Device := ⟨"", some "P", [⟨"G", "GND", "4"⟩, ⟨"G", "GND", "8"⟩]⟩

theorem twoPadDevice_keeps_pads : ∃ report symbol,
    drawDevice groundLibrary groundSet twoPadDevice = .ok ⟨report, .ok symbol⟩ ∧
    symbol.units.length = groundSet.gates.length ∧
    ∀ gate unit, (gate, unit) ∈ groundSet.gates.zip symbol.units → ∀ name pad, gate.HasPin groundLibrary name →
      twoPadDevice.Connects gate.name name pad → HasPad unit.pins (Name.label name) pad := by
  obtain ⟨report, symbol, made, _⟩ : ∃ report symbol,
      drawDevice groundLibrary groundSet twoPadDevice = .ok ⟨report, .ok symbol⟩ ∧ true :=
    drawDevice_of_any (fun _ => true) (by decide +kernel)
  obtain ⟨length, kept, _⟩ := pads_kept_iff made (by simp [twoPadDevice])
  refine ⟨report, symbol, made, length, kept.2 ?_⟩
  intro gate _ name pad isPin connects
  exact ⟨name, isPin, rfl, connects.first (List.pairwise_singleton ..)⟩

/-- The second connection of a pin is passed over. -/
theorem not_all_pads_kept : ¬ ∀ (library : Eagle.Library) (deviceSet : Eagle.DeviceSet) (device : Eagle.Device)
    (report : Report) (symbol : Symbol), drawDevice library deviceSet device = .ok ⟨report, .ok symbol⟩ →
    device.connects ≠ [] → ∀ gate unit, (gate, unit) ∈ deviceSet.gates.zip symbol.units → ∀ name pad,
    gate.HasPin library name → device.Connects gate.name name pad → HasPad unit.pins (Name.label name) pad := by
  intro claim
  obtain ⟨report, symbol, made, numbers⟩ : ∃ report symbol,
      drawDevice groundLibrary groundSet twoConnectDevice = .ok ⟨report, .ok symbol⟩ ∧
      decide (symbol.units.map (fun unit => unit.pins.map (·.number)) = [["4"]]) :=
    drawDevice_of_any _ (by decide +kernel)
  obtain ⟨unit, units, pads⟩ := List.map_eq_singleton_iff.1 (of_decide_eq_true numbers)
  have member : (⟨"G", "S", ⟨0, 0⟩⟩, unit) ∈ groundSet.gates.zip symbol.units := by
    rw [units]
    exact .head _
  have isPin : Eagle.Gate.HasPin ⟨"G", "S", ⟨0, 0⟩⟩ groundLibrary "GND" := ⟨_, rfl, _, .head _, rfl⟩
  have connects : twoConnectDevice.Connects "G" "GND" "8" := ⟨_, .tail _ (.head _), rfl, rfl, by decide +kernel⟩
  obtain ⟨pin, among, _, number⟩ :=
    claim _ _ _ _ _ made (by simp [twoConnectDevice]) _ unit member _ _ isPin connects
  have listed := List.mem_map_of_mem (f := fun pin : Pin => pin.number) among
  rw [pads, number] at listed
  simp at listed

end Redraft
