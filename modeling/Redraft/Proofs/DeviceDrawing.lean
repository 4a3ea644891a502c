import Redraft.Proofs.Drafting
import Redraft.Symbol.Device

/-!
# The drawing of a device

Each item of a gate's symbol adds graphics or pins and may place a field. So the
fields of a device's symbol keep their keys, and each of its pins comes from a pin
item of the symbol of one of its gates.
-/

namespace Redraft

/-! ## Fields -/

/-- The keys and values of some fields. -/
def fieldValues {α : Type} (fields : List (Field α)) : Entries String String := fields.map fun f => (f.key, f.value)

section Fields
variable {α : Type} {key : String} {fields : List (Field α)} {f : Field α → Field α}

/-- What a change keeps of each field, it keeps of all fields. -/
theorem changeField_map {β : Type} {g : Field α → β} (keeps : ∀ x, g (f x) = g x) :
    (changeField key f fields).map g = fields.map g := by
  induction fields with
  | nil => rfl
  | cons field fields ih =>
    unfold changeField
    split
    · rw [List.map_cons, List.map_cons, keeps]
    · rw [List.map_cons, List.map_cons, ih]

theorem hideField_keys : (hideField key fields).map (·.key) = fields.map (·.key) := changeField_map fun _ => rfl

/-- What is made of some fields is found under a key where the first field of that key is. -/
theorem get?_map_key (made : Field α → String) (fields : List (Field α)) (key : String) :
    Entries.get? (fields.map fun f => (f.key, made f)) key = (fieldOf? fields key).map made := by
  induction fields with
  | nil => rfl
  | cons field fields ih =>
    unfold Entries.get? fieldOf? at ih ⊢
    rw [List.map_cons, List.lookup_cons, List.find?_cons]
    by_cases same : field.key = key
    · simp [same]
    · have other : (field.key == key) = false := beq_eq_false_iff_ne.2 same
      have other' : (key == field.key) = false := beq_eq_false_iff_ne.2 (Ne.symm same)
      simp only [other, other']
      exact ih

end Fields

/-! ## Items -/

/-- The two texts of a symbol that hold the place of a field. -/
inductive Placeholder where
  | name
  | value
deriving DecidableEq

namespace Placeholder

def text : Placeholder → String
  | name => ">NAME"
  | value => ">VALUE"

def key : Placeholder → String
  | name => "Reference"
  | value => "Value"

theorem text_inj {p q : Placeholder} : p.text = q.text ↔ p = q := by
  cases p <;> cases q <;> simp [text]

theorem key_inj {p q : Placeholder} : p.key = q.key ↔ p = q := by
  cases p <;> cases q <;> simp [key]

end Placeholder

/-- The item is a text that holds the place of a field. -/
def Eagle.Item.holds (ph : Placeholder) : Eagle.Item → Bool
  | .text t => Text.upper (Text.trimmed t.text) == ph.text
  | _ => false

/-- A pin of a symbol is drawn for a pin item of a gate. -/
def Eagle.Pin.Draws (p : Eagle.Pin) (device : Eagle.Device) (gate : String) (pin : Redraft.Pin) : Prop :=
  ∃ count report drawn, p.draw = .ok (report, drawn) ∧ pin ∈ UnitDrawing.numberedPins device gate count drawn

namespace UnitDrawing
variable {device : Eagle.Device} {gate key : String} {d d' : UnitDrawing}

/-- The drawing with the mark that a field has been placed. -/
def mark (d : UnitDrawing) : Placeholder → UnitDrawing
  | .name => { d with hasName := true }
  | .value => { d with hasValue := true }

@[simp] theorem fields_mark (d : UnitDrawing) (ph : Placeholder) : (d.mark ph).fields = d.fields := by
  cases ph <;> rfl

@[simp] theorem pins_mark (d : UnitDrawing) (ph : Placeholder) : (d.mark ph).pins = d.pins := by
  cases ph <;> rfl

@[simp] theorem report_mark (d : UnitDrawing) (ph : Placeholder) : (d.mark ph).report = d.report := by
  cases ph <;> rfl

theorem placeField_ok {t : Eagle.Text} (ran : d.placeField key t = .ok d') :
    d'.fields.map (·.key) = d.fields.map (·.key) ∧ d'.pins = d.pins ∧ d'.report = d.report := by
  obtain ⟨style, _, same⟩ := bind_ok.1 ran
  cases same
  exact ⟨changeField_map fun _ => rfl, rfl, rfl⟩

/-- An item adds pins, or places a field, or adds graphics. -/
theorem addItem_cases {item : Eagle.Item} (ran : addItem device gate d item = .ok d') :
    (∃ p warnings pin, item = .pin p ∧ p.draw = .ok (warnings, pin) ∧ d' = { d with
      pinCount := d.pinCount + 1
      isSupply := d.isSupply || p.isSupply
      pins := d.pins ++ numberedPins device gate (d.pinCount + 1) pin
      report := d.report ++ warnings }) ∨
    (∃ t ph middle, item = .text t ∧ Text.upper (Text.trimmed t.text) = ph.text ∧
      d.placeField ph.key t = .ok middle ∧ d' = middle.mark ph) ∨
    ((∀ p, item ≠ .pin p) ∧ (∀ ph, item.holds ph = false) ∧ ∃ graphics, d' = d.addGraphics graphics) := by
  cases item with
  | pin p =>
    obtain ⟨⟨warnings, pin⟩, drawn, same⟩ := bind_ok.1 ran
    exact .inl ⟨p, warnings, pin, rfl, drawn, (Except.ok.inj same).symm⟩
  | text t =>
    simp only [addItem] at ran
    by_cases name : Text.upper (Text.trimmed t.text) = ">NAME"
    · rw [if_pos name] at ran
      obtain ⟨middle, placed, same⟩ := bind_ok.1 ran
      exact .inr (.inl ⟨t, .name, middle, rfl, name, placed, (Except.ok.inj same).symm⟩)
    · rw [if_neg name] at ran
      by_cases value : Text.upper (Text.trimmed t.text) = ">VALUE"
      · rw [if_pos value] at ran
        obtain ⟨middle, placed, same⟩ := bind_ok.1 ran
        exact .inr (.inl ⟨t, .value, middle, rfl, value, placed, (Except.ok.inj same).symm⟩)
      · rw [if_neg value] at ran
        obtain ⟨graphic, _, same⟩ := bind_ok.1 ran
        refine .inr (.inr ⟨by simp, ?_, [graphic], (Except.ok.inj same).symm⟩)
        intro ph
        cases ph with
        | name => exact beq_eq_false_iff_ne.2 name
        | value => exact beq_eq_false_iff_ne.2 value
  | wire w =>
    obtain ⟨graphic, _, same⟩ := bind_ok.1 ran
    exact .inr (.inr ⟨by simp, fun _ => rfl, graphic.toList, (Except.ok.inj same).symm⟩)
  | frame f =>
    obtain ⟨graphics, _, same⟩ := bind_ok.1 ran
    exact .inr (.inr ⟨by simp, fun _ => rfl, graphics, (Except.ok.inj same).symm⟩)
  | circle c => exact .inr (.inr ⟨by simp, fun _ => rfl, [c.graphic], (Except.ok.inj ran).symm⟩)
  | polygon p => exact .inr (.inr ⟨by simp, fun _ => rfl, [p.graphic], (Except.ok.inj ran).symm⟩)
  | rectangle r => exact .inr (.inr ⟨by simp, fun _ => rfl, [r.graphic], (Except.ok.inj ran).symm⟩)
  | _ => exact .inr (.inr ⟨by simp, fun _ => rfl, [], by simp [← Except.ok.inj ran, addGraphics]⟩)

/-- An item keeps the keys of the fields, and adds no pins but those drawn for it. -/
theorem addItem_ok {item : Eagle.Item} (ran : addItem device gate d item = .ok d') :
    d'.fields.map (·.key) = d.fields.map (·.key) ∧
      ∀ pin ∈ d'.pins, pin ∈ d.pins ∨ ∃ p, item = .pin p ∧ p.Draws device gate pin := by
  rcases addItem_cases ran with ⟨p, _, _, rfl, drawn, rfl⟩ | ⟨_, ph, middle, rfl, _, placed, rfl⟩ | ⟨_, _, _, rfl⟩
  · refine ⟨rfl, fun pin member => (List.mem_append.1 member).imp_right fun added => ?_⟩
    exact ⟨p, rfl, _, _, _, drawn, added⟩
  · obtain ⟨keys, pins, _⟩ := placeField_ok placed
    rw [fields_mark, pins_mark, pins]
    exact ⟨keys, fun pin member => .inl member⟩
  · exact ⟨rfl, fun pin member => .inl member⟩

theorem foldlM_addItem_ok {items : List Eagle.Item} (ran : items.foldlM (addItem device gate) d = .ok d') :
    d'.fields.map (·.key) = d.fields.map (·.key) ∧
      ∀ pin ∈ d'.pins, pin ∈ d.pins ∨ ∃ p, .pin p ∈ items ∧ p.Draws device gate pin := by
  induction items generalizing d with
  | nil =>
    cases ran
    exact ⟨rfl, fun pin member => .inl member⟩
  | cons item items ih =>
    rw [List.foldlM_cons] at ran
    obtain ⟨middle, first, rest⟩ := bind_ok.1 ran
    obtain ⟨keys, pins⟩ := addItem_ok first
    obtain ⟨keys', pins'⟩ := ih rest
    refine ⟨keys'.trans keys, fun pin member => ?_⟩
    rcases pins' pin member with earlier | ⟨p, isItem, draws⟩
    · rcases pins pin earlier with before | ⟨p, rfl, draws⟩
      · exact .inl before
      · exact .inr ⟨p, .head _, draws⟩
    · exact .inr ⟨p, .tail _ isItem, draws⟩

/-- The pins of a gate's unit are drawn for the pin items of its symbol. -/
theorem ofItems_ok {fields : List (Field (Option Point))} {items : List Eagle.Item}
    (ran : ofItems device gate fields items = .ok d) :
    d.fields.map (·.key) = fields.map (·.key) ∧ ∀ pin ∈ d.pins, ∃ p, .pin p ∈ items ∧ p.Draws device gate pin := by
  obtain ⟨drawn, isDrawn, same⟩ := bind_ok.1 ran
  cases same
  obtain ⟨keys, pins⟩ := foldlM_addItem_ok isDrawn
  refine ⟨?_, fun pin member => (pins pin member).resolve_left nofun⟩
  dsimp only
  rw [← keys]
  split <;> split <;> simp only [hideField_keys]

end UnitDrawing

/-! ## Gates -/

/-- Gates drawn one after the other: each on the fields that the one before it leaves. -/
inductive DrawnInTurn (library : Eagle.Library) (device : Eagle.Device) :
    List (Field (Option Point)) → List Eagle.Gate → List UnitDrawing → List (Field (Option Point)) → Prop
  | nil {fields : List (Field (Option Point))} : DrawnInTurn library device fields [] [] fields
  | cons {fields last : List (Field (Option Point))} {gate : Eagle.Gate} {gates : List Eagle.Gate}
      {source : Eagle.Symbol} {u : UnitDrawing} {units : List UnitDrawing}
      (found : library.symbols.get? gate.symbol = some source)
      (drawn : UnitDrawing.ofItems device gate.name fields source.items = .ok u)
      (rest : DrawnInTurn library device u.fields gates units last) :
      DrawnInTurn library device fields (gate :: gates) (u :: units) last

section Gates
variable {library : Eagle.Library} {deviceSet : Eagle.DeviceSet} {device : Eagle.Device} {gates : List Eagle.Gate}

namespace DrawnInTurn
variable {fields last : List (Field (Option Point))} {units : List UnitDrawing}

theorem keys (run : DrawnInTurn library device fields gates units last) :
    last.map (·.key) = fields.map (·.key) := by
  induction run with
  | nil => rfl
  | cons _ drawn _ ih => exact ih.trans (UnitDrawing.ofItems_ok drawn).1

theorem length (run : DrawnInTurn library device fields gates units last) : units.length = gates.length := by
  induction run with
  | nil => rfl
  | cons _ _ _ ih => rw [List.length_cons, List.length_cons, ih]

/-- Each unit is drawn from the items of its gate's symbol. -/
theorem unit (run : DrawnInTurn library device fields gates units last) {gate : Eagle.Gate} {u : UnitDrawing}
    (member : (gate, u) ∈ gates.zip units) : ∃ source fields, library.symbols.get? gate.symbol = some source ∧
      UnitDrawing.ofItems device gate.name fields source.items = .ok u := by
  induction run with
  | nil => cases member
  | cons found drawn _ ih =>
    rcases List.mem_cons.1 member with here | later
    · obtain ⟨rfl, rfl⟩ := Prod.mk.inj here
      exact ⟨_, _, found, drawn⟩
    · exact ih later

end DrawnInTurn

theorem drawGates_inTurn {d d' : SymbolDrawing} (ran : drawGates library deviceSet device d gates = .ok (d', none)) :
    ∃ units, DrawnInTurn library device d.fields gates units d'.fields ∧
      d'.units.map (·.pins) = d.units.map (·.pins) ++ units.map (·.pins) := by
  induction gates generalizing d with
  | nil =>
    cases ran
    exact ⟨[], .nil, by simp⟩
  | cons gate gates ih =>
    unfold drawGates at ran
    split at ran
    · cases ran
    · rename_i source found
      obtain ⟨u, isUnit, rest⟩ := bind_ok.1 ran
      obtain ⟨units, drawn, pins⟩ := ih rest
      exact ⟨u :: units, .cons found isUnit drawn, by simpa using pins⟩

section Made
variable {report : Report} {symbol : Symbol}

/-- A device's symbol has the units of its gates. Its fields are as the last gate leaves them, but that of a
    supply symbol hides its reference. -/
theorem drawDevice_inTurn (made : drawDevice library deviceSet device = .ok ⟨report, .ok symbol⟩) :
    ∃ units fields, DrawnInTurn library device
        (deviceFields (Name.symbolKey deviceSet.name device.name) deviceSet.refPrefix device)
        deviceSet.gates units fields ∧
      symbol.units.map (·.pins) = units.map (·.pins) ∧
      symbol.fields = if symbol.isPower then hideField "Reference" fields else fields := by
  obtain ⟨⟨d, missing⟩, drawn, made⟩ := bind_ok.1 made
  cases missing with
  | some failure =>
    have none := (DeviceResult.mk.inj (Except.ok.inj made)).2
    cases none
  | none =>
    obtain rfl := Except.ok.inj (DeviceResult.mk.inj (Except.ok.inj made)).2
    obtain ⟨units, inTurn, pins⟩ := drawGates_inTurn drawn
    exact ⟨units, d.fields, inTurn, pins, rfl⟩

/-- There is one unit for each gate, with the pins that are drawn from the items of the gate's symbol. -/
theorem drawDevice_units (made : drawDevice library deviceSet device = .ok ⟨report, .ok symbol⟩) :
    symbol.units.length = deviceSet.gates.length ∧
      ∀ gate unit, (gate, unit) ∈ deviceSet.gates.zip symbol.units → ∃ source fields u,
        library.symbols.get? gate.symbol = some source ∧
        UnitDrawing.ofItems device gate.name fields source.items = .ok u ∧ unit.pins = u.pins := by
  obtain ⟨units, _, run, pins, _⟩ := drawDevice_inTurn made
  refine ⟨?_, fun gate unit member => ?_⟩
  · have lengths := congrArg List.length pins
    rwa [List.length_map, List.length_map, run.length] at lengths
  · have zipped : (gate, unit.pins) ∈ deviceSet.gates.zip (units.map (·.pins)) := by
      rw [← pins, List.zip_map_right]
      exact List.mem_map_of_mem member
    rw [List.zip_map_right] at zipped
    obtain ⟨⟨_, u⟩, member', same⟩ := List.mem_map.1 zipped
    obtain ⟨rfl, samePins⟩ := Prod.mk.inj same
    obtain ⟨source, fields, found, drawn⟩ := run.unit member'
    exact ⟨source, fields, u, found, drawn, samePins.symm⟩

/-- A pin of a device's symbol is drawn for a pin item of one of its gates. -/
def DrawnFor (library : Eagle.Library) (deviceSet : Eagle.DeviceSet) (device : Eagle.Device) (p : Eagle.Pin)
    (pin : Pin) : Prop :=
  ∃ gate ∈ deviceSet.gates, ∃ source, library.symbols.get? gate.symbol = some source ∧ .pin p ∈ source.items ∧
    p.Draws device gate.name pin

/-- A device's symbol has the four fields it started with, and each of its pins is drawn for a pin item. -/
theorem drawDevice_ok (made : drawDevice library deviceSet device = .ok ⟨report, .ok symbol⟩) :
    symbol.fields.map (·.key) = ["Reference", "Value", "Footprint", "Datasheet"] ∧
      ∀ unit, ∀ pin ∈ symbol.pins unit, ∃ p, DrawnFor library deviceSet device p pin := by
  refine ⟨?_, fun unit pin member => ?_⟩
  · obtain ⟨_, _, run, _, fields⟩ := drawDevice_inTurn made
    rw [fields]
    split
    · rw [hideField_keys, run.keys]
      rfl
    · rw [run.keys]
      rfl
  · obtain ⟨length, units⟩ := drawDevice_units made
    obtain ⟨u, isUnit, isPin⟩ := List.mem_flatMap.1 member
    have among := (List.mem_filter.1 isUnit).1
    rw [← List.map_snd_zip (Nat.le_of_eq length)] at among
    obtain ⟨⟨gate, u⟩, zipped, rfl⟩ := List.mem_map.1 among
    obtain ⟨source, _, drawing, found, drawn, pins⟩ := units gate u zipped
    obtain ⟨p, isItem, draws⟩ := (UnitDrawing.ofItems_ok drawn).2 pin (pins ▸ isPin)
    exact ⟨p, gate, (List.of_mem_zip zipped).1, source, found, isItem, draws⟩

end Made

/-- A symbol that is drawn and passes a test. -/
theorem drawDevice_of_any (test : Symbol → Bool)
    (passes : (drawDevice library deviceSet device).toOption.any fun result => result.symbol.toOption.any test) :
    ∃ report symbol, drawDevice library deviceSet device = .ok ⟨report, .ok symbol⟩ ∧ test symbol := by
  obtain ⟨⟨report, drawn⟩, made, passes⟩ := (Option.any_eq_true ..).1 passes
  obtain ⟨symbol, isSymbol, passes⟩ := (Option.any_eq_true ..).1 passes
  obtain rfl := ok_of_toOption isSymbol
  exact ⟨report, symbol, ok_of_toOption made, passes⟩

end Gates

end Redraft
