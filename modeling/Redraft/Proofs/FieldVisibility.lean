import Redraft.Proofs.DeviceDrawing

/-!
# Visible fields

A text of a symbol that holds the place of a field makes the field visible, and a
gate whose symbol has no such text hides it. The gates of a device share its
fields, so that the last gate decides, whatever the gates before it hold.
-/

namespace Redraft

/-- A field is there, and its text is not hidden. -/
def shows {α : Type} (fields : List (Field α)) (key : String) : Bool :=
  (fieldOf? fields key).any fun f => !f.effects.hide

section Fields
variable {α : Type} {fields : List (Field α)} {key other : String}

theorem fieldOf?_changeField_self {f : Field α → Field α} (keeps : ∀ x, (f x).key = x.key) :
    fieldOf? (changeField key f fields) key = (fieldOf? fields key).map f := by
  induction fields with
  | nil => rfl
  | cons field fields ih =>
    unfold fieldOf? at ih ⊢
    by_cases same : field.key = key
    · simp [changeField, same, keeps]
    · simp [changeField, same, ih]

theorem fieldOf?_changeField_ne {f : Field α → Field α} (keeps : ∀ x, (f x).key = x.key) (ne : other ≠ key) :
    fieldOf? (changeField key f fields) other = fieldOf? fields other := by
  induction fields with
  | nil => rfl
  | cons field fields ih =>
    unfold fieldOf? at ih ⊢
    by_cases same : field.key = key
    · simp [changeField, same, keeps, Ne.symm ne]
    · simp [changeField, same, ih, List.find?_cons]

theorem shows_changeField_ne {f : Field α → Field α} (keeps : ∀ x, (f x).key = x.key) (ne : other ≠ key) :
    shows (changeField key f fields) other = shows fields other := by
  rw [shows, fieldOf?_changeField_ne keeps ne, shows]

theorem shows_hideField_self : shows (hideField key fields) key = false := by
  have hidden : fieldOf? (hideField key fields) key = (fieldOf? fields key).map Field.hidden :=
    fieldOf?_changeField_self fun _ => rfl
  rw [shows, hidden]
  cases fieldOf? fields key <;> simp [Field.hidden]

theorem shows_hideField_ne (ne : other ≠ key) : shows (hideField key fields) other = shows fields other :=
  shows_changeField_ne (fun _ => rfl) ne

/-- A field that is hidden unless a mark is set. -/
theorem shows_hideUnless (mark : Bool) : shows (if mark then fields else hideField key fields) other =
    if other = key then mark && shows fields key else shows fields other := by
  by_cases same : other = key
  · subst same
    cases mark <;> simp [shows_hideField_self]
  · cases mark <;> simp [same, shows_hideField_ne]

theorem fieldOf?_isSome : (fieldOf? fields key).isSome ↔ key ∈ fields.map (·.key) := by
  simp [fieldOf?, List.find?_isSome]

end Fields

/-! ## Texts that hold places -/

/-- A text of the symbol holds the place of a field. -/
def Eagle.Symbol.holds (ph : Placeholder) (s : Eagle.Symbol) : Bool := s.items.any (·.holds ph)

namespace UnitDrawing
variable {device : Eagle.Device} {gate : String} {d d' : UnitDrawing} {ph : Placeholder}

/-- A text that holds the place of the field has been drawn. -/
def has (d : UnitDrawing) : Placeholder → Bool
  | .name => d.hasName
  | .value => d.hasValue

theorem has_mark (d : UnitDrawing) (p q : Placeholder) : (d.mark p).has q = (d.has q || decide (p = q)) := by
  cases p <;> cases q <;> simp [mark, has]

/-- A field that is placed is visible, and no other one is changed. -/
theorem placeField_shows {key : String} {t : Eagle.Text} (ran : d.placeField key t = .ok d') :
    (key ∈ d.fields.map (·.key) → shows d'.fields key) ∧
      (∀ other, other ≠ key → shows d'.fields other = shows d.fields other) ∧ d'.has = d.has := by
  obtain ⟨style, _, same⟩ := bind_ok.1 ran
  cases same
  refine ⟨?_, ?_, ?_⟩
  · intro present
    obtain ⟨field, found⟩ := Option.isSome_iff_exists.1 (fieldOf?_isSome.2 present)
    unfold shows
    rw [fieldOf?_changeField_self, found]
    · rfl
    · exact fun _ => rfl
  · intro other ne
    exact shows_changeField_ne (fun _ => rfl) ne
  · funext ph
    cases ph <;> rfl

/-- A text that held the place of a field has made the field visible, if it is there. -/
def ShownIf (ph : Placeholder) (d : UnitDrawing) : Prop :=
  ph.key ∈ d.fields.map (·.key) → d.has ph → shows d.fields ph.key

theorem addItem_shown {item : Eagle.Item} (ran : addItem device gate d item = .ok d') (shown : d.ShownIf ph) :
    d'.has ph = (d.has ph || item.holds ph) ∧ d'.ShownIf ph := by
  have keys := (addItem_ok ran).1
  have kept (fields : d'.fields = d.fields) (has : d'.has ph = d.has ph) (other : item.holds ph = false) :
      d'.has ph = (d.has ph || item.holds ph) ∧ d'.ShownIf ph := by
    rw [ShownIf, fields, has, other, Bool.or_false]
    exact ⟨rfl, shown⟩
  rcases addItem_cases ran with ⟨p, _, _, rfl, _, rfl⟩ | ⟨t, q, middle, rfl, text, placed, rfl⟩ | ⟨_, other, _, rfl⟩
  · exact kept rfl (by cases ph <;> rfl) rfl
  · obtain ⟨here, others, has⟩ := placeField_shows placed
    have holds : Eagle.Item.holds ph (.text t) = decide (q = ph) := by
      rw [Eagle.Item.holds, text, Bool.eq_iff_iff, beq_iff_eq, decide_eq_true_iff, Placeholder.text_inj]
    refine ⟨by rw [has_mark, has, holds], ?_⟩
    unfold ShownIf
    rw [keys, fields_mark, has_mark, has]
    intro present held
    by_cases same : q = ph
    · subst same
      exact here present
    · rw [others _ fun key => same (Placeholder.key_inj.1 key.symm)]
      exact shown present (by simpa [same] using held)
  · exact kept rfl (by cases ph <;> rfl) (other ph)

theorem foldlM_addItem_shown {items : List Eagle.Item} (ran : items.foldlM (addItem device gate) d = .ok d')
    (shown : d.ShownIf ph) : d'.has ph = (d.has ph || items.any (·.holds ph)) ∧ d'.ShownIf ph := by
  induction items generalizing d with
  | nil =>
    cases ran
    exact ⟨by simp, shown⟩
  | cons item items ih =>
    rw [List.foldlM_cons] at ran
    obtain ⟨middle, first, rest⟩ := bind_ok.1 ran
    obtain ⟨has, shown⟩ := addItem_shown first shown
    obtain ⟨has', shown'⟩ := ih rest shown
    refine ⟨?_, shown'⟩
    rw [has', has, List.any_cons, Bool.or_assoc]

/-- A gate makes a field visible if its symbol holds the place of the field, and hides it otherwise. -/
theorem ofItems_shows {fields : List (Field (Option Point))} {items : List Eagle.Item}
    (ran : ofItems device gate fields items = .ok d') (present : ph.key ∈ fields.map (·.key)) :
    shows d'.fields ph.key = items.any (·.holds ph) := by
  obtain ⟨drawn, isDrawn, same⟩ := bind_ok.1 ran
  cases same
  have start : UnitDrawing.ShownIf ph { fields } := by
    intro _ held
    cases ph <;> cases held
  obtain ⟨has, shown⟩ := foldlM_addItem_shown isDrawn start
  have nothing : ({ fields } : UnitDrawing).has ph = false := by cases ph <;> rfl
  rw [nothing, Bool.false_or] at has
  rw [← (foldlM_addItem_ok isDrawn).1] at present
  have settled : (drawn.has ph && shows drawn.fields ph.key) = drawn.has ph := by
    cases held : drawn.has ph with
    | false => rfl
    | true => exact shown present held
  rw [← has, ← settled]
  cases ph <;> simp [shows_hideUnless, UnitDrawing.has, Placeholder.key]

end UnitDrawing

/-! ## The last gate -/

section Gates
variable {library : Eagle.Library} {deviceSet : Eagle.DeviceSet} {device : Eagle.Device} {ph : Placeholder}

/-- The symbols of some gates, in the order of the gates. -/
def gateSymbols (library : Eagle.Library) (gates : List Eagle.Gate) : List Eagle.Symbol :=
  gates.filterMap fun gate => library.symbols.get? gate.symbol

theorem gateSymbols_cons {gate : Eagle.Gate} {gates : List Eagle.Gate} {source : Eagle.Symbol}
    (found : library.symbols.get? gate.symbol = some source) :
    gateSymbols library (gate :: gates) = source :: gateSymbols library gates :=
  List.filterMap_cons_some found

/-- The symbol of a gate holds the place of the field. -/
def SomeHolds (library : Eagle.Library) (gates : List Eagle.Gate) (ph : Placeholder) : Prop :=
  ∃ source ∈ gateSymbols library gates, source.holds ph

/-- The symbol of the last gate holds the place of the field. -/
def LastHolds (library : Eagle.Library) (gates : List Eagle.Gate) (ph : Placeholder) : Prop :=
  ∃ source ∈ (gateSymbols library gates).getLast?, source.holds ph

instance (gates : List Eagle.Gate) : Decidable (SomeHolds library gates ph) :=
  inferInstanceAs (Decidable (∃ source ∈ gateSymbols library gates, _))

instance (gates : List Eagle.Gate) : Decidable (LastHolds library gates ph) :=
  inferInstanceAs (Decidable (∃ source ∈ (gateSymbols library gates).getLast?, _))

theorem LastHolds.some {gates : List Eagle.Gate} (last : LastHolds library gates ph) : SomeHolds library gates ph := by
  obtain ⟨source, isLast, holds⟩ := last
  exact ⟨source, List.mem_of_getLast? isLast, holds⟩

theorem lastHolds_cons {gate : Eagle.Gate} {gates : List Eagle.Gate} {source : Eagle.Symbol}
    (found : library.symbols.get? gate.symbol = some source) :
    LastHolds library (gate :: gates) ph ↔
      LastHolds library gates ph ∨ gateSymbols library gates = [] ∧ source.holds ph := by
  rw [LastHolds, LastHolds, gateSymbols_cons found]
  cases gateSymbols library gates <;> simp [List.getLast?_cons_cons]

/-- Of the gates drawn in turn the last one decides whether a field is shown. Without gates the field stays as it is. -/
theorem DrawnInTurn.shows_iff {fields last : List (Field (Option Point))} {gates : List Eagle.Gate}
    {units : List UnitDrawing} (run : DrawnInTurn library device fields gates units last)
    (ph : Placeholder) (present : ph.key ∈ fields.map (·.key)) :
    shows last ph.key ↔ LastHolds library gates ph ∨ gates = [] ∧ shows fields ph.key := by
  induction run with
  | nil => simp [LastHolds, gateSymbols]
  | @cons fields last gate gates source u units found drawn rest ih =>
    have keys := (UnitDrawing.ofItems_ok drawn).1
    have here : shows u.fields ph.key = source.holds ph := UnitDrawing.ofItems_shows drawn present
    have none : gateSymbols library gates = [] ↔ gates = [] := by
      cases rest with
      | nil => simp [gateSymbols]
      | cons found' _ _ => simp [gateSymbols_cons found']
    rw [ih (keys ▸ present), lastHolds_cons found, here, none]
    simp

/-- The last gate decides which fields are shown, but a symbol without gates shows its value, and its reference if
    there is a prefix. -/
theorem drawDevice_shows {report : Report} {symbol : Symbol}
    (made : drawDevice library deviceSet device = .ok ⟨report, .ok symbol⟩) :
    (shows symbol.fields "Value" ↔ LastHolds library deviceSet.gates .value ∨ deviceSet.gates = []) ∧
      (shows symbol.fields "Reference" ↔
        (LastHolds library deviceSet.gates .name ∨ deviceSet.gates = [] ∧ deviceSet.refPrefix ≠ "") ∧
          symbol.isPower = false) := by
  obtain ⟨units, fields, inTurn, _, same⟩ := drawDevice_inTurn made
  have value := inTurn.shows_iff .value (by simp [deviceFields, unplacedField, Placeholder.key])
  have reference := inTurn.shows_iff .name (by simp [deviceFields, unplacedField, Placeholder.key])
  have shownValue : shows (deviceFields (Name.symbolKey deviceSet.name device.name) deviceSet.refPrefix device)
      "Value" = true := by
    simp [shows, fieldOf?, deviceFields, unplacedField]
  have shownReference : shows (deviceFields (Name.symbolKey deviceSet.name device.name) deviceSet.refPrefix device)
      "Reference" = !deviceSet.refPrefix.isEmpty := by
    simp [shows, fieldOf?, deviceFields, unplacedField]
  simp only [Placeholder.key, shownValue, shownReference] at value reference
  rw [same]
  cases power : symbol.isPower with
  | false => simpa using And.intro value reference
  | true =>
    refine ⟨?_, ?_⟩
    · rw [if_pos rfl, shows_hideField_ne (by decide), value]
      simp
    · simp [shows_hideField_self]

end Gates

/-- When the texts of all gates decide which fields are visible: the last gate must tell the same as all of them
    together, and must not show a reference without a prefix. -/
theorem shown_for_any_gate_iff {library : Eagle.Library} {deviceSet : Eagle.DeviceSet} {device : Eagle.Device}
    {report : Report} {symbol : Symbol} (made : drawDevice library deviceSet device = .ok ⟨report, .ok symbol⟩) :
    ((shows symbol.fields "Value" ↔ SomeHolds library deviceSet.gates .value) ↔
      deviceSet.gates ≠ [] ∧ (SomeHolds library deviceSet.gates .value → LastHolds library deviceSet.gates .value)) ∧
    ((shows symbol.fields "Reference" ↔ SomeHolds library deviceSet.gates .name ∧ deviceSet.refPrefix ≠ "" ∧
        symbol.isPower = false) ↔
      symbol.isPower = true ∨
      deviceSet.refPrefix = "" ∧ ¬ LastHolds library deviceSet.gates .name ∨
      deviceSet.refPrefix ≠ "" ∧ deviceSet.gates ≠ [] ∧
        (SomeHolds library deviceSet.gates .name → LastHolds library deviceSet.gates .name)) := by
  obtain ⟨value, reference⟩ := drawDevice_shows made
  have some (ph : Placeholder) : LastHolds library deviceSet.gates ph → SomeHolds library deviceSet.gates ph :=
    LastHolds.some
  have gate (ph : Placeholder) : SomeHolds library deviceSet.gates ph → deviceSet.gates ≠ [] := by
    rintro ⟨source, member, _⟩ none
    rw [none] at member
    cases member
  rw [value, reference]
  constructor
  · have last := some .value
    have any := gate .value
    by_cases none : deviceSet.gates = [] <;> grind
  · have last := some .name
    have any := gate .name
    cases symbol.isPower with
    | true => simp
    | false => by_cases bare : deviceSet.refPrefix = "" <;> grind

/-- A library with one symbol that holds the places of both fields and one that holds none. -/
def unlikeSymbols : Eagle.Library where
  name := "a"
  symbols :=
    let holding (text : String) : Eagle.Item := .text ⟨text, ⟨0, 0⟩, 17780, 95, none, none, none, none⟩
    [("S", ⟨"S", [holding " >Name ", holding ">value"]⟩), ("T", ⟨"T", []⟩)]
  deviceSets := []

/-- A device set with two gates of the given symbols. -/
def twoGates (first second : String) : Eagle.DeviceSet := ⟨"X", "U", [⟨"A", first, ⟨0, 0⟩⟩, ⟨"B", second, ⟨0, 0⟩⟩], []⟩

theorem twoGates_shown : ∃ report symbol,
    drawDevice unlikeSymbols (twoGates "T" "S") ⟨"", none, []⟩ = .ok ⟨report, .ok symbol⟩ ∧
    (shows symbol.fields "Value" ↔ SomeHolds unlikeSymbols (twoGates "T" "S").gates .value) ∧
    (shows symbol.fields "Reference" ↔ SomeHolds unlikeSymbols (twoGates "T" "S").gates .name ∧ "U" ≠ "" ∧
      symbol.isPower = false) := by
  obtain ⟨report, symbol, made, _⟩ : ∃ report symbol,
      drawDevice unlikeSymbols (twoGates "T" "S") ⟨"", none, []⟩ = .ok ⟨report, .ok symbol⟩ ∧ true :=
    drawDevice_of_any (fun _ => true) (by decide +kernel)
  obtain ⟨value, reference⟩ := shown_for_any_gate_iff made
  refine ⟨report, symbol, made, value.2 ?_, reference.2 (.inr (.inr ?_))⟩
  · decide +kernel
  · decide +kernel

/-- A gate that holds no places hides the fields again that the gate before it has shown. -/
theorem not_all_placeholders_shown : ¬ ∀ (library : Eagle.Library) (deviceSet : Eagle.DeviceSet)
    (device : Eagle.Device) (report : Report) (symbol : Symbol),
    drawDevice library deviceSet device = .ok ⟨report, .ok symbol⟩ →
    (shows symbol.fields "Value" ↔ SomeHolds library deviceSet.gates .value) ∧
    (shows symbol.fields "Reference" ↔ SomeHolds library deviceSet.gates .name ∧ deviceSet.refPrefix ≠ "" ∧
      symbol.isPower = false) := by
  intro claim
  obtain ⟨report, symbol, made, hidden⟩ : ∃ report symbol,
      drawDevice unlikeSymbols (twoGates "S" "T") ⟨"", none, []⟩ = .ok ⟨report, .ok symbol⟩ ∧
      (!shows symbol.fields "Value") = true := drawDevice_of_any _ (by decide +kernel)
  have shown := (claim _ _ _ _ _ made).1.2 (by decide +kernel)
  simp [shown] at hidden

end Redraft
