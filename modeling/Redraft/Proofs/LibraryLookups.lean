import Redraft.Proofs.Translations

/-!
# Lookups in a library

The units of the gates, the packages and the symbols of a library are kept in
three tables. Their keys join the names of device sets, devices and gates, so
that different devices may have one key; then the last one stands.
-/

namespace Redraft

namespace Entries
variable {κ α : Type} [BEq κ] [LawfulBEq κ]

/-- The last value of a key. -/
def last? (entries : Entries κ α) (key : κ) : Option α := get? entries.reverse key

omit [LawfulBEq κ] in
theorem last?_append (first second : Entries κ α) (key : κ) :
    last? (first ++ second) key = (last? second key).or (last? first key) := by
  simp [last?, get?, List.lookup_append]

theorem get?_putAll_eq {table more : Entries κ α} (key : κ) :
    (table.putAll more).get? key = (more.last? key).or (table.get? key) := by
  induction more generalizing table with
  | nil => rfl
  | cons entry more ih =>
    obtain ⟨k, v⟩ := entry
    have step : table.putAll ((k, v) :: more) = (table.put k v).putAll more := rfl
    rw [step, ih, ← List.singleton_append, last?_append, Option.or_assoc]
    by_cases same : key = k
    · subst same
      rw [get?_put_self]
      simp [last?, get?]
    · have other : (key == k) = false := by simpa using same
      rw [get?_put_of_ne same]
      simp [last?, get?, List.lookup_cons, other]

theorem get?_ofList {entries : Entries κ α} (key : κ) : (ofList entries).get? key = entries.last? key := by
  rw [ofList, get?_putAll_eq]
  exact Option.or_none

theorem mem_of_last? {entries : Entries κ α} {key : κ} {value : α} (found : entries.last? key = some value) :
    (key, value) ∈ entries :=
  List.mem_reverse.1 (mem_of_get? found)

theorem last?_of_mem {entries : Entries κ α} {key : κ} {value : α} (member : (key, value) ∈ entries) :
    ∃ last, entries.last? key = some last := by
  cases found : entries.last? key with
  | some last => exact ⟨last, rfl⟩
  | none =>
    rw [last?, get?, List.lookup_eq_none_iff] at found
    have other := found _ (List.mem_reverse.2 member)
    simp at other

/-- The only value of a key is its last one. -/
theorem last?_eq_of_only {entries : Entries κ α} {key : κ} {value : α} (member : (key, value) ∈ entries)
    (only : ∀ other, (key, other) ∈ entries → other = value) : entries.last? key = some value := by
  obtain ⟨last, found⟩ := last?_of_mem member
  rw [found, only last (mem_of_last? found)]

end Entries

/-- A device of a library with the symbol that it is translated to. -/
structure TranslatedDevice where
  deviceSet : Eagle.DeviceSet
  device : Eagle.Device
  symbol : Symbol

/-- The devices of a library that are translated, in order. -/
def Eagle.Library.translated (l : Eagle.Library) : List TranslatedDevice :=
  (SymbolLibrary.devices l).filterMap fun (s, d) => (translation l s d).map fun symbol => ⟨s, d, symbol⟩

namespace TranslatedDevice

/-- The name of the device's symbol. -/
def key (t : TranslatedDevice) : String := Name.symbolKey t.deviceSet.name t.device.name

/-- The device's package; an empty name is none. -/
def ownPackage (t : TranslatedDevice) : Option String := t.device.package.filter (!·.isEmpty)

/-- The key of a gate of the device. -/
def gateKey (t : TranslatedDevice) (gate : Eagle.Gate) : String :=
  Redraft.gateKey t.deviceSet.name t.device.name gate.name

/-- What the device adds to each of the three tables. -/
def unitEntries (t : TranslatedDevice) : Entries String Nat :=
  t.deviceSet.gates.zipIdx.map fun (gate, i) => (t.gateKey gate, i + 1)

def packageEntry (t : TranslatedDevice) : Entries String String := (t.ownPackage.map fun p => (t.key, p)).toList

def symbolEntry (t : TranslatedDevice) : Entries String Symbol := [(t.key, t.symbol)]

/-- A library finds for a device what was built for it. -/
structure FoundIn (t : TranslatedDevice) (l : SymbolLibrary) : Prop where
  unit : ∀ (i : Nat) gate, t.deviceSet.gates[i]? = some gate →
    l.unit? t.deviceSet.name t.device.name gate.name = some (i + 1)
  symbol : l.symbol? t.key = some t.symbol
  package : l.package? t.key = t.ownPackage

/-- What two devices have under one key is one. -/
structure Agrees (t u : TranslatedDevice) : Prop where
  unit : ∀ (i j : Nat) gate other, t.deviceSet.gates[i]? = some gate → u.deviceSet.gates[j]? = some other →
    t.gateKey gate = u.gateKey other → i = j
  symbol : t.key = u.key → t.symbol = u.symbol
  package : t.key = u.key → t.ownPackage = u.ownPackage

theorem FoundIn.agrees {t u : TranslatedDevice} {l : SymbolLibrary} (own : t.FoundIn l) (own' : u.FoundIn l) :
    t.Agrees u := by
  constructor
  · intro i j gate other isGate isOther same
    have one : l.gateUnits.get? (t.gateKey gate) = l.gateUnits.get? (u.gateKey other) := congrArg _ same
    have numbers := (own.unit i gate isGate).symm.trans (one.trans (own'.unit j other isOther))
    simpa using numbers
  · intro same
    exact Option.some.inj (own.symbol.symm.trans ((congrArg l.symbol? same).trans own'.symbol))
  · intro same
    exact own.package.symm.trans ((congrArg l.package? same).trans own'.package)

theorem mem_unitEntries {t : TranslatedDevice} {key : String} {n : Nat} :
    (key, n) ∈ t.unitEntries ↔ ∃ i gate, t.deviceSet.gates[i]? = some gate ∧ t.gateKey gate = key ∧ i + 1 = n := by
  simp only [unitEntries, List.mem_map, Prod.exists, Prod.mk.injEq, List.mem_zipIdx_iff_getElem?]
  constructor
  · rintro ⟨gate, i, there, rfl, rfl⟩
    exact ⟨i, gate, there, rfl, rfl⟩
  · rintro ⟨i, gate, there, rfl, rfl⟩
    exact ⟨gate, i, there, rfl, rfl⟩

end TranslatedDevice

namespace SymbolLibrary
open TranslatedDevice
variable {library : Eagle.Library} {l l' : SymbolLibrary}

/-- The tables of a library hold the last entries of some devices. -/
structure Holds (l : SymbolLibrary) (devices : List TranslatedDevice) : Prop where
  units : ∀ key, l.gateUnits.get? key = Entries.last? (devices.flatMap unitEntries) key
  packages : ∀ key, l.packages.get? key = Entries.last? (devices.flatMap packageEntry) key
  symbols : ∀ key, l.symbols.get? key = Entries.last? (devices.flatMap symbolEntry) key

theorem Holds.addDevice {devices : List TranslatedDevice} (holds : l.Holds devices) {t : TranslatedDevice}
    (named : t.symbol.name = t.key) : (l.addDevice t.deviceSet t.device t.symbol).Holds (devices ++ [t]) := by
  constructor
  · intro key
    have once : ((Redraft.gateUnits t.deviceSet t.device).map (·.1)).Nodup := Entries.nodup_putAll List.nodup_nil
    rw [List.flatMap_append, List.flatMap_singleton, Entries.last?_append, ← holds.units]
    exact (Entries.get?_putAll once key).trans (congrArg (Option.or · _) (Entries.get?_ofList key))
  · intro key
    rw [List.flatMap_append, List.flatMap_singleton, Entries.last?_append, ← holds.packages,
      ← Entries.get?_putAll_eq, packageEntry, ownPackage, ← named]
    cases isPackage : t.device.package with
    | none => simp [SymbolLibrary.addDevice, isPackage, Entries.putAll]
    | some package =>
      by_cases empty : package.isEmpty = true
      · simp [SymbolLibrary.addDevice, isPackage, empty, Option.filter, Entries.putAll]
      · simp [SymbolLibrary.addDevice, isPackage, empty, Option.filter, Entries.putAll]
  · intro key
    rw [List.flatMap_append, List.flatMap_singleton, Entries.last?_append, ← holds.symbols,
      ← Entries.get?_putAll_eq, symbolEntry, ← named]
    rfl

theorem translation_name {deviceSet : Eagle.DeviceSet} {device : Eagle.Device} {symbol : Symbol}
    (translated : translation library deviceSet device = some symbol) :
    symbol.name = Name.symbolKey deviceSet.name device.name := by
  obtain ⟨report, made⟩ := translation_ok translated
  obtain ⟨⟨d, missing⟩, _, made⟩ := bind_ok.1 made
  cases missing with
  | some failure =>
    have none := (DeviceResult.mk.inj (Except.ok.inj made)).2
    cases none
  | none =>
    obtain rfl := Except.ok.inj (DeviceResult.mk.inj (Except.ok.inj made)).2
    rfl

theorem convertDevices_holds {pairs : List (Eagle.DeviceSet × Eagle.Device)} {l l' : SymbolLibrary × Report}
    {before : List TranslatedDevice} (holds : l.1.Holds before)
    (ran : pairs.foldlM (fun l (s, d) => convertDevice library s l d) l = .ok l') :
    l'.1.Holds (before ++ pairs.filterMap fun (s, d) =>
      (translation library s d).map fun symbol => TranslatedDevice.mk s d symbol) := by
  induction pairs generalizing l before with
  | nil =>
    cases ran
    simpa using holds
  | cons pair pairs ih =>
    obtain ⟨deviceSet, device⟩ := pair
    rw [List.foldlM_cons] at ran
    obtain ⟨middle, first, rest⟩ := bind_ok.1 ran
    have added := convertDevice_eq first
    cases translated : translation library deviceSet device with
    | none =>
      rw [translated] at added
      rw [List.filterMap_cons_none (by simp [translated])]
      exact ih (added ▸ holds) rest
    | some symbol =>
      rw [translated] at added
      rw [List.filterMap_cons_some (b := ⟨deviceSet, device, symbol⟩) (by simp [translated]), ← List.singleton_append,
        ← List.append_assoc]
      refine ih ?_ rest
      rw [added]
      exact holds.addDevice (t := ⟨deviceSet, device, symbol⟩) (translation_name translated)

/-- Each table of a converted library holds the last entries of the devices that are translated. -/
theorem convert_holds {report : Report} (ran : convert library = .ok (l, report)) : l.Holds library.translated := by
  have empty : Holds { name := library.name, source := library.symbols } [] :=
    ⟨fun _ => rfl, fun _ => rfl, fun _ => rfl⟩
  have holds := convertDevices_holds (l := ({ name := library.name, source := library.symbols }, [])) empty ran
  exact holds

theorem mem_packageEntries {devices : List TranslatedDevice} {key package : String} :
    (key, package) ∈ devices.flatMap packageEntry ↔ ∃ t ∈ devices, t.key = key ∧ t.ownPackage = some package := by
  simp only [packageEntry, List.mem_flatMap, Option.mem_toList, Option.map_eq_some_iff, Prod.mk.injEq]
  constructor
  · rintro ⟨t, member, p, isPackage, rfl, rfl⟩
    exact ⟨t, member, rfl, isPackage⟩
  · rintro ⟨t, member, rfl, isPackage⟩
    exact ⟨t, member, package, isPackage, rfl, rfl⟩

theorem mem_symbolEntries {devices : List TranslatedDevice} {key : String} {symbol : Symbol} :
    (key, symbol) ∈ devices.flatMap symbolEntry ↔ ∃ t ∈ devices, t.key = key ∧ t.symbol = symbol := by
  simp only [symbolEntry, List.mem_flatMap, List.mem_singleton, Prod.mk.injEq, eq_comm]

theorem Holds.package? {devices : List TranslatedDevice} (holds : l.Holds devices) {t : TranslatedDevice}
    (member : t ∈ devices) (agree : ∀ u ∈ devices, u.key = t.key → u.ownPackage = t.ownPackage) :
    l.package? t.key = t.ownPackage := by
  refine (holds.packages _).trans ?_
  cases isPackage : t.ownPackage with
  | some package =>
    refine Entries.last?_eq_of_only (mem_packageEntries.2 ⟨t, member, rfl, isPackage⟩) ?_
    intro other there
    obtain ⟨u, member', same, isOther⟩ := mem_packageEntries.1 there
    rw [agree u member' same, isPackage] at isOther
    exact (Option.some.inj isOther).symm
  | none =>
    -- a package under this name is one of a device that agrees with this one
    cases found : Entries.last? (devices.flatMap packageEntry) t.key with
    | none => rfl
    | some other =>
      obtain ⟨u, member', same, isOther⟩ := mem_packageEntries.1 (Entries.mem_of_last? found)
      rw [agree u member' same, isPackage] at isOther
      cases isOther

/-- A device that all others agree with finds what was built for it, however late they come. -/
theorem Holds.foundIn {devices : List TranslatedDevice} (holds : l.Holds devices) {t : TranslatedDevice}
    (member : t ∈ devices) (agree : ∀ u ∈ devices, u.Agrees t) : t.FoundIn l := by
  refine ⟨?_, ?_, holds.package? member fun u member' => (agree u member').package⟩
  · intro i gate isGate
    refine (holds.units _).trans (Entries.last?_eq_of_only ?_ ?_)
    · exact List.mem_flatMap.2 ⟨t, member, mem_unitEntries.2 ⟨i, gate, isGate, rfl, rfl⟩⟩
    · intro n there
      obtain ⟨u, member', entry⟩ := List.mem_flatMap.1 there
      obtain ⟨j, other, isOther, same, rfl⟩ := mem_unitEntries.1 entry
      rw [(agree u member').unit j i other gate isOther isGate same]
  · refine (holds.symbols _).trans (Entries.last?_eq_of_only ?_ ?_)
    · exact mem_symbolEntries.2 ⟨t, member, rfl, rfl⟩
    · intro symbol there
      obtain ⟨u, member', same, rfl⟩ := mem_symbolEntries.1 there
      exact (agree u member').symbol same

/-- The devices of a library find what was built for them just if what they have under one key is one. -/
theorem lookups_own_iff {report : Report} (ran : convert library = .ok (l, report)) :
    (∀ t ∈ library.translated, t.FoundIn l) ↔
      ∀ t ∈ library.translated, ∀ u ∈ library.translated, t.Agrees u := by
  have holds := convert_holds ran
  constructor
  · intro found t member u member'
    exact (found t member).agrees (found u member')
  · intro agree t member
    exact holds.foundIn member fun u member' => agree u member' t member

/-- The names that tell devices and gates apart are distinct. -/
def DistinctNames (library : Eagle.Library) : Prop :=
  (∀ s ∈ library.deviceSets, (s.gates.map (·.name)).Nodup) ∧
    ((devices library).map fun (s, d) => (s.name, d.name)).Nodup

/-- Two devices of one set that share the key of a gate, and devices of two sets that share a name. -/
def joinedNames : Eagle.Library where
  name := "a"
  symbols := [("S", ⟨"S", [.pin ⟨"P", ⟨0, 0⟩, none, none, none, none, none⟩]⟩)]
  deviceSets := [
    ⟨"X", "U", [⟨"AB", "S", ⟨0, 0⟩⟩, ⟨"B", "S", ⟨0, 0⟩⟩], [⟨"", none, []⟩, ⟨"A", none, []⟩]⟩,
    ⟨"Y", "U", [⟨"G", "S", ⟨0, 0⟩⟩], [⟨"Z", some "P", []⟩]⟩,
    ⟨"YZ", "U", [⟨"G", "S", ⟨0, 0⟩⟩], [⟨"", none, []⟩]⟩]

theorem joinedNames_distinct : DistinctNames joinedNames := by
  constructor <;> decide

theorem joinedNames_converted : ∃ l report, convert joinedNames = .ok (l, report) ∧
    l.unit? "X" "" "AB" = some 2 ∧ l.package? "YZ" = some "P" := by
  have checked : (convert joinedNames).toOption.any (fun converted =>
      decide (converted.1.unit? "X" "" "AB" = some 2 ∧ converted.1.package? "YZ" = some "P")) = true := by
    decide +kernel
  obtain ⟨⟨l, report⟩, converted, holds⟩ := (Option.any_eq_true ..).1 checked
  exact ⟨l, report, ok_of_toOption converted, of_decide_eq_true holds⟩

theorem mem_translated (library : Eagle.Library) {i j : Nat} {deviceSet : Eagle.DeviceSet} {device : Eagle.Device}
    (isSet : library.deviceSets[i]? = some deviceSet) (isDevice : deviceSet.devices[j]? = some device)
    (translated : (translation library deviceSet device).isSome = true) :
    ∃ symbol, ⟨deviceSet, device, symbol⟩ ∈ library.translated := by
  obtain ⟨symbol, made⟩ := Option.isSome_iff_exists.1 translated
  refine ⟨symbol, List.mem_filterMap.2 ⟨(deviceSet, device), ?_, by simp [made]⟩⟩
  refine List.mem_flatMap.2 ⟨deviceSet, List.mem_of_getElem? isSet, ?_⟩
  exact List.mem_map.2 ⟨device, List.mem_of_getElem? isDevice, rfl⟩

/-- A gate may be found as the unit of another device's gate, and a device without a package may be given
    that of another one. -/
theorem not_all_lookups_own :
    (¬ ∀ (library : Eagle.Library) (l : SymbolLibrary) (report : Report), DistinctNames library →
      convert library = .ok (l, report) → ∀ t ∈ library.translated, ∀ (i : Nat) gate,
      t.deviceSet.gates[i]? = some gate → l.unit? t.deviceSet.name t.device.name gate.name = some (i + 1)) ∧
    ¬ ∀ (library : Eagle.Library) (l : SymbolLibrary) (report : Report), DistinctNames library →
      convert library = .ok (l, report) → ∀ t ∈ library.translated, l.package? t.key = t.ownPackage := by
  obtain ⟨l, report, converted, unit, package⟩ := joinedNames_converted
  constructor
  · intro own
    obtain ⟨symbol, member⟩ := mem_translated joinedNames (i := 0) (j := 0) rfl rfl (by decide +kernel)
    have first := own _ l report joinedNames_distinct converted _ member 0 ⟨"AB", "S", ⟨0, 0⟩⟩ rfl
    exact absurd (unit.symm.trans first) (by decide)
  · intro own
    obtain ⟨symbol, member⟩ := mem_translated joinedNames (i := 2) (j := 0) rfl rfl (by decide +kernel)
    have none := own _ l report joinedNames_distinct converted _ member
    have key : Name.symbolKey "YZ" "" = "YZ" := by decide +kernel
    rw [TranslatedDevice.key, key, package] at none
    cases none

theorem joinedNames_own_iff : ∃ l report, convert joinedNames = .ok (l, report) ∧
    ((∀ t ∈ joinedNames.translated, t.FoundIn l) ↔
      ∀ t ∈ joinedNames.translated, ∀ u ∈ joinedNames.translated, t.Agrees u) := by
  obtain ⟨l, report, converted, _⟩ := joinedNames_converted
  exact ⟨l, report, converted, lookups_own_iff converted⟩

end SymbolLibrary

end Redraft
