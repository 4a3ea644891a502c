import Mathlib.Data.List.Forall2
import Redraft.Proofs.Drafting
import Redraft.Project.Convert

/-!
# Translations of devices

Each device of a library is translated to a symbol, which is kept under its
name. Of the devices of one name the last one stands: in its library, and over
all libraries in the merged one.
-/

namespace Redraft

/-- The first symbol of a name. -/
def firstNamed (symbols : List Symbol) (name : String) : Option Symbol := symbols.find? (·.name == name)

/-- The last symbol of a name. -/
def lastNamed (symbols : List Symbol) (name : String) : Option Symbol := firstNamed symbols.reverse name

theorem lastNamed_append (first second : List Symbol) (name : String) :
    lastNamed (first ++ second) name = (lastNamed second name).or (lastNamed first name) := by
  simp [lastNamed, firstNamed]

theorem lastNamed_singleton_self (symbol : Symbol) : lastNamed [symbol] symbol.name = some symbol := by
  simp [lastNamed, firstNamed]

theorem lastNamed_singleton_of_ne {symbol : Symbol} {name : String} (ne : name ≠ symbol.name) :
    lastNamed [symbol] name = none := by
  simp [lastNamed, firstNamed, Ne.symm ne]

theorem firstNamed_name {symbols : List Symbol} {name : String} {symbol : Symbol}
    (found : firstNamed symbols name = some symbol) : symbol.name = name := by
  simpa using List.find?_some found

namespace Entries
variable {κ α : Type} [BEq κ] [LawfulBEq κ]

theorem get?_putAll {table more : Entries κ α} (once : (more.map (·.1)).Nodup) (key : κ) :
    (table.putAll more).get? key = (more.get? key).or (table.get? key) := by
  induction more generalizing table with
  | nil => rfl
  | cons entry more ih =>
    obtain ⟨k, v⟩ := entry
    rw [List.map_cons, List.nodup_cons] at once
    have step : table.putAll ((k, v) :: more) = (table.put k v).putAll more := rfl
    rw [step, ih once.2]
    by_cases same : key = k
    · subst same
      have absent : get? more key = none := by
        rw [get?, List.lookup_eq_none_iff]
        intro p member
        refine bne_iff_ne.2 fun same => once.1 ?_
        exact List.mem_map.2 ⟨p, member, same.symm⟩
      rw [absent, get?_put_self]
      simp [get?]
    · rw [get?_put_of_ne same]
      have other : (key == k) = false := by simpa using same
      simp [get?, List.lookup_cons, other]

theorem mem_put {key k : κ} {value v : α} {table : Entries κ α} (member : (k, v) ∈ table.put key value) :
    (k, v) ∈ table ∨ k = key ∧ v = value := by
  induction table with
  | nil =>
    obtain ⟨rfl, rfl⟩ := Prod.mk.inj (List.mem_singleton.1 member)
    exact .inr ⟨rfl, rfl⟩
  | cons entry table ih =>
    obtain ⟨k', v'⟩ := entry
    rw [put] at member
    split at member
    · rename_i same
      rcases List.mem_cons.1 member with here | later
      · obtain ⟨rfl, rfl⟩ := Prod.mk.inj here
        exact .inr ⟨by simpa using same, rfl⟩
      · exact .inl (.tail _ later)
    · rcases List.mem_cons.1 member with here | later
      · exact .inl (here ▸ .head _)
      · exact (ih later).imp_left (.tail _)

theorem mem_putAll {key : κ} {value : α} {table more : Entries κ α} (member : (key, value) ∈ table.putAll more) :
    (key, value) ∈ table ∨ (key, value) ∈ more := by
  induction more generalizing table with
  | nil => exact .inl member
  | cons entry more ih =>
    have member : (key, value) ∈ (table.put entry.1 entry.2).putAll more := member
    rcases ih member with there | later
    · rcases mem_put there with old | ⟨rfl, rfl⟩
      · exact .inl old
      · exact .inr (.head _)
    · exact .inr (.tail _ later)

theorem keys_put (key : κ) (value : α) (table : Entries κ α) :
    (table.put key value).map (·.1) =
      if key ∈ table.map (·.1) then table.map (·.1) else table.map (·.1) ++ [key] := by
  induction table with
  | nil => simp [put]
  | cons entry table ih =>
    obtain ⟨k, v⟩ := entry
    by_cases same : k = key
    · simp [put, same]
    · have other : (k == key) = false := by simpa using same
      simp only [put, other, Bool.false_eq_true, if_false, List.map_cons, ih, List.mem_cons, Ne.symm same, false_or]
      split <;> rfl

theorem nodup_put {key : κ} {value : α} {table : Entries κ α} (once : (table.map (·.1)).Nodup) :
    ((table.put key value).map (·.1)).Nodup := by
  rw [keys_put]
  split
  · exact once
  · rename_i absent
    rw [List.nodup_append]
    exact ⟨once, by simp, fun k member k' here => by
      rw [List.mem_singleton.1 here]
      exact fun same => absent (same ▸ member)⟩

theorem nodup_putAll {table more : Entries κ α} (once : (table.map (·.1)).Nodup) :
    ((table.putAll more).map (·.1)).Nodup := by
  induction more generalizing table with
  | nil => exact once
  | cons entry more ih => exact ih (nodup_put once)

theorem mem_of_get? {table : Entries κ α} {key : κ} {value : α} (found : table.get? key = some value) :
    (key, value) ∈ table := by
  induction table with
  | nil => cases found
  | cons entry table ih =>
    obtain ⟨k, v⟩ := entry
    rw [get?, List.lookup_cons] at found
    split at found
    · rename_i same
      obtain rfl : key = k := by simpa using same
      rw [Option.some.inj found]
      exact .head _
    · exact .tail _ (ih found)

end Entries

/-! ## Libraries -/

/-- The symbol of a device; there is none if the device has no name or cannot be drawn. -/
def translation (library : Eagle.Library) (deviceSet : Eagle.DeviceSet) (device : Eagle.Device) : Option Symbol :=
  if (Name.symbolKey deviceSet.name device.name).isEmpty then none
  else match drawDevice library deviceSet device with
    | .ok result => result.symbol.toOption
    | .error _ => none

theorem translation_ok {library : Eagle.Library} {deviceSet : Eagle.DeviceSet} {device : Eagle.Device} {symbol : Symbol}
    (translated : translation library deviceSet device = some symbol) :
    ∃ report, drawDevice library deviceSet device = .ok ⟨report, .ok symbol⟩ := by
  unfold translation at translated
  split at translated
  · cases translated
  · split at translated
    · rename_i result made
      obtain ⟨report, drawn⟩ := result
      obtain rfl := ok_of_toOption translated
      exact ⟨report, made⟩
    · cases translated

/-- The symbols of the devices of a library, in order. -/
def Eagle.Library.translations (l : Eagle.Library) : List Redraft.Symbol :=
  (SymbolLibrary.devices l).filterMap fun (s, d) => translation l s d

/-- The symbols of a library are kept once each under their names. -/
structure SymbolLibrary.Keyed (l : SymbolLibrary) : Prop where
  names : ∀ key symbol, (key, symbol) ∈ l.symbols → symbol.name = key
  once : (l.symbols.map (·.1)).Nodup

namespace SymbolLibrary
variable {library : Eagle.Library} {l l' : SymbolLibrary × Report}

/-- A device that is translated is added. -/
theorem convertDevice_eq {deviceSet : Eagle.DeviceSet} {device : Eagle.Device}
    (ran : convertDevice library deviceSet l device = .ok l') :
    l'.1 = match translation library deviceSet device with
      | some symbol => l.1.addDevice deviceSet device symbol
      | none => l.1 := by
  unfold convertDevice at ran
  unfold translation
  split at ran
  · rename_i nameless
    cases ran
    rw [if_pos nameless]
  · rename_i named
    obtain ⟨result, drawn, ran⟩ := bind_ok.1 ran
    rw [if_neg named, drawn]
    dsimp only
    split at ran
    · rename_i symbol made
      cases ran
      rw [made]
      rfl
    · rename_i failure failed
      cases ran
      rw [failed]
      rfl

/-- A device adds its symbol, if it has one, over an earlier one of its name. -/
theorem convertDevice_ok {deviceSet : Eagle.DeviceSet} {device : Eagle.Device}
    (ran : convertDevice library deviceSet l device = .ok l') :
    l'.1.symbols = match translation library deviceSet device with
      | some symbol => l.1.symbols.put symbol.name symbol
      | none => l.1.symbols := by
  rw [convertDevice_eq ran]
  cases translation library deviceSet device <;> rfl

theorem Keyed.put {l l' : SymbolLibrary} (keyed : l.Keyed) {symbol : Symbol}
    (same : l'.symbols = l.symbols.put symbol.name symbol) : l'.Keyed := by
  refine ⟨fun key other member => ?_, same ▸ Entries.nodup_put keyed.once⟩
  rw [same] at member
  rcases Entries.mem_put member with there | ⟨rfl, rfl⟩
  · exact keyed.names key other there
  · rfl

theorem symbol?_put {l l' : SymbolLibrary} {symbol : Symbol} (same : l'.symbols = l.symbols.put symbol.name symbol)
    (name : String) : l'.symbol? name = (lastNamed [symbol] name).or (l.symbol? name) := by
  rw [symbol?, same]
  by_cases here : name = symbol.name
  · subst here
    rw [Entries.get?_put_self, lastNamed_singleton_self]
    rfl
  · rw [Entries.get?_put_of_ne here, lastNamed_singleton_of_ne here]
    rfl

private theorem convertDevices_ok {devices : List (Eagle.DeviceSet × Eagle.Device)}
    (ran : devices.foldlM (fun l (s, d) => convertDevice library s l d) l = .ok l') (keyed : l.1.Keyed) :
    l'.1.Keyed ∧ ∀ name, l'.1.symbol? name =
      (lastNamed (devices.filterMap fun (s, d) => translation library s d) name).or (l.1.symbol? name) := by
  induction devices generalizing l with
  | nil =>
    cases ran
    exact ⟨keyed, fun name => rfl⟩
  | cons device devices ih =>
    obtain ⟨deviceSet, device⟩ := device
    rw [List.foldlM_cons] at ran
    obtain ⟨middle, first, rest⟩ := bind_ok.1 ran
    have symbols := convertDevice_ok first
    cases translated : translation library deviceSet device with
    | none =>
      rw [translated] at symbols
      obtain ⟨keyed', found⟩ := ih rest ⟨symbols ▸ keyed.names, symbols ▸ keyed.once⟩
      refine ⟨keyed', fun name => ?_⟩
      rw [found, List.filterMap_cons]
      simp only [translated, symbol?, symbols]
    | some symbol =>
      rw [translated] at symbols
      obtain ⟨keyed', found⟩ := ih rest (keyed.put symbols)
      refine ⟨keyed', fun name => ?_⟩
      rw [found, List.filterMap_cons]
      simp only [translated]
      rw [← List.singleton_append, lastNamed_append, Option.or_assoc, symbol?_put symbols]

/-- In a converted library the last translation of each name stands. -/
theorem convert_ok {converted : SymbolLibrary} {report : Report} (ran : convert library = .ok (converted, report)) :
    converted.Keyed ∧ ∀ name, converted.symbol? name = lastNamed library.translations name := by
  obtain ⟨keyed, found⟩ := convertDevices_ok ran ⟨by simp, by simp⟩
  refine ⟨keyed, fun name => ?_⟩
  rw [found]
  exact Option.or_none

end SymbolLibrary

/-! ## All libraries of a document -/

/-- The symbols of the devices of all libraries, in order. -/
def Eagle.Schematic.translations (s : Eagle.Schematic) : List Redraft.Symbol :=
  s.libraries.flatMap fun (_, l) => l.translations

/-- A library and what it is converted to, both under one name. -/
def ConvertsTo (entry : String × Eagle.Library) (converted : String × SymbolLibrary) : Prop :=
  converted.1 = entry.1 ∧ ∃ report, SymbolLibrary.convert entry.2 = .ok (converted.2, report)

/-- The libraries converted so far, with one more. -/
def addLibrary (done : Entries String SymbolLibrary × Report) (entry : String × Eagle.Library) :
    Except Failure (Entries String SymbolLibrary × Report) := do
  let converted ← SymbolLibrary.convert entry.2
  return (done.1 ++ [(entry.1, converted.1)], done.2 ++ converted.2)

theorem convertLibraries_eq (document : Eagle.Schematic) :
    convertLibraries document = document.libraries.foldlM addLibrary ([], []) := rfl

theorem convertLibraries_ok {document : Eagle.Schematic} {libraries : Entries String SymbolLibrary} {report : Report}
    (ran : convertLibraries document = .ok (libraries, report)) :
    List.Forall₂ ConvertsTo document.libraries libraries := by
  have fold (entries : List (String × Eagle.Library)) (done : Entries String SymbolLibrary × Report)
      (ran : entries.foldlM addLibrary done = .ok (libraries, report)) :
      ∃ more, libraries = done.1 ++ more ∧ List.Forall₂ ConvertsTo entries more := by
    induction entries generalizing done with
    | nil =>
      cases ran
      exact ⟨[], by simp, .nil⟩
    | cons entry entries ih =>
      rw [List.foldlM_cons] at ran
      obtain ⟨middle, first, rest⟩ := bind_ok.1 ran
      obtain ⟨⟨converted, messages⟩, here, same⟩ := bind_ok.1 first
      cases same
      obtain ⟨more, whole, later⟩ := ih _ rest
      exact ⟨(entry.1, converted) :: more, by simpa using whole, .cons ⟨rfl, messages, here⟩ later⟩
  rw [convertLibraries_eq] at ran
  obtain ⟨more, rfl, converted⟩ := fold _ _ ran
  exact converted

section Merge
variable {sources : List (String × Eagle.Library)} {libraries : Entries String SymbolLibrary}

/-- A converted library is found where its source is. -/
theorem get?_converted (converted : List.Forall₂ ConvertsTo sources libraries) {key : String} {l : SymbolLibrary}
    (found : libraries.get? key = some l) : ∃ library, Entries.get? sources key = some library ∧
      ∀ name, l.symbol? name = lastNamed library.translations name := by
  induction converted with
  | nil => cases found
  | @cons entry entry' sources libraries first _ ih =>
    obtain ⟨name, library⟩ := entry
    obtain ⟨name', l'⟩ := entry'
    obtain ⟨rfl, report, ran⟩ := first
    rw [Entries.get?, List.lookup_cons] at found ⊢
    by_cases same : key = name'
    · subst same
      rw [beq_self_eq_true] at found ⊢
      obtain rfl := Option.some.inj found
      exact ⟨library, rfl, (SymbolLibrary.convert_ok ran).2⟩
    · rw [beq_eq_false_iff_ne.2 same] at found ⊢
      exact ih found

private theorem foldl_putAll (converted : List.Forall₂ ConvertsTo sources libraries) {table : Entries String Symbol}
    (names : ∀ key symbol, (key, symbol) ∈ table → symbol.name = key) :
    let all := libraries.foldl (fun (all : Entries String Symbol) (_, l) => all.putAll l.symbols) table
    (∀ key symbol, (key, symbol) ∈ all → symbol.name = key) ∧ ∀ name, all.get? name =
      (lastNamed (sources.flatMap fun (_, l) => l.translations) name).or (table.get? name) := by
  induction converted generalizing table with
  | nil => exact ⟨names, fun name => rfl⟩
  | @cons entry entry' sources libraries first _ ih =>
    obtain ⟨_, report, ran⟩ := first
    obtain ⟨keyed, named⟩ := SymbolLibrary.convert_ok ran
    have names' : ∀ key symbol, (key, symbol) ∈ table.putAll entry'.2.symbols → symbol.name = key :=
      fun key symbol member => (Entries.mem_putAll member).elim (names key symbol) (keyed.names key symbol)
    obtain ⟨allNames, found⟩ := ih names'
    refine ⟨allNames, fun name => ?_⟩
    rw [List.flatMap_cons, lastNamed_append, Option.or_assoc, ← named name]
    exact (found name).trans (congrArg _ (Entries.get?_putAll keyed.once name))

/-- In a table kept under names, looking up a name finds the first symbol of that name. -/
private theorem firstNamed_values {table : Entries String Symbol}
    (names : ∀ key symbol, (key, symbol) ∈ table → symbol.name = key) (name : String) :
    firstNamed (table.map (·.2)) name = table.get? name := by
  induction table with
  | nil => rfl
  | cons entry table ih =>
    obtain ⟨key, symbol⟩ := entry
    have here := names key symbol (.head _)
    have later := ih fun key symbol member => names key symbol (.tail _ member)
    rw [firstNamed] at later
    by_cases same : name = key
    · simp [firstNamed, Entries.get?, here, same]
    · have other : (key == name) = false := beq_eq_false_iff_ne.2 (Ne.symm same)
      have other' : (name == key) = false := beq_eq_false_iff_ne.2 same
      rw [firstNamed, List.map_cons, List.find?_cons, here, other, Entries.get?, List.lookup_cons, other']
      exact later

/-- Over all libraries the last translation of each name stands. -/
theorem mergeSymbols_named (converted : List.Forall₂ ConvertsTo sources libraries) (name : String) :
    firstNamed (mergeSymbols libraries) name = lastNamed (sources.flatMap fun (_, l) => l.translations) name := by
  have none : ∀ key symbol, (key, symbol) ∈ ([] : Entries String Symbol) → symbol.name = key := by simp
  obtain ⟨names, found⟩ := foldl_putAll converted none
  rw [mergeSymbols, firstNamed_values names, found]
  exact Option.or_none

theorem mergeSymbols_nodup (converted : List.Forall₂ ConvertsTo sources libraries) :
    ((mergeSymbols libraries).map (·.name)).Nodup := by
  have none : ∀ key symbol, (key, symbol) ∈ ([] : Entries String Symbol) → symbol.name = key := by simp
  obtain ⟨names, _⟩ := foldl_putAll converted none
  have once (libraries : Entries String SymbolLibrary) {table : Entries String Symbol}
      (once : (table.map (·.1)).Nodup) : ((libraries.foldl
        (fun (all : Entries String Symbol) (_, l) => all.putAll l.symbols) table).map (·.1)).Nodup := by
    induction libraries generalizing table with
    | nil => exact once
    | cons entry libraries ih => exact ih (Entries.nodup_putAll once)
  unfold mergeSymbols
  rw [List.map_map]
  refine Eq.subst (motive := List.Nodup) (List.map_congr_left ?_) (once libraries List.nodup_nil)
  rintro ⟨key, symbol⟩ member
  exact (names key symbol member).symm

end Merge

end Redraft
