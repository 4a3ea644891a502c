import Mathlib.Data.List.TakeWhile
import Redraft.Proofs.DeviceDrawing
import Redraft.Proofs.NetNames
import Redraft.Proofs.Overbars

/-!
# Names of supply pins

A supply pin that nothing is connected to should join the net of its name. But
the label that it implies is not written as the labels of that net are: a name
may still have its toggles, an overbar may be cut off before it is closed, and
slashes are written as tokens. So the pin joins the net for some names only.
-/

namespace Redraft

namespace Name

/-! ## Escaped characters -/

/-- Characters that are written in another way, or not at all, in the label that a pin implies. -/
def isEscaped (c : Char) : Bool := c == '/' || c == '\n' || c == '\r'

section Escaping
variable {c : Char} {cs written : List Char}

theorem isEscaped_iff : isEscaped c ↔ c = '/' ∨ c = '\n' ∨ c = '\r' := by
  simp [isEscaped, or_assoc]

theorem not_isEscaped_of_mem (member : c ∈ escapeChars cs) : isEscaped c = false := by
  obtain ⟨d, _, here⟩ := List.mem_flatMap.1 member
  unfold escapeChar at here
  split at here
  · have plain : ['{', 's', 'l', 'a', 's', 'h', '}'].any isEscaped = false := by decide
    exact Bool.eq_false_iff.2 (List.any_eq_false.1 plain c here)
  · rename_i noSlash
    split at here
    · cases here
    · rename_i noEnd
      rw [List.mem_singleton.1 here, ← Bool.not_eq_true, isEscaped_iff]
      exact not_or.2 ⟨noSlash, noEnd⟩

theorem escapeChars_of_plain (plain : ∀ c ∈ cs, isEscaped c = false) : escapeChars cs = cs := by
  induction cs with
  | nil => rfl
  | cons c cs ih =>
    obtain ⟨first, rest⟩ := List.forall_mem_cons.1 plain
    rw [← Bool.not_eq_true, isEscaped_iff, not_or] at first
    have here : escapeChar c = [c] := by rw [escapeChar, if_neg first.1, if_neg first.2]
    calc escapeChars (c :: cs)
      _ = escapeChar c ++ escapeChars cs := rfl
      _ = c :: cs := by rw [here, ih rest]; rfl

theorem plain_of_subset (sub : ∀ c, isEscaped c → c ∈ cs → c ∈ written) (plain : ∀ c ∈ written, isEscaped c = false) :
    ∀ c ∈ cs, isEscaped c = false := by
  intro c member
  cases escaped : isEscaped c with
  | false => rfl
  | true => exact escaped.symm.trans (plain c (sub c escaped member))

/-- Texts with the same reserved characters have none of them or both some. -/
theorem plain_iff (same : ∀ c, isEscaped c → (c ∈ written ↔ c ∈ cs)) :
    (∀ c ∈ written, isEscaped c = false) ↔ ∀ c ∈ cs, isEscaped c = false :=
  ⟨plain_of_subset fun c escaped => (same c escaped).2, plain_of_subset fun c escaped => (same c escaped).1⟩

/-- Escaping a text gives one with the same reserved characters just if there are none to escape. -/
theorem escapeChars_eq_iff (same : ∀ c, isEscaped c → (c ∈ written ↔ c ∈ cs)) :
    escapeChars cs = written ↔ (∀ c ∈ cs, isEscaped c = false) ∧ cs = written := by
  constructor
  · intro isWritten
    have noneLeft : ∀ c ∈ written, isEscaped c = false := fun c member => not_isEscaped_of_mem (isWritten ▸ member)
    have plain := (plain_iff same).1 noneLeft
    exact ⟨plain, (escapeChars_of_plain plain).symm.trans isWritten⟩
  · rintro ⟨plain, rfl⟩
    exact escapeChars_of_plain plain

end Escaping

/-! ## Names written already -/

/-- Texts that are written already: they have no toggle, and each tilde stands before a brace. -/
inductive Written : List Char → Prop
  | nil : Written []
  | brace {cs : List Char} (rest : Written cs) : Written ('~' :: '{' :: cs)
  | char {c : Char} {cs : List Char} (plain : toggle c ≠ '~') (rest : Written cs) : Written (c :: cs)

section Writing
variable {c : Char} {cs : List Char}

/-- An escaped character is no part of a mark. -/
theorem ne_of_isEscaped (escaped : isEscaped c) : c ≠ '!' ∧ c ≠ '~' ∧ c ≠ '{' ∧ c ≠ '}' := by
  rcases isEscaped_iff.1 escaped with rfl | rfl | rfl <;> decide

theorem mem_labelChars (escaped : isEscaped c) : c ∈ labelChars cs ↔ c ∈ cs := by
  obtain ⟨mark, tilde, opens, closes⟩ := ne_of_isEscaped escaped
  rw [labelChars, mem_overbarChars tilde opens closes, mem_map_toggle mark tilde]

/-- A written text is shorter than one with more tildes in front of it, or differs from it. -/
theorem overbarFrom_ne_tildes (k : Nat) (cs : List Char) : overbarFrom false cs ≠ List.replicate (k + 1) '~' ++ cs := by
  induction cs using marks_induction generalizing k with
  | nil => simp [overbarFrom]
  | doubled cs ih =>
    intro same
    -- the mark is written with one tilde less, which leaves one more in front of the rest
    have rest := (List.cons.inj same).2
    apply ih (k + 1)
    rw [rest]
    simp [List.replicate_succ']
  | brace cs _ =>
    intro same
    rw [List.replicate_succ] at same
    cases k <;> simp [overbarFrom, List.replicate_succ] at same
  | toggle cs toggles _ =>
    intro same
    rw [overbarFrom_toggle _ toggles, List.replicate_succ] at same
    cases k <;> simp [List.replicate_succ] at same
  | char c cs plain _ =>
    intro same
    rw [overbarFrom_char _ plain, List.replicate_succ] at same
    exact plain (List.cons.inj same).1

theorem overbarFrom_eq_self (noMark : '!' ∉ cs) (same : overbarFrom false cs = cs) : Written cs := by
  induction cs using marks_induction with
  | nil => exact .nil
  | doubled cs _ => exact absurd (List.cons.inj same).2 (overbarFrom_ne_tildes 0 cs)
  | brace cs ih =>
    rw [List.mem_cons, List.mem_cons, not_or, not_or] at noMark
    exact .brace (ih noMark.2.2 (List.cons.inj (List.cons.inj same).2).2)
  | toggle cs toggles _ =>
    rw [overbarFrom_toggle _ toggles] at same
    rw [← (List.cons.inj same).2] at toggles
    exact absurd rfl (toggles_cons.1 toggles).2
  | char c cs plain ih =>
    rw [List.mem_cons, not_or] at noMark
    rw [overbarFrom_char _ plain] at same
    have isChar : toggle c = c := if_neg (Ne.symm noMark.1)
    exact .char (isChar.symm ▸ plain) (ih noMark.2 (List.cons.inj same).2)

theorem Written.overbarFrom_map (written : Written cs) : overbarFrom false (cs.map toggle) = cs := by
  induction written with
  | nil => rfl
  | brace _ ih => exact congrArg ('~' :: '{' :: ·) ih
  | @char c cs plain _ ih =>
    obtain ⟨isChar, tilde⟩ := toggle_of_ne plain
    rw [List.map_cons, isChar, overbarFrom_char _ tilde]
    exact congrArg (c :: ·) ih

/-- Texts that are written already are those that writing does not change. -/
theorem written_iff : Written cs ↔ overbarFrom false (cs.map toggle) = cs := by
  constructor
  · exact Written.overbarFrom_map
  · intro same
    have noMark : '!' ∉ cs := by
      intro member
      rw [← same, mem_overbarFrom (by decide) (by decide) (by decide), List.mem_map] at member
      obtain ⟨c, _, isMark⟩ := member
      unfold toggle at isMark
      split at isMark
      · exact absurd isMark (by decide)
      · contradiction
    have noToggle : ∀ c ∈ cs, toggle c = c := by
      intro c member
      exact if_neg fun isMark : c = '!' => noMark (isMark ▸ member)
    have unmarked : cs.map toggle = cs := (List.map_congr_left noToggle).trans (List.map_id cs)
    rw [unmarked] at same
    exact overbarFrom_eq_self noMark same

/-- A name is written as it stands if it is a lone tilde or written already. -/
theorem labelChars_eq_self_iff (cs : List Char) : labelChars cs = cs ↔ cs = ['~'] ∨ Written cs := by
  unfold labelChars overbarChars
  split
  · rename_i alone
    constructor
    · intro same
      exact .inl (same.symm.trans alone)
    · rintro (rfl | written)
      · rfl
      · have same := written_iff.1 written
        rw [alone] at same
        subst same
        cases alone
  · rename_i more
    rw [written_iff]
    constructor
    · exact .inr
    · rintro (rfl | same)
      · exact absurd rfl more
      · exact same

instance (cs : List Char) : Decidable (Written cs) := decidable_of_iff _ written_iff.symm

end Writing

/-! ## The net that a pin name implies -/

/-- The label that a pin of the given name implies is written as those of the net that it implies:
    nothing in the net's name is escaped; a name that is kept as it stands is written already;
    and in a name that was written before it is cut, no overbar is cut off. -/
def JoinsNet (connected : Bool) (name : String) : Prop :=
  (∀ c ∈ (impliedNet name).toList, isEscaped c = false) ∧
    if connected then '@' ∈ name.toList → overbarRuns false ((impliedNet name).toList.map toggle) = false
    else (impliedNet name).toList = ['~'] ∨ Written (impliedNet name).toList

instance (connected : Bool) (name : String) : Decidable (JoinsNet connected name) :=
  -- the text is what is searched, not all characters that there are
  letI : Decidable (∀ c ∈ (impliedNet name).toList, isEscaped c = false) := List.decidableBAll _ _
  match connected with
  | true => inferInstanceAs (Decidable (_ ∧ ('@' ∈ name.toList → _)))
  | false => inferInstanceAs (Decidable (_ ∧ (_ ∨ Written _)))

/-- The name of a symbol's pin in a device with connections or without any. -/
def symbolPin (connected : Bool) (name : String) : String := if connected then label name else name

section Implied
variable {name : String} {cs rest : List Char}

theorem toList_impliedNet (name : String) : (impliedNet name).toList = name.toList.takeWhile (· != '@') :=
  String.toList_ofList

theorem takeWhile_at_sign (before : '@' ∉ cs) (rest : List Char) : (cs ++ '@' :: rest).takeWhile (· != '@') = cs := by
  rw [List.takeWhile_append_of_pos fun c member => bne_iff_ne.2 fun (same : c = '@') => before (same ▸ member)]
  simp

theorem takeWhile_no_at_sign (none : '@' ∉ cs) : cs.takeWhile (· != '@') = cs :=
  List.takeWhile_eq_self_iff.2 fun c member => bne_iff_ne.2 fun (same : c = '@') => none (same ▸ member)

/-- What is left of a label that is cut at an at sign: an overbar that runs there is not closed. -/
theorem takeWhile_labelChars (before : '@' ∉ cs) (rest : List Char) : ∃ body,
    overbarFrom false (cs.map toggle) = body ++ closing (overbarRuns false (cs.map toggle)) ∧
    (labelChars (cs ++ '@' :: rest)).takeWhile (· != '@') = body := by
  obtain ⟨body, whole, cut⟩ := overbarFrom_append_char false (cs.map toggle)
  refine ⟨body, whole, ?_⟩
  have noAtSign : '@' ∉ body := by
    intro member
    have there : '@' ∈ overbarFrom false (cs.map toggle) := whole ▸ List.mem_append_left _ member
    rw [mem_overbarFrom (by decide) (by decide) (by decide), mem_map_toggle (by decide) (by decide)] at there
    exact before there
  have notAlone : (cs ++ '@' :: rest).map toggle ≠ ['~'] := by
    intro alone
    have member : '@' ∈ (cs ++ '@' :: rest).map toggle := (mem_map_toggle (by decide) (by decide)).2 (by simp)
    rw [alone] at member
    exact absurd member (by decide)
  have written : labelChars (cs ++ '@' :: rest) =
      body ++ '@' :: overbarFrom (overbarRuns false (cs.map toggle)) (rest.map toggle) := by
    rw [labelChars, overbarChars, if_neg notAlone, List.map_append, List.map_cons]
    rw [show toggle '@' = '@' from rfl, cut _ _ (by decide) (by decide), overbarFrom_char _ (by decide)]
    simp [endsOverbar, closing]
  rw [written, takeWhile_at_sign noAtSign]

/-- A label that is cut at an at sign is that of the name before it just if no overbar runs there. -/
theorem cut_eq_labelChars_iff (before : '@' ∉ cs) (rest : List Char) :
    (labelChars (cs ++ '@' :: rest)).takeWhile (· != '@') = labelChars cs ↔
      overbarRuns false (cs.map toggle) = false := by
  obtain ⟨body, whole, cut⟩ := takeWhile_labelChars before rest
  rw [cut, labelChars, overbarChars]
  by_cases alone : cs.map toggle = ['~']
  · -- the lone tilde is kept, but before an at sign it opens an overbar
    rw [alone] at whole ⊢
    have closed : body ++ ['}'] = ['~', '{'] ++ ['}'] := whole.symm
    have opened : body = ['~', '{'] := List.append_cancel_right closed
    rw [opened]
    decide
  · rw [if_neg alone, whole]
    cases overbarRuns false (cs.map toggle) <;> simp [closing]

theorem mem_cut {c : Char} (escaped : isEscaped c) (before : '@' ∉ cs) (rest : List Char) :
    c ∈ (labelChars (cs ++ '@' :: rest)).takeWhile (· != '@') ↔ c ∈ cs := by
  obtain ⟨mark, tilde, opens, closes⟩ := ne_of_isEscaped escaped
  obtain ⟨body, whole, cut⟩ := takeWhile_labelChars before rest
  have inText : c ∈ cs ↔ c ∈ body ++ closing (overbarRuns false (cs.map toggle)) := by
    rw [← whole, mem_overbarFrom tilde opens closes, mem_map_toggle mark tilde]
  rw [cut, inText, List.mem_append, closing]
  split <;> simp [closes]

/-- The net that a name implies is all of it, or what stands before its first at sign. -/
theorem impliedNet_cases (name : String) : '@' ∉ name.toList ∧ (impliedNet name).toList = name.toList ∨
    '@' ∈ name.toList ∧ '@' ∉ (impliedNet name).toList ∧
      ∃ rest, name.toList = (impliedNet name).toList ++ '@' :: rest := by
  rw [toList_impliedNet]
  by_cases there : '@' ∈ name.toList
  · obtain ⟨net, rest, split, before⟩ := List.eq_append_cons_of_mem there
    refine .inr ⟨there, ?_⟩
    rw [split, takeWhile_at_sign before]
    exact ⟨before, rest, rfl⟩
  · exact .inl ⟨there, takeWhile_no_at_sign there⟩

/-- The label that a symbol's pin implies and those of the net that the pin's name implies bear one text
    for some names and no others. -/
theorem implied_eq_label_iff (connected : Bool) (name : String) :
    escapeIn .netName (impliedNet (symbolPin connected name)) = label (impliedNet name) ↔ JoinsNet connected name := by
  unfold escapeIn symbolPin JoinsNet label
  rw [String.ofList_inj]
  cases connected with
  | false =>
    simp only [Bool.false_eq_true, if_false]
    rw [escapeChars_eq_iff fun c escaped => mem_labelChars escaped, eq_comm (a := (impliedNet name).toList),
      labelChars_eq_self_iff]
  | true =>
    simp only [if_true]
    rw [toList_impliedNet, String.toList_ofList]
    rcases impliedNet_cases name with ⟨none, whole⟩ | ⟨there, before, rest, split⟩
    · have noAtSign : '@' ∉ labelChars name.toList := by
        rwa [labelChars, mem_overbarChars (by decide) (by decide) (by decide), mem_map_toggle (by decide) (by decide)]
      rw [takeWhile_no_at_sign noAtSign, whole, escapeChars_eq_iff fun c escaped => Iff.rfl,
        plain_iff fun c escaped => mem_labelChars escaped]
      exact and_congr_right fun _ => ⟨fun _ there => absurd there none, fun _ => rfl⟩
    · rw [split, escapeChars_eq_iff fun c escaped => (mem_labelChars escaped).trans (mem_cut escaped before rest).symm,
        plain_iff fun c escaped => mem_cut escaped before rest, cut_eq_labelChars_iff before]
      exact and_congr_right fun _ => ⟨fun closed _ => closed, fun closed => closed (by simp)⟩

example : JoinsNet true "!EN" ∧ JoinsNet true "!A!@1" ∧ ¬ JoinsNet true "!A@1" ∧ ¬ JoinsNet false "!EN" := by
  decide +kernel

end Implied

end Name

/-! ## Labels of supply pins -/

/-- The device says which pads its pins are connected to. -/
def Eagle.Device.connected (d : Eagle.Device) : Bool := !d.connects.isEmpty

section Pins
variable {device : Eagle.Device} {gate : String}

theorem UnitDrawing.numberedPins_of {count : Nat} {drawn pin : Pin}
    (member : pin ∈ numberedPins device gate count drawn) :
    pin.name = Name.symbolPin device.connected drawn.name ∧ pin.kind = drawn.kind := by
  unfold numberedPins at member
  unfold Name.symbolPin Eagle.Device.connected
  split at member
  · rename_i none
    rw [none, List.mem_singleton.1 member]
    exact ⟨rfl, rfl⟩
  · rename_i some
    rw [if_pos (by simpa using some)]
    split at member
    · obtain ⟨pad, _, rfl⟩ := List.mem_map.1 member
      exact ⟨rfl, rfl⟩
    · cases member

/-- A symbol's pin has its name and kind from the pin that it is drawn for. -/
theorem Eagle.Pin.Draws.of {p : Eagle.Pin} {pin : Redraft.Pin} (draws : p.Draws device gate pin) :
    pin.name = Name.symbolPin device.connected p.name ∧ pin.kind = pinKind p.direction := by
  obtain ⟨count, report, drawn, ran, member⟩ := draws
  obtain ⟨degrees, _, same⟩ := bind_ok.1 ran
  cases same
  have kept := UnitDrawing.numberedPins_of member
  exact kept

end Pins

section Labels
open Drafting
variable {library : Eagle.Library} {deviceSet : Eagle.DeviceSet} {device : Eagle.Device} {report : Report}
  {symbol : Symbol} {s : Sheet} {x : PlacedSymbol} {l : NetLabel}

/-- A label that a placed symbol implies is that of a supply pin of its device. -/
theorem implied_of_device (made : drawDevice library deviceSet device = .ok ⟨report, .ok symbol⟩)
    (implied : l ∈ s.impliedLabels x symbol) : ∃ p pin point, DrawnFor library deviceSet device p pin ∧
      pinKind p.direction = .powerIn ∧ (pin, point) ∈ x.pinPoints symbol ∧ l = impliedLabel pin point ∧
      pin.name = Name.symbolPin device.connected p.name := by
  obtain ⟨_, pin, point, here, kind, _, same⟩ := Sheet.mem_impliedLabels.1 implied
  obtain ⟨pin', isPin, entry⟩ := List.mem_map.1 here
  obtain ⟨rfl, _⟩ := Prod.mk.inj entry
  obtain ⟨p, drawn⟩ := (drawDevice_ok made).2 _ _ isPin
  obtain ⟨gate, _, source, _, _, draws⟩ := id drawn
  obtain ⟨name, kind'⟩ := draws.of
  exact ⟨p, pin', point, drawn, kind'.symm.trans kind, here, same, name⟩

/-- The label that a supply pin implies joins the net that the pin's name implies just if the name is
    one of those that are written alike for both. -/
theorem implied_label_joins_iff (made : drawDevice library deviceSet device = .ok ⟨report, .ok symbol⟩)
    (implied : l ∈ s.impliedLabels x symbol) : ∃ p pin point, DrawnFor library deviceSet device p pin ∧
      pinKind p.direction = .powerIn ∧ (pin, point) ∈ x.pinPoints symbol ∧ l = impliedLabel pin point ∧
      ∀ (c : Context) (n : Eagle.Net) (d d' : Desk), n.name = Name.impliedNet p.name →
        Ends (drawNet c n.name false n) d () d' → ∃ labels, d'.sheet.labels = d.sheet.labels ++ labels ∧
          ∀ k ∈ labels, l.text = k.text ↔ Name.JoinsNet device.connected p.name := by
  obtain ⟨p, pin, point, drawn, kind, here, same, name⟩ := implied_of_device made implied
  refine ⟨p, pin, point, drawn, kind, here, same, fun c n d d' isNet ran => ?_⟩
  obtain ⟨labels, made, grown⟩ := grown_drawNet ran
  refine ⟨labels, grown.labels, fun k member => ?_⟩
  rw [same, made.named member, isNet, ← Name.implied_eq_label_iff, ← name]
  rfl

end Labels

/-- A device without connections. -/
def bareDevice : Eagle.Device := ⟨"", none, []⟩

def bareSet : Eagle.DeviceSet := ⟨"X", "U", [⟨"G", "S", ⟨0, 0⟩⟩], [bareDevice]⟩

/-- A supply pin with a toggle in its name. -/
def enablePin : Eagle.Pin := ⟨"!EN", ⟨0, 0⟩, none, none, some "pwr", none, none⟩

def enableLibrary : Eagle.Library where
  name := "a"
  symbols := [("S", ⟨"S", [.pin enablePin]⟩)]
  deviceSets := [bareSet]

/-- A placed symbol of the device. -/
def enableUnit : PlacedSymbol where
  name := "X"
  placement := ⟨⟨0, 0⟩, .zero, .plain⟩
  unit := 1
  fields := []
  pinNumbers := ["1"]
  pinOwner := ⟨.root, 0⟩
  reference := "#U1"
  path := .root

/-- What sheets share if there are no parts. -/
def noParts : Context := { library := "demo", project := "demo" }

/-- An empty sheet at a desk. -/
def blankDesk : Desk := { sheet := noParts.newSheet "demo" "demo.kicad_sch" .root ⟨some "A4", ⟨2970000, 2100000⟩⟩ }

open Drafting in
/-- The pin implies the label `!EN`, and the label of the net `!EN` has an overbar. -/
theorem enablePin_written : ∃ report symbol, ∃ l : NetLabel, ∃ d : Desk,
    drawDevice enableLibrary bareSet bareDevice = .ok ⟨report, .ok symbol⟩ ∧
    l ∈ blankDesk.sheet.impliedLabels enableUnit symbol ∧ l.text = "!EN" ∧
    Ends (drawNet noParts "!EN" false (labelledNet "!EN" ⟨0, 0⟩)) blankDesk () d ∧
    d.sheet.labels.map (·.text) = ["~\x7bEN\x7d"] := by
  have checked : (drawDevice enableLibrary bareSet bareDevice).toOption.any (fun result =>
      result.symbol.toOption.any fun symbol =>
        (blankDesk.sheet.impliedLabels enableUnit symbol).any (·.text = "!EN")) = true := by decide +kernel
  obtain ⟨⟨report, symbol⟩, made, holds⟩ := (Option.any_eq_true ..).1 checked
  obtain ⟨symbol, isSymbol, holds⟩ := (Option.any_eq_true ..).1 holds
  obtain rfl := ok_of_toOption isSymbol
  obtain ⟨l, implied, text⟩ := List.any_eq_true.1 holds
  have ran : ((drawNet noParts "!EN" false (labelledNet "!EN" ⟨0, 0⟩)).outcome blankDesk).1.toBool := by decide +kernel
  exact ⟨report, symbol, l, _, ok_of_toOption made, implied, of_decide_eq_true text, .of_toBool ran, by decide +kernel⟩

open Drafting in
/-- The label of a supply pin need not be that of the net that its name implies. -/
theorem not_all_implied_labels_join : ¬ ∀ (library : Eagle.Library) (deviceSet : Eagle.DeviceSet)
    (device : Eagle.Device) (report : Report) (symbol : Symbol) (s : Sheet) (x : PlacedSymbol) (l : NetLabel)
    (p : Eagle.Pin) (pin : Pin) (point : Point) (c : Context) (n : Eagle.Net) (d d' : Desk) (labels : List NetLabel),
    drawDevice library deviceSet device = .ok ⟨report, .ok symbol⟩ → l ∈ s.impliedLabels x symbol →
    DrawnFor library deviceSet device p pin → (pin, point) ∈ x.pinPoints symbol → l = impliedLabel pin point →
    n.name = Name.impliedNet p.name → Ends (drawNet c n.name false n) d () d' →
    d'.sheet.labels = d.sheet.labels ++ labels → ∀ k ∈ labels, l.text = k.text := by
  intro claim
  obtain ⟨report, symbol, l, d, made, implied, text, ran, texts⟩ := enablePin_written
  obtain ⟨p, pin, point, drawn, _, here, same, _⟩ := implied_of_device made implied
  have isPin : p = enablePin := by
    obtain ⟨gate, isGate, source, found, isItem, _⟩ := id drawn
    obtain rfl := List.mem_singleton.1 isGate
    obtain rfl := Option.some.inj found
    exact Eagle.Item.pin.inj (List.mem_singleton.1 isItem)
  obtain ⟨labels, _, grown⟩ := grown_drawNet ran
  rw [grown.labels] at texts
  obtain ⟨k, member, written⟩ : ∃ k ∈ labels, k.text = "~\x7bEN\x7d" := List.mem_map.1 (texts ▸ .head _)
  have joined := claim _ _ _ _ _ _ _ _ p pin point noParts (labelledNet "!EN" ⟨0, 0⟩) _ _ _ made implied drawn here same
    (by rw [isPin]; decide +kernel) ran grown.labels k member
  rw [text, written] at joined
  exact absurd joined (by decide)

open Drafting in
/-- The label of the pin joins the net just if the pin's name is written already, which it is not. -/
theorem enablePin_joins_iff : ∃ report symbol, ∃ l : NetLabel,
    drawDevice enableLibrary bareSet bareDevice = .ok ⟨report, .ok symbol⟩ ∧
    l ∈ blankDesk.sheet.impliedLabels enableUnit symbol ∧ ∃ p pin point,
      DrawnFor enableLibrary bareSet bareDevice p pin ∧ pinKind p.direction = .powerIn ∧
      (pin, point) ∈ enableUnit.pinPoints symbol ∧ l = impliedLabel pin point ∧
      ∀ (c : Context) (n : Eagle.Net) (d d' : Desk), n.name = Name.impliedNet p.name →
        Ends (drawNet c n.name false n) d () d' → ∃ labels, d'.sheet.labels = d.sheet.labels ++ labels ∧
          ∀ k ∈ labels, l.text = k.text ↔ Name.JoinsNet bareDevice.connected p.name := by
  obtain ⟨report, symbol, l, _, made, implied, _⟩ := enablePin_written
  exact ⟨report, symbol, l, made, implied, implied_label_joins_iff made implied⟩

end Redraft
