import Redraft.Proofs.BinaryNumbers
import Redraft.Proofs.SheetDrawing

/-!
# The correction of labels

A label that touches a wire of its own group off the crossings stays where it
is, and one that moves comes to such a place. Each label is moved once and on
its own: where it comes to depends on where it was, the wires of its group and
the crossings, so correcting a corrected sheet moves nothing.
-/

namespace Redraft

/-! ## The search for a place -/

theorem walkFrom_free {inside blocked : Point → Bool} {origin step p : Point} {d : Directions} {n left : Nat}
    (found : walkFrom inside blocked origin step d n left = some p) :
    inside p = true ∧ blocked p = false ∧ ∃ k, p = probe origin step k := by
  induction left generalizing d n with
  | zero => cases found
  | succ left ih =>
    rw [walkFrom] at found
    split at found
    · cases found
    split at found
    · exact ih found
    dsimp only at found
    split at found
    · exact ih found
    · rename_i isInside
      split at found
      · exact ih found
      · rename_i free
        obtain rfl := Option.some.inj found
        exact ⟨by simpa using isInside, by simpa using free, n, rfl⟩

theorem freePlace_free {origin p : Point} {wire : Segment} {blocked : Point → Bool} {length : Int} {trials : Nat}
    (found : freePlace origin wire blocked length trials = .ok (some p)) : wire.touches p = true ∧ blocked p = false ∧
      ∃ step, wire.direction.resize length = .ok step ∧ ∃ k, p = probe origin step k := by
  obtain ⟨step, resized, walked⟩ := bind_ok.1 found
  obtain ⟨touches, free, isProbe⟩ := walkFrom_free (Except.ok.inj walked)
  refine ⟨touches, free, step, ?_, isProbe⟩
  cases isStep : wire.direction.resize length with
  | error cause =>
    rw [isStep] at resized
    cases resized
  | ok step' =>
    rw [isStep] at resized
    rw [Except.ok.inj resized]

theorem mem_of_nearestFoothold {p : Point} {wires : List Segment} {f : Foothold}
    (found : nearestFoothold p wires = some f) : f ∈ footholds wires := by
  have fold (l : List Foothold) (best : Option Foothold) (found : l.foldl (nearer p) best = some f) :
      best = some f ∨ f ∈ l := by
    induction l generalizing best with
    | nil => exact .inl found
    | cons next l ih =>
      rcases ih _ found with here | later
      · unfold nearer at here
        split at here
        · exact .inr (Option.some.inj here ▸ .head _)
        · split at here
          · exact .inr (Option.some.inj here ▸ .head _)
          · exact .inl here
      · exact .inr (.tail _ later)
  exact (fold _ none found).resolve_left nofun

theorem mem_footholds {wires : List Segment} {f : Foothold} (member : f ∈ footholds wires) :
    f.wire ∈ wires ∧ (f.place = f.wire.a ∨ f.place = f.wire.center ∨ f.place = f.wire.b) := by
  obtain ⟨s, isWire, member⟩ := List.mem_flatMap.1 member
  simp only [List.mem_cons, List.not_mem_nil, or_false] at member
  rcases member with rfl | rfl | rfl
  · exact ⟨isWire, .inl rfl⟩
  · exact ⟨isWire, .inr (.inl rfl)⟩
  · exact ⟨isWire, .inr (.inr rfl)⟩

/-- The point touches a wire of the group. -/
def NetGroup.Holds (g : NetGroup) (p : Point) : Prop := ∃ w ∈ g.wires, w.touches p = true

theorem NetGroup.wireAt?_eq_none {g : NetGroup} {p : Point} : g.wireAt? p = none ↔ ¬g.Holds p := by
  simp [wireAt?, Holds]

namespace Tracker
variable {t t' : Tracker} {g : NetGroup} {p q : Point}

/-- A label on a wire of its group and on no crossing has no new place. -/
theorem newPlace_of_holds (held : g.Holds p) (free : t.isCrossing p = false) : t.newPlace g p = .ok none := by
  unfold newPlace
  cases found : g.wireAt? p with
  | none => exact absurd held (NetGroup.wireAt?_eq_none.1 found)
  | some wire => simp [free]

/-- A label is moved along a wire of its group from an origin: the wire that it touches from where it is, or else
    the wire of the nearest foothold from there. -/
inductive MovesAlong (g : NetGroup) (p : Point) : Segment → Point → Prop
  | attached {wire : Segment} (touched : g.wireAt? p = some wire) : MovesAlong g p wire p
  | floating {foothold : Foothold} (apart : ¬g.Holds p) (nearest : foothold ∈ footholds g.wires) :
    MovesAlong g p foothold.wire foothold.place

theorem MovesAlong.wire_mem {w : Segment} {origin : Point} (along : MovesAlong g p w origin) : w ∈ g.wires := by
  cases along with
  | attached touched => exact List.mem_of_find?_eq_some touched
  | floating apart nearest => exact (mem_footholds nearest).1

/-- A new place is a free probe of a walk along a wire of the group, and new. -/
theorem newPlace_walk (found : t.newPlace g p = .ok (some q)) : q ≠ p ∧ ∃ w origin, MovesAlong g p w origin ∧
    freePlace origin w t.isCrossing labelStep maxLabelTrials = .ok (some q) := by
  unfold newPlace at found
  cases attached : g.wireAt? p with
  | some wire =>
    rw [attached] at found
    by_cases crossed : t.isCrossing p
    · simp only [crossed, if_true] at found
      refine ⟨?_, wire, p, .attached attached, found⟩
      rintro rfl
      exact absurd crossed (by simp [(freePlace_free found).2.1])
    · simp [crossed] at found
  | none =>
    rw [attached] at found
    have apart := NetGroup.wireAt?_eq_none.1 attached
    cases isNearest : nearestFoothold p g.wires with
    | none =>
      rw [isNearest] at found
      cases found
    | some foothold =>
      rw [isNearest] at found
      have nearest := mem_of_nearestFoothold isNearest
      refine ⟨?_, foothold.wire, foothold.place, .floating apart nearest, found⟩
      rintro rfl
      exact apart ⟨foothold.wire, (mem_footholds nearest).1, (freePlace_free found).1⟩

theorem newPlace_some (found : t.newPlace g p = .ok (some q)) :
    g.Holds q ∧ t.isCrossing q = false ∧ q ≠ p := by
  obtain ⟨new, w, origin, along, walked⟩ := newPlace_walk found
  obtain ⟨touches, free, _⟩ := freePlace_free walked
  exact ⟨⟨w, along.wire_mem, touches⟩, free, new⟩

/-- A new place is told from the old one, the wires of the group and the crossings. -/
theorem newPlace_congr {g' : NetGroup} (wires : g.wires = g'.wires)
    (crossings : ∀ p, t.isCrossing p = t'.isCrossing p) : t.newPlace g p = t'.newPlace g' p := by
  have same : t.isCrossing = t'.isCrossing := funext crossings
  simp only [newPlace, NetGroup.wireAt?, wires, same]

theorem newPlace_again {place : Option Point} (found : t.newPlace g p = .ok place) :
    t.newPlace g (place.getD p) = .ok none := by
  cases place with
  | none => exact found
  | some q =>
    obtain ⟨held, free, _⟩ := newPlace_some found
    exact newPlace_of_holds held free

theorem freePlace_returns {origin : Point} {wire : Segment} {blocked : Point → Bool} {trials : Nat}
    (moderate : wire.Moderate) : ∃ place, freePlace origin wire blocked labelStep trials = .ok place := by
  obtain ⟨⟨first, second⟩, third, fourth⟩ := moderate
  have double := two_pow_moderateDigits
  have along : wire.direction.x.natAbs < 2 ^ (moderateDigits + 1) := by
    simp only [Segment.direction, Point.sub_x]
    omega
  have down : wire.direction.y.natAbs < 2 ^ (moderateDigits + 1) := by
    simp only [Segment.direction, Point.sub_y]
    omega
  have short : labelStep.natAbs < 2 ^ 14 := by decide
  obtain ⟨step, resized⟩ := Point.resize_ok along down short (by decide) (by decide)
  refine ⟨walk wire.touches blocked origin step trials, ?_⟩
  unfold freePlace
  rw [resized]
  rfl

theorem newPlace_returns (moderate : ∀ w ∈ g.wires, w.Moderate) (p : Point) : ∃ place, t.newPlace g p = .ok place := by
  unfold newPlace
  cases attached : g.wireAt? p with
  | some wire =>
    dsimp only
    split
    · exact freePlace_returns (moderate wire (List.mem_of_find?_eq_some attached))
    · exact ⟨none, rfl⟩
  | none =>
    cases isNearest : nearestFoothold p g.wires with
    | none => exact ⟨none, rfl⟩
    | some foothold =>
      exact freePlace_returns (moderate foothold.wire (mem_footholds (mem_of_nearestFoothold isNearest)).1)

/-! ## One label after the other -/

/-- The tracked labels, each with its group, in the order in which they move. -/
def owned (t : Tracker) : List (NetGroup × Nat) := t.tracked.flatMap fun g => g.labels.map (g, ·)

/-- The places of all labels, and how many labels have moved, after one more has found its place. -/
def settle (t : Tracker) (state : List Point × Nat) (entry : NetGroup × Nat) : Except Failure (List Point × Nat) := do
  match ← t.newPlace entry.1 (state.1[entry.2]?.getD Point.origin) with
  | some p => return (state.1.set entry.2 p, state.2 + 1)
  | none => return state

theorem mem_owned {n : Nat} : (g, n) ∈ t.owned ↔ g ∈ t.tracked ∧ n ∈ g.labels := by
  simp only [owned, List.mem_flatMap, List.mem_map, Prod.mk.injEq]
  constructor
  · rintro ⟨g', isTracked, n', isLabel, rfl, rfl⟩
    exact ⟨isTracked, isLabel⟩
  · rintro ⟨isTracked, isLabel⟩
    exact ⟨g, isTracked, n, isLabel, rfl, rfl⟩

theorem adjust_eq (labels : List Point) : t.adjust labels = t.owned.foldlM t.settle (labels, 0) := by
  have group (g : NetGroup) (state : List Point × Nat) :
      t.adjustGroup state g = (g.labels.map (g, ·)).foldlM t.settle state := by
    rw [List.foldlM_map]
    rfl
  have fold (groups : List NetGroup) (state : List Point × Nat) : groups.foldlM t.adjustGroup state =
      (groups.flatMap fun g => g.labels.map (g, ·)).foldlM t.settle state := by
    induction groups generalizing state with
    | nil => rfl
    | cons g groups ih =>
      rw [List.foldlM_cons, List.flatMap_cons, List.foldlM_append, group]
      simp only [ih]
  exact fold t.tracked (labels, 0)

theorem adjust_returns (moderate : ∀ g ∈ t.tracked, ∀ w ∈ g.wires, w.Moderate) (labels : List Point) :
    ∃ result, t.adjust labels = .ok result := by
  rw [adjust_eq]
  refine foldlM_returns (fun state entry member => ?_) _
  obtain ⟨place, found⟩ := newPlace_returns (t := t) (moderate _ (mem_owned.1 member).1)
    (state.1[entry.2]?.getD Point.origin)
  unfold settle
  rw [found]
  cases place with
  | none => exact ⟨state, rfl⟩
  | some q => exact ⟨_, rfl⟩

/-- How many places differ. -/
def changes (ps qs : List Point) : Nat := (ps.zip qs).countP fun e => e.1 ≠ e.2

theorem changes_self (ps : List Point) : changes ps ps = 0 := by
  induction ps with
  | nil => rfl
  | cons p ps ih => simpa [changes] using ih

/-- Of two lists of places, one place put right makes one change less. -/
theorem changes_set {ps qs : List Point} {n : Nat} (here : ps[n]? = some p) (there : qs[n]? = some q) (moved : q ≠ p) :
    changes ps qs = changes (ps.set n q) qs + 1 := by
  induction ps generalizing qs n with
  | nil => cases here
  | cons a ps ih =>
    cases qs with
    | nil => cases there
    | cons b qs =>
      cases n with
      | zero =>
        obtain rfl := Option.some.inj here
        obtain rfl := Option.some.inj there
        simp [changes, Ne.symm moved]
      | succ n =>
        have rest := ih here there
        simp only [changes, List.set_cons_succ, List.zip_cons_cons, List.countP_cons] at rest ⊢
        omega

theorem set_same {ps : List Point} {n : Nat} (here : ps[n]? = some p) : ps.set n p = ps := by
  obtain ⟨inside, rfl⟩ := List.getElem?_eq_some_iff.1 here
  exact List.set_getElem_self inside

/-- A label that has found its place is one change, if it has moved. -/
theorem changes_of_newPlace {ps qs : List Point} {n : Nat} {place : Option Point} (found : t.newPlace g p = .ok place)
    (here : ps[n]? = some p) (there : qs[n]? = some (place.getD p)) :
    changes ps qs = place.toList.length + changes (ps.set n (place.getD p)) qs := by
  cases place with
  | none => simp [set_same here]
  | some q =>
    rw [changes_set here there (newPlace_some found).2.2, Nat.add_comm]
    rfl

/-- The labels of some entries have moved, each to its own new place. -/
structure Settled (t : Tracker) (entries : List (NetGroup × Nat)) (before after : List Point) : Prop where
  length : after.length = before.length
  others : ∀ n, (∀ e ∈ entries, e.2 ≠ n) → after[n]? = before[n]?
  places : ∀ e ∈ entries, ∀ p, before[e.2]? = some p →
    ∃ place, t.newPlace e.1 p = .ok place ∧ after[e.2]? = some (place.getD p)

/-- A label goes to its new place, if it finds one, and then counts. -/
theorem settle_of_newPlace {state : List Point × Nat} {entry : NetGroup × Nat} {place : Option Point}
    (here : state.1[entry.2]? = some p) (found : t.newPlace entry.1 p = .ok place) :
    t.settle state entry = .ok (state.1.set entry.2 (place.getD p), state.2 + place.toList.length) := by
  unfold settle
  rw [here, Option.getD_some, found]
  cases place with
  | none =>
    rw [Option.getD_none, set_same here]
    rfl
  | some q => rfl

theorem settle_ok {state state' : List Point × Nat} {entry : NetGroup × Nat} (ran : t.settle state entry = .ok state')
    (here : state.1[entry.2]? = some p) : ∃ place, t.newPlace entry.1 p = .ok place ∧
      state'.1 = state.1.set entry.2 (place.getD p) ∧ state'.2 = state.2 + place.toList.length := by
  obtain ⟨place, found, _⟩ := bind_ok.1 ran
  rw [here, Option.getD_some] at found
  obtain rfl := Except.ok.inj ((settle_of_newPlace here found).symm.trans ran)
  exact ⟨place, found, rfl, rfl⟩

/-- Labels with numbers of their own settle one after the other, and each that moves is counted. -/
theorem settled_of_foldlM {entries : List (NetGroup × Nat)} {state state' : List Point × Nat}
    (ran : entries.foldlM t.settle state = .ok state') (once : (entries.map (·.2)).Nodup)
    (exist : ∀ e ∈ entries, e.2 < state.1.length) :
    Settled t entries state.1 state'.1 ∧ state'.2 = state.2 + changes state.1 state'.1 := by
  induction entries generalizing state with
  | nil =>
    cases ran
    exact ⟨⟨rfl, fun _ _ => rfl, nofun⟩, by rw [changes_self, Nat.add_zero]⟩
  | cons entry entries ih =>
    rw [List.foldlM_cons] at ran
    obtain ⟨middle, first, rest⟩ := bind_ok.1 ran
    rw [List.map_cons, List.nodup_cons] at once
    have inside := exist entry (.head _)
    obtain ⟨p, here⟩ : ∃ p, state.1[entry.2]? = some p := ⟨_, List.getElem?_eq_getElem inside⟩
    obtain ⟨place, found, places, count⟩ := settle_ok first here
    obtain ⟨settled, counted⟩ := ih rest once.2 fun e member => by
      rw [places, List.length_set]
      exact exist e (.tail _ member)
    -- the labels that follow have other numbers, so this one keeps its place
    have apart : ∀ e ∈ entries, e.2 ≠ entry.2 := fun e member same =>
      once.1 (List.mem_map.2 ⟨e, member, same⟩)
    have done : state'.1[entry.2]? = some (place.getD p) := by
      rw [settled.others _ apart, places, List.getElem?_set_self inside]
    refine ⟨⟨?_, ?_, ?_⟩, ?_⟩
    · rw [settled.length, places, List.length_set]
    · intro n others
      rw [settled.others n fun e member => others e (.tail _ member), places,
        List.getElem?_set_ne (others entry (.head _))]
    · intro e member q isOld
      rcases List.mem_cons.1 member with rfl | later
      · obtain rfl := Option.some.inj (here.symm.trans isOld)
        exact ⟨place, found, done⟩
      · refine settled.places e later q ?_
        rwa [places, List.getElem?_set_ne (Ne.symm (apart e later))]
    · rw [counted, count, changes_of_newPlace found here done, places, Nat.add_assoc]

theorem foldlM_settle_of_none {entries : List (NetGroup × Nat)} {state : List Point × Nat}
    (none : ∀ e ∈ entries, ∀ p, state.1[e.2]? = some p → t.newPlace e.1 p = .ok none)
    (exist : ∀ e ∈ entries, e.2 < state.1.length) : entries.foldlM t.settle state = .ok state := by
  induction entries with
  | nil => rfl
  | cons entry entries ih =>
    have here := List.getElem?_eq_getElem (exist entry (.head _))
    have stays := settle_of_newPlace here (none entry (.head _) _ here)
    rw [Option.getD_none, set_same here] at stays
    rw [List.foldlM_cons, stays]
    exact ih (fun e member => none e (.tail _ member)) fun e member => exist e (.tail _ member)

end Tracker

/-! ## The labels of a sheet -/

/-- The places of the labels of a sheet. -/
def Sheet.places (s : Sheet) : List Point := s.labels.map (·.position)

/-- Each label that is tracked is a label of the sheet, and is tracked once. -/
structure Sheet.TracksOnce (s : Sheet) : Prop where
  once : (s.tracker.tracked.flatMap (·.labels)).Nodup
  exist : ∀ n ∈ s.tracker.tracked.flatMap (·.labels), n < s.labels.length

namespace Sheet
variable {s : Sheet} {places : List Point}

theorem placeLabels_getElem? (s : Sheet) (places : List Point) (n : Nat) : (s.placeLabels places).labels[n]? =
    s.labels[n]?.bind fun l => places[n]?.map fun position => { l with position } := by
  rw [placeLabels, List.getElem?_zipWith]
  cases s.labels[n]? <;> cases places[n]? <;> rfl

theorem places_placeLabels (same : places.length = s.labels.length) : (s.placeLabels places).places = places := by
  apply List.ext_getElem
  · simp [Sheet.places, placeLabels, same]
  · intro n _ _
    simp [Sheet.places, placeLabels]

theorem placeLabels_places (s : Sheet) : s.placeLabels s.places = s := by
  have same : s.labels.zipWith (fun l position => { l with position }) s.places = s.labels := by
    simp [Sheet.places, List.zipWith_map_right, List.zipWith_self]
  rw [placeLabels, same]

theorem TracksOnce.owned (tracks : s.TracksOnce) : (s.tracker.owned.map (·.2)).Nodup ∧
    ∀ e ∈ s.tracker.owned, e.2 < s.places.length := by
  have numbers : s.tracker.owned.map (·.2) = s.tracker.tracked.flatMap (·.labels) := by
    simp [Tracker.owned, List.map_flatMap, Function.comp_def]
  refine ⟨numbers ▸ tracks.once, fun e member => ?_⟩
  rw [Sheet.places, List.length_map]
  exact tracks.exist _ (numbers ▸ List.mem_map_of_mem member)

end Sheet

open Drafting in
theorem ends_adjustLabels_iff {d d' : Desk} {moved : Nat} : Ends adjustLabels d moved d' ↔ ∃ places,
    d.sheet.tracker.adjust d.sheet.places = .ok (places, moved) ∧
      d' = { d with sheet := { d.sheet.placeLabels places with tracker := d.sheet.tracker.clear } } := by
  unfold adjustLabels
  constructor
  · intro ran
    obtain ⟨_, _, looked, ran⟩ := ends_bind.1 ran
    obtain ⟨rfl, rfl⟩ := ends_sheet.1 looked
    obtain ⟨⟨places, count⟩, _, lifted, ran⟩ := ends_bind.1 ran
    obtain ⟨found, rfl⟩ := ends_lift.1 lifted
    obtain ⟨_, _, changed, ran⟩ := ends_bind.1 ran
    obtain ⟨rfl, rfl⟩ := ends_pure.1 ran
    exact ⟨places, found, (ends_changeSheet.1 changed).symm⟩
  · rintro ⟨places, found, rfl⟩
    refine ends_bind.2 ⟨_, _, ends_sheet.2 ⟨rfl, rfl⟩, ?_⟩
    refine ends_bind.2 ⟨_, _, ends_lift.2 ⟨found, rfl⟩, ?_⟩
    exact ends_bind.2 ⟨_, _, ends_changeSheet.2 rfl, ends_pure.2 ⟨rfl, rfl⟩⟩

/-- Two desks between which the labels have been corrected, so many of them moved. -/
structure LabelsCorrected (before after : Desk) (moved : Nat) : Prop where
  rest : after = { before with sheet :=
    { before.sheet with labels := after.sheet.labels, tracker := before.sheet.tracker.clear } }
  unplaced : after.sheet.labels.map NetLabel.unplaced = before.sheet.labels.map NetLabel.unplaced
  cleared : after.sheet.tracker.tracked = [] ∧ after.sheet.tracker.crossings = []
  untracked : ∀ n, n ∉ before.sheet.tracker.tracked.flatMap (·.labels) →
    after.sheet.labels[n]? = before.sheet.labels[n]?
  stays : ∀ g ∈ before.sheet.tracker.tracked, ∀ n ∈ g.labels, ∀ l, before.sheet.labels[n]? = some l →
    g.Holds l.position → before.sheet.tracker.isCrossing l.position = false → after.sheet.labels[n]? = some l
  moves : ∀ g ∈ before.sheet.tracker.tracked, ∀ n ∈ g.labels, ∀ l l', before.sheet.labels[n]? = some l →
    after.sheet.labels[n]? = some l' → l'.position ≠ l.position →
    g.Holds l'.position ∧ before.sheet.tracker.isCrossing l'.position = false
  counted : moved = Tracker.changes before.sheet.places after.sheet.places
  again : Drafting.Ends adjustLabels { after with sheet := { after.sheet with tracker := before.sheet.tracker } } 0 after

section
open Drafting
variable {d d' : Desk} {moved : Nat}

/-- A run of the correction settles the tracked labels, and counts those that move. -/
theorem ends_adjustLabels_settled (tracks : d.sheet.TracksOnce) (ran : Ends adjustLabels d moved d') :
    d.sheet.tracker.Settled d.sheet.tracker.owned d.sheet.places d'.sheet.places ∧
    moved = Tracker.changes d.sheet.places d'.sheet.places ∧
    d' = { d with sheet := { d.sheet.placeLabels d'.sheet.places with tracker := d.sheet.tracker.clear } } := by
  obtain ⟨places, adjusted, rfl⟩ := ends_adjustLabels_iff.1 ran
  obtain ⟨once, exist⟩ := tracks.owned
  rw [Tracker.adjust_eq] at adjusted
  obtain ⟨settled, counted⟩ := Tracker.settled_of_foldlM adjusted once exist
  have length : places.length = d.sheet.labels.length := by simpa [Sheet.places] using settled.length
  have same : ({ d.sheet.placeLabels places with tracker := d.sheet.tracker.clear } : Sheet).places = places :=
    Sheet.places_placeLabels length
  refine ⟨same.symm ▸ settled, ?_, by rw [same]⟩
  rw [same]
  simpa using counted

/-- Labels that have settled find no new place. -/
theorem Tracker.Settled.again {t : Tracker} {before after : List Point} (settled : t.Settled t.owned before after)
    (exist : ∀ e ∈ t.owned, e.2 < before.length) : t.adjust after = .ok (after, 0) := by
  rw [Tracker.adjust_eq]
  refine Tracker.foldlM_settle_of_none (fun e member p here => ?_) fun e member => settled.length ▸ exist e member
  obtain ⟨place, found, there⟩ := settled.places e member _ (List.getElem?_eq_getElem (exist e member))
  obtain rfl := Option.some.inj (there.symm.trans here)
  exact Tracker.newPlace_again found

/-- Each tracked label that moves comes to a wire of its group off the crossings, one that is there stays, and
    nothing else changes. -/
theorem ends_adjustLabels_corrected (tracks : d.sheet.TracksOnce) (ran : Ends adjustLabels d moved d') :
    LabelsCorrected d d' moved := by
  obtain ⟨settled, counted, same⟩ := ends_adjustLabels_settled tracks ran
  have place (n : Nat) : d.sheet.places[n]? = d.sheet.labels[n]?.map (·.position) := List.getElem?_map ..
  have labels (n : Nat) : d'.sheet.labels[n]? =
      d.sheet.labels[n]?.bind fun l => d'.sheet.places[n]?.map fun position => { l with position } := by
    conv_lhs => rw [same]
    exact Sheet.placeLabels_getElem? ..
  have length : d'.sheet.places.length = d.sheet.labels.length := by
    rw [settled.length, Sheet.places, List.length_map]
  refine ⟨?_, ?_, ?_, ?_, ?_, ?_, counted, ?_⟩
  · conv_lhs => rw [same]
    conv_rhs => rw [same]
    rfl
  · conv_lhs => rw [same]
    exact Sheet.placeLabels_unplaced d.sheet length
  · rw [same]
    simp [Tracker.clear, Tracker.tracked, Tracker.size]
  · intro n apart
    have unmoved : d'.sheet.places[n]? = d.sheet.places[n]? := by
      refine settled.others n fun e member isLabel => apart (List.mem_flatMap.2 ?_)
      obtain ⟨isTracked, isOwn⟩ := Tracker.mem_owned.1 member
      exact ⟨e.1, isTracked, isLabel ▸ isOwn⟩
    rw [labels, unmoved, place]
    cases d.sheet.labels[n]? <;> rfl
  · intro g isTracked n isLabel l here held free
    have old : d.sheet.places[n]? = some l.position := by rw [place, here]; rfl
    obtain ⟨p, found, there⟩ := settled.places (g, n) (Tracker.mem_owned.2 ⟨isTracked, isLabel⟩) _ old
    rw [Tracker.newPlace_of_holds held free] at found
    obtain rfl := Except.ok.inj found
    rw [labels, here, there]
    rfl
  · intro g isTracked n isLabel l l' here there moved
    have old : d.sheet.places[n]? = some l.position := by rw [place, here]; rfl
    obtain ⟨p, found, new⟩ := settled.places (g, n) (Tracker.mem_owned.2 ⟨isTracked, isLabel⟩) _ old
    rw [labels, here, new] at there
    obtain rfl := Option.some.inj there
    cases p with
    | none => exact absurd rfl moved
    | some q =>
      obtain ⟨held, free, _⟩ := Tracker.newPlace_some found
      exact ⟨held, free⟩
  · refine ends_adjustLabels_iff.2 ⟨d'.sheet.places, settled.again tracks.owned.2, ?_⟩
    have again : ({ d'.sheet with tracker := d.sheet.tracker } : Sheet).placeLabels d'.sheet.places =
        { d'.sheet with tracker := d.sheet.tracker } :=
      Sheet.placeLabels_places { d'.sheet with tracker := d.sheet.tracker }
    simp only [again]
    have cleared : d'.sheet.tracker = d.sheet.tracker.clear := by rw [same]
    rw [← cleared]

/-- Where a tracked label comes to is told from where it was, the wires of its group and the crossings. -/
theorem ends_adjustLabels_place {e e' : Desk} {count : Nat} (tracks : d.sheet.TracksOnce)
    (tracks' : e.sheet.TracksOnce) (ran : Ends adjustLabels d moved d') (ran' : Ends adjustLabels e count e')
    {g h : NetGroup} (isTracked : g ∈ d.sheet.tracker.tracked) (isTracked' : h ∈ e.sheet.tracker.tracked)
    {n m : Nat} (isLabel : n ∈ g.labels) (isLabel' : m ∈ h.labels) (wires : g.wires = h.wires)
    (crossings : ∀ p, d.sheet.tracker.isCrossing p = e.sheet.tracker.isCrossing p)
    (same : d.sheet.places[n]? = e.sheet.places[m]?) : d'.sheet.places[n]? = e'.sheet.places[m]? := by
  obtain ⟨settled, _⟩ := ends_adjustLabels_settled tracks ran
  obtain ⟨settled', _⟩ := ends_adjustLabels_settled tracks' ran'
  have owned := Tracker.mem_owned.2 ⟨isTracked, isLabel⟩
  have owned' := Tracker.mem_owned.2 ⟨isTracked', isLabel'⟩
  have here := List.getElem?_eq_getElem (tracks.owned.2 _ owned)
  obtain ⟨place, found, there⟩ := settled.places _ owned _ here
  obtain ⟨place', found', there'⟩ := settled'.places _ owned' _ (same ▸ here)
  rw [Tracker.newPlace_congr wires crossings, found'] at found
  rw [there, there', Except.ok.inj found]

theorem ends_adjustLabels_returns (moderate : ∀ g ∈ d.sheet.tracker.tracked, ∀ w ∈ g.wires, w.Moderate) :
    ∃ moved d', Ends adjustLabels d moved d' := by
  obtain ⟨⟨places, moved⟩, adjusted⟩ := Tracker.adjust_returns moderate d.sheet.places
  exact ⟨moved, _, ends_adjustLabels_iff.2 ⟨places, adjusted, rfl⟩⟩

/-- Correction of the labels of a sheet, where each label is tracked once, changes places of tracked labels alone. It
    leaves a label that touches a wire of its group off the crossings, takes one that moves to such a place, counts
    those that move and has nothing left to move. Where a label comes to is the same on every sheet on which it has
    the same place and crossings, and its group the same wires. -/
theorem adjustLabels_corrects :
    (∀ d : Desk, d.sheet.TracksOnce →
      ((∀ g ∈ d.sheet.tracker.tracked, ∀ w ∈ g.wires, w.Moderate) → ∃ moved d', Ends adjustLabels d moved d') ∧
      ∀ moved d', Ends adjustLabels d moved d' → LabelsCorrected d d' moved) ∧
    ∀ d e : Desk, d.sheet.TracksOnce → e.sheet.TracksOnce →
      (∀ p, d.sheet.tracker.isCrossing p = e.sheet.tracker.isCrossing p) →
      ∀ moved count d' e', Ends adjustLabels d moved d' → Ends adjustLabels e count e' →
      ∀ g ∈ d.sheet.tracker.tracked, ∀ h ∈ e.sheet.tracker.tracked, g.wires = h.wires →
      ∀ n ∈ g.labels, ∀ m ∈ h.labels, d.sheet.places[n]? = e.sheet.places[m]? →
        d'.sheet.places[n]? = e'.sheet.places[m]? := by
  refine ⟨fun d tracks => ⟨ends_adjustLabels_returns, fun moved d' ran => ends_adjustLabels_corrected tracks ran⟩, ?_⟩
  intro d e tracks tracks' crossings moved count d' e' ran ran' g isTracked h isTracked' wires n isLabel m isLabel' same
  exact ends_adjustLabels_place tracks tracks' ran ran' isTracked isTracked' isLabel isLabel' wires crossings same

/-- A level wire that another net crosses, with a label on the crossing, one beside the wire and one on it. -/
def crossedDesk : Desk where
  sheet := {
    name := "demo", file := "demo.kicad_sch", path := .root, library := "demo", project := "demo"
    page := ⟨some "A4", ⟨2970000, 2100000⟩⟩
    labels := [⟨"A", ⟨25400, 0⟩, .right, 10000, .sheet⟩, ⟨"A", ⟨60000, 30000⟩, .right, 10000, .sheet⟩,
      ⟨"A", ⟨100000, 0⟩, .right, 10000, .sheet⟩]
    tracker := {
      groups := [⟨"A", false, [⟨⟨0, 0⟩, ⟨127000, 0⟩⟩], [0, 1, 2]⟩,
        ⟨"B", false, [⟨⟨25400, -25400⟩, ⟨25400, 25400⟩⟩], []⟩]
      crossings := [⟨25400, 0⟩] } }

/-- The same wires in another order, with the label beside the level one alone. -/
def aloneDesk : Desk where
  sheet := { crossedDesk.sheet with
    labels := [⟨"A", ⟨60000, 30000⟩, .left, 10000, .document⟩]
    tracker := {
      groups := [⟨"B", false, [⟨⟨25400, -25400⟩, ⟨25400, 25400⟩⟩], []⟩, ⟨"A", false, [⟨⟨0, 0⟩, ⟨127000, 0⟩⟩], [0]⟩]
      crossings := [⟨25400, 0⟩] } }

/-- The label on the crossing makes a step, and the one beside the wire goes to its middle, where it also goes alone. -/
theorem crossedDesk_corrected : ∃ after alone, Ends adjustLabels crossedDesk 2 after ∧
    Ends adjustLabels aloneDesk 1 alone ∧ after.sheet.places = [⟨38100, 0⟩, ⟨63500, 0⟩, ⟨100000, 0⟩] ∧
    LabelsCorrected crossedDesk after 2 ∧ (∃ moved d', Ends adjustLabels crossedDesk moved d') ∧
    after.sheet.places[1]? = alone.sheet.places[0]? := by
  have tracks : crossedDesk.sheet.TracksOnce := ⟨by decide, by decide⟩
  have tracks' : aloneDesk.sheet.TracksOnce := ⟨by decide, by decide⟩
  have moderate : ∀ g ∈ crossedDesk.sheet.tracker.tracked, ∀ w ∈ g.wires, w.Moderate := by
    unfold Segment.Moderate Point.Moderate
    decide +kernel
  have adjusted : crossedDesk.sheet.tracker.adjust crossedDesk.sheet.places =
      .ok ([⟨38100, 0⟩, ⟨63500, 0⟩, ⟨100000, 0⟩], 2) := ok_of_toOption (by decide +kernel)
  have adjusted' : aloneDesk.sheet.tracker.adjust aloneDesk.sheet.places = .ok ([⟨63500, 0⟩], 1) :=
    ok_of_toOption (by decide +kernel)
  have ran := ends_adjustLabels_iff.2 ⟨_, adjusted, rfl⟩
  have ran' := ends_adjustLabels_iff.2 ⟨_, adjusted', rfl⟩
  obtain ⟨corrects, alike⟩ := adjustLabels_corrects
  obtain ⟨returns, corrected⟩ := corrects crossedDesk tracks
  exact ⟨_, _, ran, ran', rfl, corrected _ _ ran, returns moderate,
    alike crossedDesk aloneDesk tracks tracks' (fun _ => rfl) _ _ _ _ ran ran' _ (.head _) _ (.tail _ (.head _)) rfl
      1 (by decide) 0 (by decide) rfl⟩

end

end Redraft
