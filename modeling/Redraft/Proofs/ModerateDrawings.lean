import Redraft.Proofs.Conversion
import Redraft.Proofs.LabelCorrection
import Redraft.Proofs.Readings

/-!
# Drawing what is moderate

Everything that is drawn from a moderate document is drawn: no coordinate is
beyond the binary numbers, no angle without whole degrees, no row without a
letter.
-/

namespace Redraft
open Redraft.Number

/-! ## Angles -/

section Angles
variable {r : Eagle.Rotation} {rotation : Option Eagle.Rotation}

theorem Eagle.Rotation.Moderate.wholeDegrees (moderate : r.Moderate) : Returns r.wholeDegrees := by
  obtain ⟨n, whole⟩ := Below.truncate_ok moderate
  exact ⟨n, by rw [Rotation.wholeDegrees, whole]; rfl⟩

theorem wholeDegreesOf_returns (moderate : ∀ r ∈ rotation, r.Moderate) : Returns (Eagle.wholeDegreesOf rotation) := by
  cases rotation with
  | none => exact ⟨0, rfl⟩
  | some r => exact (moderate r rfl).wholeDegrees

theorem textStyle_returns {size ratio : Option Int} {font : Option String} {anchor : Option Eagle.Anchor} {absolute : Int}
    (moderate : ∀ r ∈ rotation, r.Moderate) : Returns (textStyle size font ratio rotation anchor absolute) :=
  (wholeDegreesOf_returns moderate).bind fun _ _ => ⟨_, rfl⟩

theorem Spin.ofRotation_returns (moderate : ∀ r ∈ rotation, r.Moderate) : Returns (Spin.ofRotation rotation) := by
  cases rotation with
  | none => exact ⟨_, rfl⟩
  | some r =>
    have right : AtLeast 6 90.0 := by decide +kernel
    have quarters := Below.div (moderate r rfl) right.divisor (by decide) (by decide)
    obtain ⟨n, rounded⟩ := quarters.round_ok
    refine ⟨_, bind_ok.2 ⟨n, by rw [rounded]; rfl, rfl⟩⟩

end Angles

/-! ## Frames -/

section Frames

theorem below_shift {step : Float} {i : Nat} (isStep : Below 936 step) (small : i < 2 ^ 64) :
    Below 1006 (step * ofInt i) := by
  have count : Below (64 + 5) (ofInt i) := below_ofInt (by rwa [Int.natAbs_natCast]) (by decide) (by decide)
  exact isStep.mul count (by decide) (by decide)

theorem spaced_returns {base step : Float} {indices : List Nat} (isBase : Below 1006 base) (isStep : Below 936 step)
    (small : ∀ i ∈ indices, i < 2 ^ 64) : Returns (spaced base step indices) :=
  mapM_returns fun i member => wholeCoordinate_returns <|
    isBase.add (below_shift isStep (small i member)) (by decide) (by decide)

theorem half_step {step : Float} (isStep : Below 936 step) : Below 936 (step / 2.0) := by
  have two : AtLeast 1 2.0 := by decide +kernel
  exact isStep.div two.divisor (by decide) (by decide)

theorem below_coordinate {n : Int} (small : n.natAbs < 2 ^ moderateDigits) : Below 935 (ofInt n) :=
  below_ofInt (k := moderateDigits) small (by decide) (by decide)

theorem below_step {low high : Int} {count : Nat} (first : low.natAbs < 2 ^ moderateDigits)
    (second : high.natAbs < 2 ^ moderateDigits) (some : count ≠ 0) : Below 936 (ofRatio (high - low) count) :=
  have double := two_pow_moderateDigits
  below_ofRatio (k := moderateDigits + 1) (by omega) some (by decide) (by decide)

variable {low high : Point} {count : Nat} {strip inner outer : Int}

theorem rowBorder_returns (first : low.Moderate) (second : high.Moderate) (some : count ≠ 0)
    (lettered : (count : Int) ≤ Eagle.letteredRows) : Returns (rowBorder low high count strip inner outer) := by
  have lettered : count ≤ 1114047 := Int.ofNat_le.1 lettered
  have isStep := below_step first.2 second.2 some
  have isLow := below_coordinate first.2
  have isHigh := below_coordinate second.2
  have isTop := (isHigh.mono (l := 936) (by decide)).sub (half_step isStep) (by decide) (by decide)
  unfold rowBorder
  rw [if_neg (by have : 'A'.toNat = 65 := rfl; omega)]
  refine (spaced_returns (isLow.mono (by decide)) isStep fun i member => ?_).bind fun _ _ => ?_
  · have := List.mem_range'_1.1 member
    omega
  refine (mapM_returns fun i member => ?_).bind fun _ _ => ⟨_, rfl⟩
  have := List.mem_range.1 member
  exact wholeCoordinate_returns <| (isTop.mono (l := 1006) (by decide)).sub (below_shift isStep (by omega))
    (by decide) (by decide)

theorem columnBorder_returns (first : low.Moderate) (second : high.Moderate) (some : count ≠ 0)
    (range : count < 2 ^ 64) : Returns (columnBorder low high count strip inner outer) := by
  have isStep := below_step first.1 second.1 some
  have isLow := below_coordinate first.1
  have isMiddle := (isLow.mono (l := 936) (by decide)).add (half_step isStep) (by decide) (by decide)
  unfold columnBorder
  refine (spaced_returns (isLow.mono (by decide)) isStep fun i member => ?_).bind fun _ _ => ?_
  · have := List.mem_range'_1.1 member
    omega
  refine (spaced_returns (isMiddle.mono (by decide)) isStep fun i member => ?_).bind fun _ _ => ⟨_, rfl⟩
  have := List.mem_range.1 member
  omega

/-- A step that is made or left out returns, if it does when it is made. -/
theorem Returns.choice {ε α β : Type} {c : Prop} [Decidable c] {x : Except ε α} {a : α} {f : α → Except ε β}
    (made : Returns x) (rest : ∀ a, Returns (f a)) : Returns (if c then x >>= f else pure a >>= f) := by
  split
  · exact made.bind fun a _ => rest a
  · exact rest a

theorem Eagle.Frame.Moderate.graphics {f : Eagle.Frame} (moderate : f.Moderate) : Returns f.graphics := by
  obtain ⟨start, stop, lettered, range⟩ := moderate
  have low : Point.Moderate ⟨min f.start.x f.stop.x, min f.start.y f.stop.y⟩ :=
    ⟨by have := start.1; have := stop.1; dsimp only; omega, by have := start.2; have := stop.2; dsimp only; omega⟩
  have high : Point.Moderate ⟨max f.start.x f.stop.x, max f.start.y f.stop.y⟩ :=
    ⟨by have := start.1; have := stop.1; dsimp only; omega, by have := start.2; have := stop.2; dsimp only; omega⟩
  have rows : ((max f.rows 1).toNat : Int) ≤ Eagle.letteredRows := by
    have : (1 : Int) ≤ Eagle.letteredRows := by decide
    omega
  unfold Eagle.Frame.graphics
  refine Returns.choice (rowBorder_returns low high (by omega) rows) fun _ => ?_
  refine Returns.choice (rowBorder_returns low high (by omega) rows) fun _ => ?_
  refine Returns.choice (columnBorder_returns low high (by omega) (by omega)) fun _ => ?_
  refine Returns.choice (columnBorder_returns low high (by omega) (by omega)) fun _ => ?_
  exact ⟨_, rfl⟩

end Frames

/-! ## Libraries -/

section Libraries
variable {device : Eagle.Device} {gate : String} {library : Eagle.Library} {deviceSet : Eagle.DeviceSet}

theorem UnitDrawing.addPin_returns {p : Eagle.Pin} (moderate : ∀ r ∈ p.rotation, r.Moderate) (d : UnitDrawing) :
    Returns (d.addPin device gate p) :=
  ((wholeDegreesOf_returns moderate).bind fun _ _ => ⟨_, rfl⟩).bind fun _ _ => ⟨_, rfl⟩

theorem Eagle.Wire.CurvesModerately.graphic?_returns {w : Eagle.Wire} (curves : w.CurvesModerately) :
    Returns w.graphic? := by
  unfold Eagle.Wire.graphic?
  split
  · exact ⟨_, rfl⟩
  · rename_i apart
    dsimp only
    split
    · exact ⟨_, rfl⟩
    · rename_i degrees isCurve
      split
      · exact ⟨_, rfl⟩
      · rename_i bent
        obtain ⟨⟨finite, usable⟩, start, stop, width⟩ := curves degrees isCurve (Bool.not_eq_true _ ▸ bent)
        obtain ⟨graphic, drawn⟩ := arcGraphic_returns apart start stop width finite usable
        exact ⟨some graphic, by rw [drawn]; rfl⟩

theorem UnitDrawing.addItem_returns {item : Eagle.Item} (moderate : item.Moderate)
    (curves : ∀ w, item = .wire w → w.CurvesModerately) (d : UnitDrawing) :
    Returns (d.addItem device gate item) := by
  cases item with
  | pin p => exact addPin_returns moderate d
  | text t =>
    have style : Returns (t.style 0) := textStyle_returns moderate
    unfold addItem
    dsimp only
    split
    · exact (style.bind fun _ _ => ⟨_, rfl⟩).bind fun _ _ => ⟨_, rfl⟩
    · split
      · exact (style.bind fun _ _ => ⟨_, rfl⟩).bind fun _ _ => ⟨_, rfl⟩
      · exact (style.bind fun _ _ => ⟨_, rfl⟩).bind fun _ _ => ⟨_, rfl⟩
  | wire w => exact (curves w rfl).graphic?_returns.bind fun _ _ => ⟨_, rfl⟩
  | frame f => exact moderate.graphics.bind fun _ _ => ⟨_, rfl⟩
  | _ => exact ⟨_, rfl⟩

theorem UnitDrawing.ofItems_returns {items : List Eagle.Item}
    (moderate : ∀ item ∈ items, item.Moderate ∧ ∀ w, item = .wire w → w.CurvesModerately)
    (fields : List (Field (Option Point))) : Returns (ofItems device gate fields items) :=
  (foldlM_returns (fun d item member => addItem_returns (moderate item member).1 (moderate item member).2 d) _).bind
    fun _ _ => ⟨_, rfl⟩

theorem drawGates_returns (moderate : library.Moderate) (d : SymbolDrawing) (gates : List Eagle.Gate) :
    Returns (drawGates library deviceSet device d gates) := by
  induction gates generalizing d with
  | nil => exact ⟨_, rfl⟩
  | cons gate gates ih =>
    unfold drawGates
    split
    · exact ⟨_, rfl⟩
    · rename_i symbol found
      exact (UnitDrawing.ofItems_returns (moderate _ (Entries.mem_of_get? found)) _).bind fun _ _ => ih _

theorem drawDevice_returns (moderate : library.Moderate) : Returns (drawDevice library deviceSet device) := by
  refine (drawGates_returns moderate _ _).bind fun ⟨d, missing⟩ _ => ?_
  cases missing with
  | some failure => exact ⟨_, rfl⟩
  | none => exact ⟨_, rfl⟩

theorem SymbolLibrary.convertDevice_returns (moderate : library.Moderate) (l : SymbolLibrary × Report) :
    Returns (convertDevice library deviceSet l device) := by
  unfold convertDevice
  split
  · exact ⟨_, rfl⟩
  · refine (drawDevice_returns moderate).bind fun result _ => ?_
    split
    · exact ⟨_, rfl⟩
    · exact ⟨_, rfl⟩

theorem SymbolLibrary.convert_returns (moderate : library.Moderate) : Returns (convert library) :=
  foldlM_returns (fun l _ _ => convertDevice_returns moderate l) _

theorem convertLibraries_returns {document : Eagle.Schematic} (moderate : document.Moderate) :
    Returns (convertLibraries document) :=
  foldlM_returns (fun _ entry member => (SymbolLibrary.convert_returns (moderate.libraries entry member)).bind
    fun _ _ => ⟨_, rfl⟩) _

theorem Context.ofDocument_returns {document : Eagle.Schematic} {library project : String}
    (moderate : document.Moderate) : Returns (Context.ofDocument document library project) :=
  (convertLibraries_returns moderate).bind fun _ _ => ⟨_, rfl⟩

end Libraries

end Redraft
