import Redraft.Failure

/-!
# Units and sizes

Lengths are kept in internal units of a tenth of a micrometre. EAGLE writes
millimetres; the grid and the drawing sizes are given in mils.
-/

namespace Redraft
open Redraft.Number

/-- Internal units in a millimetre. -/
def unitsPerMillimetre : Nat := 10000

/-- Internal units in a mil. -/
def unitsPerMil : Nat := 254

/-- A count of mils in internal units. -/
def mils (n : Int) : Int := n * unitsPerMil

/-- The pitch of bus entries and of recentring. -/
def grid : Int := mils 100

/-- The step between probes of a label along its wire. -/
def labelStep : Int := mils 50

/-- What a page is larger than its content. -/
def pageMargin : Int := mils 1500

/-- The pitch of sheet blocks on the root sheet. -/
def blockPitch : Int := mils 1000

/-- The width and height of a sheet block. -/
def blockSize : Point := ⟨mils 500, mils 150⟩

/-- The text size of labels made for unlabelled wires. -/
def madeLabelSize : Int := mils 40

/-- The text size of fields, markers and pins. -/
def textSize : Int := mils 50

/-- The most probes of a label along its wire. -/
def maxLabelTrials : Nat := 1000

/-- Millimetres in internal units, rounded. -/
def ofMillimetres (x : Float) : Except Failure Int :=
  (round (x * ofInt unitsPerMillimetre)).mapError .notFinite

/-- A quantity in units of `factor` internal units, rounded. -/
def ofQuantity (factor : Nat) (q : Quantity) : Except Failure Int :=
  (q.scaled factor).mapError .notFinite

/-- Internal units in millimetres. -/
def millimetres (n : Int) : Float := ofRatio n unitsPerMillimetre

/-- A quantity of internal units in millimetres. -/
def quantityMillimetres : Quantity → Float
  | .whole n => millimetres n
  | .real x => x / ofInt unitsPerMillimetre

/-- A length as it stands in a file: millimetres with the fewest digits. -/
def lengthText (n : Int) : String := shortest (millimetres n)

/-- A multiple of the pitch, cut toward zero. -/
def cutTo (pitch value : Int) : Int :=
  if value < 0 then -(Int.fdiv (-value) pitch) * pitch else Int.fdiv value pitch * pitch

/-- A multiple of the pitch, cut toward zero, for a pitch other than zero. -/
def cutTo? (pitch value : Int) : Except Failure Int :=
  if pitch = 0 then .error .divisionByZero else .ok (cutTo pitch value)

/-- The length rounded to whole mils. -/
def toWholeMils (n : Int) : Int := mils (roundQuotient n unitsPerMil)

/-- The width and height of a paper. -/
def paperSize (name : String) : Except Failure Point :=
  match papers.lookup name with
  | some (width, height) => .ok ⟨width * 1000, height * 1000⟩
  | none => .error (.unknownPaper name)

end Redraft
