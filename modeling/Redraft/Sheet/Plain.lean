import Redraft.Name.Overbar
import Redraft.Sheet.Desk
import Redraft.Text.Blank
import Redraft.Text.Lines

/-!
# Plain items

Texts, wires and frames that belong to no net are drawn as notes and lines.
-/

namespace Redraft

/-- The text of a note: the nonblank lines without blanks around them. -/
def noteText (s : String) : String :=
  let lines := ((Text.lines s).map Text.trimmed).filter (!·.isEmpty)
  if lines.isEmpty then "\" \"" else Name.label ("\n".intercalate lines)

/-- The note that a text becomes. -/
def Eagle.Text.note (t : Eagle.Text) : Except Failure Note := do
  let style ← t.style 0
  return {
    text := noteText t.text
    position := t.position.flip
    angle := style.alignment.angle
    effects := style.effects }

/-- The corners of a frame in drawing order. -/
def Eagle.Frame.corners (f : Eagle.Frame) : List Point :=
  let a := f.start.flip
  let c := f.stop.flip
  [a, ⟨c.x, a.y⟩, c, ⟨a.x, c.y⟩]

/-- The sheet with the sides of a frame. -/
def Sheet.addFrame (s : Sheet) (f : Eagle.Frame) : Sheet :=
  let corners := f.corners
  (corners.zip (corners.drop 1 ++ corners.take 1)).foldl (fun s (a, b) => s.addLine .notes a b) s

/-- Draws a plain item; other items than texts, wires and frames are passed over. -/
def drawPlain (c : Context) : Eagle.Item → Drafting Unit
  | .text t => do
    let note ← Drafting.lift t.note
    Drafting.changeSheet (·.addNote note)
  | .wire w => Drafting.changeSheet (·.addLine (c.document.lineKind w.layer) w.start.flip w.stop.flip)
  | .frame f => Drafting.changeSheet (·.addFrame f)
  | _ => return

end Redraft
