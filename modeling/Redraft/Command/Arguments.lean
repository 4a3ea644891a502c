import Redraft.Command.Switch
import Redraft.Paper

/-!
# The command line

The command takes one file, and switches before or behind it. Arguments act from
left to right; the first mistake that is met, or a request for help, ends the
reading.
-/

namespace Redraft.Command

/-- What the switches set. -/
structure Options where
  directory : String := "."
  project : Option String := none
  paper : String := defaultPaper
  verbose : Bool := false
  check : Bool := false
deriving DecidableEq, Repr

/-- What the command was asked to do. -/
structure Arguments extends Options where
  input : String
deriving DecidableEq, Repr

namespace Options

/-- A switch without a value acts. -/
def raise (o : Options) : Switch → Except Refusal Options
  | .help => .error .help
  | .verbose => .ok { o with verbose := true }
  | .check => .ok { o with check := true }
  | _ => .error .usage

/-- A switch with a value acts; a paper must be known. -/
def assign (o : Options) (value : String) : Switch → Except Refusal Options
  | .directory => .ok { o with directory := value }
  | .project => .ok { o with project := some value }
  | .paper => if paperNames.contains value then .ok { o with paper := value } else .error .usage
  | _ => .error .usage

/-- A switch acts with the value that it has, or without one. -/
def set (o : Options) (s : Switch) : Option String → Except Refusal Options
  | some value => o.assign value s
  | none => o.raise s

end Options

/-! ## Reading in order -/

/-- What an argument may be part of because of the one before it: the value of a
    switch, the input behind a separator, or a separator behind the input. -/
inductive Expectation where
  | nothing
  | value (flags : List Switch) (switch : Switch)
  | input
  | separator
deriving Repr

/-- What has been read so far; arguments without a role are surplus. -/
structure Progress where
  options : Options := {}
  input : Option String := none
  surplus : Bool := false
  expects : Expectation := .nothing
deriving Repr

namespace Progress

/-- The progress with an argument that has no role. -/
def addSurplus (p : Progress) : Progress := { p with surplus := true, expects := .nothing }

/-- The progress with an operand: the input, if there is none yet. -/
def addOperand (p : Progress) (text : String) : Progress :=
  if p.input.isSome then p.addSurplus else { p with input := some text, expects := .separator }

/-- The progress with a separator: part of the input that it stands next to. -/
def addSeparator (p : Progress) : Progress :=
  match p.expects with
  | .separator => { p with expects := .nothing }
  | _ => if p.input.isSome then p.addSurplus else { p with expects := .input }

/-- Some switches act in order. -/
def set (p : Progress) (switches : List (Switch × Option String)) : Except Refusal Progress := do
  let options ← switches.foldlM (fun o (s, value) => o.set s value) p.options
  return { p with options, expects := .nothing }

/-- The progress with a cluster; if its last switch lacks a value, it waits for one. -/
def addCluster (p : Progress) (c : Cluster) : Except Refusal Progress :=
  let flags := c.flags.map fun s => (s, none)
  match c.last with
  | some (s, none) =>
    if s.takesValue then .ok { p with expects := .value c.flags s } else p.set (flags ++ [(s, none)])
  | some (s, some value) => p.set (flags ++ [(s, some value)])
  | none => p.addSurplus.set flags

/-- The progress with one more argument. -/
def add (p : Progress) (a : Argument) : Except Refusal Progress :=
  match p.expects, a with
  | .value flags s, .operand text => p.set (flags.map (fun s => (s, none)) ++ [(s, some text)])
  | .value _ _, _ => .error .usage
  | _, .operand text => .ok (p.addOperand text)
  | _, .separator => .ok p.addSeparator
  | _, .unknown => .ok p.addSurplus
  | _, .plain s => p.addCluster ⟨[], some (s, none)⟩
  | _, .assigned s value =>
    if s.takesValue then p.addCluster ⟨[], some (s, some value)⟩ else .error .usage
  | _, .cluster s rest => do p.addCluster (← Cluster.read s rest)

/-- What was asked for, if the command line ends here. -/
def finish (p : Progress) : Except Refusal Arguments :=
  match p.expects, p.surplus, p.input with
  | .value _ _, _, _ => .error .usage
  | _, false, some input => .ok { p.options with input }
  | _, _, _ => .error .usage

end Progress

/-- Reads a command line. -/
def Arguments.read (texts : List String) : Except Refusal Arguments := do
  let arguments ← Argument.readAll texts
  (← arguments.foldlM Progress.add {}).finish

end Redraft.Command
