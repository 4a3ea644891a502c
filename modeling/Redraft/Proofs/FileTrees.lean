import Mathlib.Tactic.SplitIfs
import Redraft.Command.FileTree
import Redraft.Command.Run
import Redraft.Proofs.Drafting

/-!
# Files in a tree

The files of a project are written one after the other into a directory of a
tree. A file that is written stays as it is until one of the same name is written.
-/

namespace Redraft

/-! ## Names in a directory -/

/-- A name that leads into no other directory. -/
structure Name.Plain (file : String) : Prop where
  bare : '/' ∉ file.toList
  long : 2 < file.length

namespace Name

theorem Plain.not_step {file : String} (plain : Plain file) : file ≠ "" ∧ file ≠ "." ∧ file ≠ ".." := by
  have long := plain.long
  refine ⟨?_, ?_, ?_⟩ <;> rintro rfl <;> exact absurd long (by decide)

theorem steps_append (s file : String) : steps (s ++ "/" ++ file) = steps s ++ steps file := by
  have slash : "/".toList = ['/'] := rfl
  unfold steps
  rw [String.append_assoc, String.toList_append, String.toList_append, slash, List.singleton_append,
    List.splitOn_append_cons_self, List.map_append]

theorem Plain.steps {file : String} (plain : Plain file) : Name.steps file = [file] := by
  rw [Name.steps, List.splitOn_eq_singleton plain.bare, List.map_singleton, String.ofList_toList]

/-- The path of a file leads to it in its last step. -/
theorem Plain.steps_joinPath {file : String} (plain : Plain file) (directory : String) :
    ∃ front, Name.steps (Command.joinPath directory file) = front ++ [file] := by
  unfold Command.joinPath
  split
  · rename_i closed
    rw [String.isEmpty_iff, List.getLast?_eq_some_iff] at closed
    rcases closed with rfl | ⟨cs, split⟩
    · exact ⟨[], by rw [String.empty_append, plain.steps, List.nil_append]⟩
    · have slash : directory = String.ofList cs ++ "/" := by
        rw [← @String.ofList_toList directory, split, String.ofList_append]
      exact ⟨Name.steps (String.ofList cs), by rw [slash, steps_append, plain.steps]⟩
  · exact ⟨Name.steps directory, by rw [steps_append, plain.steps]⟩

end Name

/-! ## Files in a tree -/

namespace Command.FileTree
variable {t t' : FileTree} {p q above : Place} {directory file other : String} {steps : List String} {c : Content}

theorem walk_cons (t : FileTree) (p : Place) (name : String) (rest : List String) :
    t.walk p (name :: rest) =
      if name = "" ∨ name = "." then t.walk p rest
      else if name = ".." then t.walk p.above rest
      else if name.utf8ByteSize > maxNameBytes then .error .nameTooLong
      else if t.isFile (p ++ [name]) then
        if rest.isEmpty then .ok (.file (p ++ [name])) else .error .notDirectory
      else if t.isDirectory (p ++ [name]) then t.walk (p ++ [name]) rest
      else if rest.all String.isEmpty then .ok (.free (p ++ [name])) else .error .missing := by
  by_cases empty : name = ""
  · subst empty
    rw [if_pos (Or.inl rfl), walk]
  by_cases dot : name = "."
  · subst dot
    rw [if_pos (Or.inr rfl), walk]
  by_cases dots : name = ".."
  · subst dots
    rw [if_neg (by decide), if_pos rfl, walk]
  · rw [if_neg (by simp [empty, dot]), if_neg dots, walk]
    · exact empty
    · exact dot
    · exact dots

/-- A way to a file leads to its directory first. -/
theorem walk_append {spot : Spot} (plain : Name.Plain file) :
    t.walk p (steps ++ [file]) = .ok spot ↔
      ∃ above, t.walk p steps = .ok (.directory above) ∧ t.walk above [file] = .ok spot := by
  induction steps generalizing p with
  | nil => simp [walk]
  | cons name rest ih =>
    have occupied : ¬ (rest ++ [file]).isEmpty := by simp
    have missing : ¬ (rest ++ [file]).all String.isEmpty := by simp [plain.not_step.1]
    rw [List.cons_append, walk_cons, walk_cons, if_neg occupied, if_neg missing]
    split_ifs <;> simp [ih]

theorem walk_file (plain : Name.Plain file) :
    t.walk above [file] =
      if file.utf8ByteSize > maxNameBytes then .error .nameTooLong
      else if t.isFile (above ++ [file]) then .ok (.file (above ++ [file]))
      else if t.isDirectory (above ++ [file]) then .ok (.directory (above ++ [file]))
      else .ok (.free (above ++ [file])) := by
  obtain ⟨filled, dot, dots⟩ := plain.not_step
  rw [walk_cons, if_neg (by simp [filled, dot]), if_neg dots]
  simp [walk]

/-- The tree with a content at a place. -/
def putFile (t : FileTree) (p : Place) (c : Content) : FileTree := { t with files := t.files.put p c }

theorem isFile_putFile (t : FileTree) (p q : Place) (c : Content) :
    (t.putFile q c).isFile p = (t.isFile p || p == q) := by
  unfold putFile isFile
  by_cases same : p = q
  · rw [same, Entries.get?_put_self]
    simp
  · rw [Entries.get?_put_of_ne same]
    simp [same]

/-- A file where no directory is entered leaves the ways to all directories. -/
theorem walk_putFile (closed : t.isFile q ∨ ¬ t.isDirectory q) (reached : t.walk p steps = .ok (.directory above)) :
    (t.putFile q c).walk p steps = .ok (.directory above) := by
  induction steps generalizing p with
  | nil => exact reached
  | cons name rest ih =>
    rw [walk_cons] at reached ⊢
    split_ifs at reached with stays up long isFile _ entered
    · rw [if_pos stays]
      exact ih reached
    · rw [if_neg stays, if_pos up]
      exact ih reached
    · cases reached
    · have apart : p ++ [name] ≠ q := by
        rintro rfl
        exact closed.elim isFile (absurd entered)
      have still : ¬ (t.putFile q c).isFile (p ++ [name]) := by
        rw [isFile_putFile]
        simp [isFile, apart]
      rw [if_neg stays, if_neg up, if_neg long, if_neg still]
      exact (if_pos entered).trans (ih reached)
    · cases reached

/-- A path leads to a file of a directory, or to where one can be put. -/
structure Leads (t : FileTree) (path file : String) (above : Place) : Prop where
  reached : ∃ start steps, pathSteps path = .ok (start, steps ++ [file]) ∧
    t.walk start steps = .ok (.directory above)
  short : file.utf8ByteSize ≤ maxNameBytes
  closed : t.isFile (above ++ [file]) ∨ ¬ t.isDirectory (above ++ [file])

/-- A path leads to a file with a content. -/
def Holds (t : FileTree) (path file : String) (c : Content) : Prop :=
  ∃ above, t.Leads path file above ∧ t.files.get? (above ++ [file]) = some c

theorem Leads.putFile {path path' : String} {above' : Place} (leads : t.Leads path file above)
    (leads' : t.Leads path' other above') : (t.putFile (above' ++ [other]) c).Leads path file above := by
  obtain ⟨start, steps, split, reached⟩ := leads.reached
  refine ⟨⟨start, steps, split, walk_putFile leads'.closed reached⟩, leads.short, ?_⟩
  rw [isFile_putFile, Bool.or_eq_true]
  exact leads.closed.imp_left Or.inl

theorem Leads.locate {path : String} (plain : Name.Plain file) (leads : t.Leads path file above)
    (present : t.isFile (above ++ [file])) : t.locate path = .ok (.file (above ++ [file])) := by
  obtain ⟨start, steps, split, reached⟩ := leads.reached
  have last : t.walk above [file] = .ok (.file (above ++ [file])) := by
    rw [walk_file plain, if_neg (Nat.not_lt.2 leads.short), if_pos present]
  unfold FileTree.locate
  rw [split]
  exact (walk_append plain).2 ⟨above, reached, last⟩

theorem Holds.read {path : String} (plain : Name.Plain file) (holds : t.Holds path file c) (name : Identity → String) :
    t.read name path = .ok (c.toBytes name) := by
  obtain ⟨above, leads, found⟩ := holds
  have present : t.isFile (above ++ [file]) := by
    rw [isFile, found]
    rfl
  unfold FileTree.read
  rw [leads.locate plain present]
  change Option.elim ((t.files.get? (above ++ [file])).map (Content.toBytes name)) (Except.error DiskFault.missing) Except.ok = _
  rw [found]
  rfl

theorem pathSteps_ok {path : String} {start : Place} (split : pathSteps path = .ok (start, steps)) :
    steps = Name.steps path := by
  unfold pathSteps at split
  split_ifs at split <;> cases split <;> rfl

theorem write_ok {row : Row} (plain : Name.Plain file)
    (written : t.write (joinPath directory file) row = .ok t') :
    ∃ above, t.Leads (joinPath directory file) file above ∧ t' = t.putFile (above ++ [file]) (.row row) := by
  obtain ⟨spot, located, put⟩ := bind_ok.1 written
  obtain ⟨⟨start, steps⟩, split, walked⟩ := bind_ok.1 located
  obtain ⟨front, same⟩ := plain.steps_joinPath directory
  obtain rfl : steps = front ++ [file] := (pathSteps_ok split).trans same
  obtain ⟨above, reached, last⟩ := (walk_append plain).1 walked
  rw [walk_file plain] at last
  split_ifs at last with short isFile isDirectory <;> cases last
  · cases put
    exact ⟨above, ⟨⟨start, front, split, reached⟩, Nat.not_lt.1 short, .inl isFile⟩, rfl⟩
  · cases put
  · cases put
    exact ⟨above, ⟨⟨start, front, split, reached⟩, Nat.not_lt.1 short, .inr isDirectory⟩, rfl⟩

/-- What is written to a file, the file holds. -/
theorem write_holds {row : Row} (plain : Name.Plain file)
    (written : t.write (joinPath directory file) row = .ok t') :
    t'.Holds (joinPath directory file) file (.row row) := by
  obtain ⟨above, leads, rfl⟩ := write_ok plain written
  exact ⟨above, leads.putFile leads, Entries.get?_put_self _ _ _⟩

/-- A file stays as it is when one of another name is written. -/
theorem write_keeps {row : Row} {path : String} (plain : Name.Plain other) (apart : file ≠ other)
    (written : t.write (joinPath directory other) row = .ok t') (holds : t.Holds path file c) :
    t'.Holds path file c := by
  obtain ⟨above', leads', rfl⟩ := write_ok plain written
  obtain ⟨above, leads, found⟩ := holds
  have ne : above ++ [file] ≠ above' ++ [other] := by
    intro same
    exact apart (List.concat_inj.1 (by simpa using same)).2
  exact ⟨above, leads.putFile leads', (Entries.get?_put_of_ne ne _ _).trans found⟩

/-! ## Several files -/

/-- The tree with files written one after the other into a directory. -/
def writeFiles (t : FileTree) (directory : String) (files : List (String × Row)) : Except DiskFault FileTree :=
  files.foldlM (fun t (file, row) => t.write (joinPath directory file) row) t

theorem writeFiles_cons {f : String × Row} {files : List (String × Row)} :
    t.writeFiles directory (f :: files) = .ok t' ↔
      ∃ between, t.write (joinPath directory f.1) f.2 = .ok between ∧ between.writeFiles directory files = .ok t' := by
  unfold writeFiles
  rw [List.foldlM_cons]
  exact bind_ok

theorem writeFiles_append {before after : List (String × Row)} :
    t.writeFiles directory (before ++ after) = .ok t' ↔
      ∃ between, t.writeFiles directory before = .ok between ∧ between.writeFiles directory after = .ok t' := by
  unfold writeFiles
  rw [List.foldlM_append]
  exact bind_ok

theorem writeFiles_keeps {files : List (String × Row)} {path : String} (plain : ∀ f ∈ files, Name.Plain f.1)
    (apart : ∀ f ∈ files, file ≠ f.1) (written : t.writeFiles directory files = .ok t') (holds : t.Holds path file c) :
    t'.Holds path file c := by
  induction files generalizing t with
  | nil =>
    cases written
    exact holds
  | cons f files ih =>
    obtain ⟨between, first, rest⟩ := writeFiles_cons.1 written
    have kept := write_keeps (plain f List.mem_cons_self) (apart f List.mem_cons_self) first holds
    exact ih (fun g member => plain g (List.mem_cons_of_mem f member))
      (fun g member => apart g (List.mem_cons_of_mem f member)) rest kept

/-- The last file of a name is the one that stays. -/
theorem writeFiles_holds {before after : List (String × Row)} {row : Row}
    (plain : ∀ f ∈ before ++ (file, row) :: after, Name.Plain f.1) (last : ∀ f ∈ after, file ≠ f.1)
    (written : t.writeFiles directory (before ++ (file, row) :: after) = .ok t') :
    t'.Holds (joinPath directory file) file (.row row) := by
  induction before generalizing t with
  | nil =>
    obtain ⟨between, first, rest⟩ := writeFiles_cons.1 written
    have filed := write_holds (plain _ List.mem_cons_self) first
    exact writeFiles_keeps (fun f member => plain f (List.mem_cons_of_mem _ member)) last rest filed
  | cons f before ih =>
    obtain ⟨between, _, rest⟩ := writeFiles_cons.1 written
    exact ih (fun g member => plain g (List.mem_cons_of_mem f member)) rest

/-! ## Saving -/

/-- What a step comes to, and the tree it leaves behind. -/
def outcome {α : Type} (x : ExceptT Failure (StateM FileTree) α) (t : FileTree) : Except Failure α × FileTree :=
  (x.run.run t).run

/-- The step ends with a value and takes one tree to another. -/
def Saves {α : Type} (x : ExceptT Failure (StateM FileTree) α) (t : FileTree) (a : α) (t' : FileTree) : Prop :=
  outcome x t = (.ok a, t')

theorem saves_bind {α β : Type} {x : ExceptT Failure (StateM FileTree) α}
    {f : α → ExceptT Failure (StateM FileTree) β} {b : β} :
    Saves (x >>= f) t b t' ↔ ∃ a between, Saves x t a between ∧ Saves (f a) between b t' := run_bind_ok

theorem saves_pure {α : Type} {a b : α} : Saves (pure a) t b t' ↔ a = b ∧ t = t' := by
  have opened : outcome (pure a) t = (.ok a, t) := rfl
  simp [Saves, opened]

theorem not_saves_throw {α : Type} {failure : Failure} {a : α} : ¬ Saves (throw failure) t a t' := by
  intro ran
  have opened : outcome (throw failure : ExceptT Failure (StateM FileTree) α) t = (.error failure, t) := rfl
  cases opened.symm.trans ran

theorem saves_lift {α : Type} {x : StateM FileTree α} {a : α} :
    Saves (liftM x) t a t' ↔ (x.run t).run = (a, t') := by
  have opened : outcome (liftM x) t = (.ok (x.run t).run.1, (x.run t).run.2) := rfl
  simp [Saves, opened, Prod.ext_iff]

theorem run_change {f : FileTree → Except DiskFault FileTree} :
    ((change f).run t).run = (.ok (), t') ↔ f t = .ok t' := by
  unfold change
  cases made : f t with
  | ok between => simp [made]
  | error fault => simp [made]

theorem saves_writeFile {name : Identity → String} {f : String × Row} {path : String} :
    Saves (writeFile (disk name) directory f) t path t' ↔
      joinPath directory f.1 = path ∧ t.write (joinPath directory f.1) f.2 = .ok t' := by
  unfold writeFile
  rw [saves_bind]
  constructor
  · rintro ⟨answer, between, wrote, ends⟩
    rw [saves_lift] at wrote
    cases answer with
    | error fault => exact absurd ends not_saves_throw
    | ok =>
      obtain ⟨rfl, rfl⟩ := saves_pure.1 ends
      exact ⟨rfl, run_change.1 wrote⟩
  · rintro ⟨rfl, wrote⟩
    exact ⟨.ok (), t', saves_lift.2 (run_change.2 wrote), saves_pure.2 ⟨rfl, rfl⟩⟩

theorem saves_writeFiles {name : Identity → String} {files : List (String × Row)} {paths : List String}
    (saved : Saves (files.mapM (writeFile (disk name) directory)) t paths t') :
    (files.map fun f => joinPath directory f.1) = paths ∧ t.writeFiles directory files = .ok t' := by
  induction files generalizing t paths with
  | nil =>
    obtain ⟨rfl, rfl⟩ := saves_pure.1 saved
    exact ⟨rfl, rfl⟩
  | cons f files ih =>
    rw [List.mapM_cons, saves_bind] at saved
    obtain ⟨path, between, first, saved⟩ := saved
    obtain ⟨rest, final, others, ends⟩ := saves_bind.1 saved
    obtain ⟨rfl, rfl⟩ := saves_pure.1 ends
    obtain ⟨rfl, written⟩ := saves_writeFile.1 first
    obtain ⟨rfl, followed⟩ := ih others
    exact ⟨rfl, writeFiles_cons.2 ⟨between, written, followed⟩⟩

theorem saves_readTable {name : Identity → String} {path : String} {table : LibraryTable}
    (saved : Saves (readTable (disk name) path) t table t') : t = t' := by
  obtain ⟨answer, between, read, ends⟩ := saves_bind.1 saved
  obtain ⟨rfl, rfl⟩ := Prod.mk.inj (saves_lift.1 read)
  split at ends
  · split at ends
    · exact (saves_pure.1 ends).2
    · exact absurd ends not_saves_throw
  · exact (saves_pure.1 ends).2
  · exact absurd ends not_saves_throw
  · exact absurd ends not_saves_throw

/-- A project is saved by writing its files and then the library table. -/
theorem saveProject_ok {name : Identity → String} {project : Project} {paths : List String}
    (saved : Saves (saveProject (disk name) directory project) t paths t') :
    ∃ (made : FileTree) (table : LibraryTable),
      made.writeFiles directory (project.files ++ [(tableFile, (project.addTo table).fileRow)]) = .ok t' ∧
      paths = (project.files.map fun f => joinPath directory f.1) ++ [joinPath directory tableFile] := by
  obtain ⟨answer, made, _, saved⟩ := saves_bind.1 saved
  cases answer with
  | error fault =>
    obtain ⟨_, _, refused, _⟩ := saves_bind.1 saved
    exact absurd refused not_saves_throw
  | ok =>
    obtain ⟨written, between, files, saved⟩ := saves_bind.1 saved
    obtain ⟨table, _, reads, saved⟩ := saves_bind.1 saved
    obtain ⟨last, final, row, ends⟩ := saves_bind.1 saved
    obtain rfl := saves_readTable reads
    obtain ⟨rfl, rfl⟩ := saves_pure.1 ends
    obtain ⟨rfl, written⟩ := saves_writeFiles files
    obtain ⟨rfl, ended⟩ := saves_writeFile.1 row
    refine ⟨made, table, writeFiles_append.2 ⟨between, written, ?_⟩, rfl⟩
    exact writeFiles_cons.2 ⟨final, ended, rfl⟩

end Command.FileTree

end Redraft
