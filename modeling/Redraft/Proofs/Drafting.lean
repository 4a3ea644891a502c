import Redraft.Sheet.Desk

/-!
# Runs of drawing steps

A step of drawing that ends takes the desk from one state to another. A run of
a step made of others falls apart into runs of its parts; the monad is opened
in no other place.
-/

namespace Redraft

/-- A value bound to a step comes out if the value is there and the step has a value for it. -/
theorem bind_ok {ε α β : Type} {x : Except ε α} {f : α → Except ε β} {b : β} :
    x >>= f = .ok b ↔ ∃ a, x = .ok a ∧ f a = .ok b := by
  cases x with
  | error failure => simp [bind, Except.bind]
  | ok a => simp [bind, Except.bind]

theorem ok_of_toOption {ε α : Type} {x : Except ε α} {a : α} (found : x.toOption = some a) : x = .ok a := by
  cases x with
  | error _ => cases found
  | ok _ => rw [Option.some.inj found]

/-- What each step of a fold keeps, the fold keeps. -/
theorem foldlM_keeps {ε α β : Type} {f : β → α → Except ε β} (P : β → Prop)
    (keeps : ∀ b a b', P b → f b a = .ok b' → P b') {l : List α} {b b' : β} (holds : P b)
    (ran : l.foldlM f b = .ok b') : P b' := by
  induction l generalizing b with
  | nil =>
    cases ran
    exact holds
  | cons a l ih =>
    rw [List.foldlM_cons] at ran
    obtain ⟨middle, first, rest⟩ := bind_ok.1 ran
    exact ih (keeps b a middle holds first) rest

/-- What is computed has a value. -/
def Returns {ε α : Type} (x : Except ε α) : Prop := ∃ a, x = .ok a

theorem Returns.bind {ε α β : Type} {x : Except ε α} {f : α → Except ε β} (first : Returns x)
    (rest : ∀ a, x = .ok a → Returns (f a)) : Returns (x >>= f) := by
  obtain ⟨a, returned⟩ := first
  obtain ⟨b, returned'⟩ := rest a returned
  exact ⟨b, bind_ok.2 ⟨a, returned, returned'⟩⟩

theorem mapM_returns {ε α β : Type} {f : α → Except ε β} {l : List α} (each : ∀ a ∈ l, Returns (f a)) :
    Returns (l.mapM f) := by
  induction l with
  | nil => exact ⟨[], rfl⟩
  | cons a l ih =>
    rw [List.mapM_cons]
    refine (each a (.head _)).bind fun b _ => (ih fun a member => each a (.tail _ member)).bind fun bs _ => ?_
    exact ⟨b :: bs, rfl⟩

theorem foldlM_returns {ε α β : Type} {f : β → α → Except ε β} {l : List α} (each : ∀ b, ∀ a ∈ l, Returns (f b a))
    (b : β) : Returns (l.foldlM f b) := by
  induction l generalizing b with
  | nil => exact ⟨b, rfl⟩
  | cons a l ih =>
    rw [List.foldlM_cons]
    exact (each b a (.head _)).bind fun middle _ => ih (fun b a member => each b a (.tail _ member)) middle

/-- A run of two steps is a run of the first one, and one of the second from where it ended. -/
theorem run_bind_ok {σ α β : Type} {x : ExceptT Failure (StateM σ) α} {f : α → ExceptT Failure (StateM σ) β}
    {s s'' : σ} {b : β} :
    ((x >>= f).run.run s).run = (.ok b, s'') ↔
      ∃ a s', (x.run.run s).run = (.ok a, s') ∧ ((f a).run.run s').run = (.ok b, s'') := by
  have opened : ((x >>= f).run.run s).run = match (x.run.run s).run with
      | (.ok a, s') => ((f a).run.run s').run
      | (.error failure, s') => (.error failure, s') := by
    unfold ExceptT.run StateT.run Id.run
    simp only [bind, ExceptT.bind, ExceptT.mk, StateT.bind, ExceptT.bindCont]
    rcases x s with ⟨_ | _, _⟩ <;> rfl
  rw [opened]
  rcases (x.run.run s).run with ⟨failure | a, s'⟩
  · simp
  · constructor
    · intro rest
      exact ⟨a, s', rfl, rest⟩
    · rintro ⟨a', _, same, rest⟩
      cases same
      exact rest

namespace Drafting
variable {α β : Type}

/-- What a step comes to, and the desk it leaves behind. -/
def outcome (x : Drafting α) (d : Desk) : Except Failure α × Desk := (x.run.run d).run

/-- The step ends with a value and leaves a desk behind. -/
def Ends (x : Drafting α) (before : Desk) (value : α) (after : Desk) : Prop :=
  x.outcome before = (.ok value, after)

theorem outcome_discard (x : Drafting α) (d : Desk) :
    (discard x : Drafting Unit).outcome d = match x.outcome d with
      | (.ok _, d') => (.ok (), d')
      | (.error failure, d') => (.error failure, d') := by
  unfold outcome ExceptT.run StateT.run Id.run
  simp only [discard, Functor.discard, Functor.mapConst, Function.comp, Function.const, ExceptT.map,
    ExceptT.mk, bind, StateT.bind]
  rcases x d with ⟨_ | _, _⟩ <;> rfl

theorem Ends.of_toBool {x : Drafting Unit} {d : Desk} (ran : (x.outcome d).1.toBool) :
    Ends x d () (x.outcome d).2 := by
  unfold Ends
  revert ran
  rcases x.outcome d with ⟨_ | _, _⟩
  · exact nofun
  · exact fun _ => rfl

theorem Ends.of_toOption {x : Drafting α} {d : Desk} {a : α} (ran : (x.outcome d).1.toOption = some a) :
    Ends x d a (x.outcome d).2 := Prod.ext (ok_of_toOption ran) rfl

theorem ends_pure {a b : α} {d d' : Desk} : Ends (pure a) d b d' ↔ a = b ∧ d = d' := by
  have opened : (pure a : Drafting α).outcome d = (.ok a, d) := rfl
  simp [Ends, opened]

theorem ends_bind {x : Drafting α} {f : α → Drafting β} {d d'' : Desk} {b : β} :
    Ends (x >>= f) d b d'' ↔ ∃ a d', Ends x d a d' ∧ Ends (f a) d' b d'' := run_bind_ok

theorem ends_discard {x : Drafting α} {d d' : Desk} :
    Ends (discard x) d () d' ↔ ∃ a, Ends x d a d' := by
  unfold Ends
  rw [outcome_discard]
  rcases x.outcome d with ⟨_ | a, _⟩
  · simp
  · simp

theorem ends_lift {x : Except Failure α} {a : α} {d d' : Desk} :
    Ends (lift x) d a d' ↔ x = .ok a ∧ d = d' := by
  have opened : (lift x).outcome d = (x, d) := rfl
  simp [Ends, opened]

theorem ends_modify {f : Desk → Desk} {d d' : Desk} : Ends (modify f) d () d' ↔ f d = d' := by
  have opened : (modify f : Drafting Unit).outcome d = (.ok (), f d) := rfl
  simp [Ends, opened]

theorem ends_changeSheet {f : Sheet → Sheet} {d d' : Desk} :
    Ends (changeSheet f) d () d' ↔ { d with sheet := f d.sheet } = d' := ends_modify

theorem ends_report {messages : Report} {d d' : Desk} :
    Ends (report messages) d () d' ↔ { d with report := d.report ++ messages } = d' := ends_modify

theorem ends_sheet {s : Sheet} {d d' : Desk} : Ends sheet d s d' ↔ d.sheet = s ∧ d = d' := by
  have opened : sheet.outcome d = (.ok d.sheet, d) := rfl
  simp [Ends, opened]

theorem ends_forM_nil {f : α → Drafting Unit} {d d' : Desk} :
    Ends (List.forM [] f) d () d' ↔ d = d' := by
  change Ends (pure ()) d () d' ↔ d = d'
  simp [ends_pure]

theorem ends_forM_cons {f : α → Drafting Unit} {a : α} {l : List α} {d d'' : Desk} :
    Ends (List.forM (a :: l) f) d () d'' ↔ ∃ d', Ends (f a) d () d' ∧ Ends (List.forM l f) d' () d'' := by
  change Ends (f a >>= fun _ => List.forM l f) d () d'' ↔ _
  rw [ends_bind]
  constructor
  · rintro ⟨_, d', first, rest⟩
    exact ⟨d', first, rest⟩
  · rintro ⟨d', first, rest⟩
    exact ⟨(), d', first, rest⟩

end Drafting

end Redraft
