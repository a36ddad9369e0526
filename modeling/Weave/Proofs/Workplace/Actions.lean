import Mathlib.Order.Defs.Unbundled
import Weave.Proofs.Files.Tree
import Weave.Workplace

/-!
# Actions at a workplace

What an action does to a workplace is told in two ways. `Leads R` says that the workplace it leaves is
related by `R` to the one that it found, whatever the action gives; for a preorder `R` this follows
the structure of the action (`Leads.bind`, `Leads.bindExcept`). `perform` gives the outcome itself
together with the workplace, step by step (`perform_bind_of_ok`, `perform_bind_of_error`).

Actions that leave the tree and the current directory alone are `Quiet`. The others go through
`change`, which has two outcomes (`run_change`).
-/

namespace Weave.Workplace

variable {α β ε : Type} {place middle : Workplace}

/-! ## The workplace that an action leaves -/

/-- The workplace that an action leaves is related to the one that it found. -/
def Leads (R : Workplace → Workplace → Prop) (action : StateM Workplace α) : Prop :=
  ∀ place, R place (action.run place).2

namespace Leads

variable {R : Workplace → Workplace → Prop}

theorem map {action : StateM Workplace α} (h : Leads R action) (f : α → β) :
    Leads R (f <$> action) := by
  intro place
  exact h place

variable [IsPreorder Workplace R]

theorem pure (value : α) : Leads R (Pure.pure value : StateM Workplace α) :=
  refl_of R

theorem bind {action : StateM Workplace α} {next : α → StateM Workplace β}
    (h : Leads R action) (hnext : ∀ value, Leads R (next value)) : Leads R (action >>= next) := by
  intro place
  exact trans_of R (h place) (hnext _ _)

theorem bindExcept {action : ExceptT ε (StateM Workplace) α}
    {next : α → ExceptT ε (StateM Workplace) β} (h : Leads R action.run)
    (hnext : ∀ value, Leads R (next value).run) : Leads R (action >>= next).run := by
  show Leads R (action.run >>= ExceptT.bindCont next)
  apply bind h
  intro result
  cases result with
  | error e => exact pure (Except.error e)
  | ok value => exact hnext value

end Leads

/-! ## Outcomes, step by step -/

/-- What an action that may fail gives at a workplace, and the workplace that it leaves. -/
def perform (action : ExceptT ε (StateM Workplace) α) (place : Workplace) :
    Except ε α × Workplace :=
  action.run.run place

/-- What an action leads to is there when it has been performed. -/
theorem Leads.perform {R : Workplace → Workplace → Prop} {action : ExceptT ε (StateM Workplace) α}
    {result : Except ε α} {after : Workplace} (h : Leads R action.run)
    (hrun : perform action place = (result, after)) : R place after := by
  have hleads := h place
  rwa [show action.run.run place = (result, after) from hrun] at hleads

section Perform

variable {action : ExceptT ε (StateM Workplace) α} {next : α → ExceptT ε (StateM Workplace) β}

/-- An error ends a chain of actions. -/
theorem perform_bind_of_error {e : ε} (h : perform action place = (.error e, middle)) :
    perform (action >>= next) place = (.error e, middle) := by
  show (action.run >>= ExceptT.bindCont next).run place = _
  rw [StateT.run_bind, show action.run.run place = (.error e, middle) from h]
  rfl

/-- The next action gets the value and the workplace of the one before. -/
theorem perform_bind_of_ok {value : α} (h : perform action place = (.ok value, middle)) :
    perform (action >>= next) place = perform (next value) middle := by
  show (action.run >>= ExceptT.bindCont next).run place = _
  rw [StateT.run_bind, show action.run.run place = (.ok value, middle) from h]
  rfl

/-- An outcome that does not hang on the workplace. -/
theorem perform_liftM_except (result : Except ε α) (place : Workplace) :
    perform (liftM result : ExceptT ε (StateM Workplace) α) place = (result, place) := rfl

/-- An action that does not fail. -/
theorem perform_liftM (action : StateM Workplace α) (place : Workplace) :
    perform (liftM action : ExceptT ε (StateM Workplace) α) place
      = (.ok (action.run place).1, (action.run place).2) := rfl

theorem perform_adapt {ε' : Type} (f : ε → ε') (action : ExceptT ε (StateM Workplace) α)
    (place : Workplace) :
    perform (action.adapt f) place
      = ((perform action place).1.mapError f, (perform action place).2) := rfl

theorem perform_faultAt (path : Path) (operation : StateM Workplace (Except FileError α))
    (place : Workplace) :
    perform (Files.faultAt path operation) place
      = ((operation.run place).1.mapError (.file path), (operation.run place).2) := rfl

theorem perform_atStep (step : Step) (operation : ExceptT Fault (StateM Workplace) α)
    (place : Workplace) :
    perform (Job.atStep step operation) place
      = ((perform operation place).1.mapError (⟨·, some step⟩), (perform operation place).2) := rfl

end Perform

/-! ## Actions that do not touch files -/

/-- The files and the current directory are the same. -/
structure Alike (before after : Workplace) : Prop where
  tree : after.tree = before.tree
  current : after.current = before.current

instance : IsPreorder Workplace Alike where
  refl _ := ⟨rfl, rfl⟩
  trans _ _ _ h h' := ⟨h'.tree.trans h.tree, h'.current.trans h.current⟩

/-- With the same files, the current directory is there or not as before. -/
theorem Alike.currentDirectory_eq {before after : Workplace} (h : Alike before after) :
    after.currentDirectory = before.currentDirectory := by
  rw [currentDirectory, currentDirectory, h.tree, h.current]

/-- The action does not touch files. -/
abbrev Quiet (action : StateM Workplace α) : Prop :=
  Leads Alike action

theorem quiet_note (event : Event) : Quiet (note event) :=
  fun _ => ⟨rfl, rfl⟩

theorem quiet_scripted (answer : List String → Except Error (List (List Json)))
    (sources : List String) : Quiet (scripted answer sources) :=
  fun _ => ⟨rfl, rfl⟩

/-! ## Changes -/

/-- Another tree, and a note of it. -/
def changed (place : Workplace) (tree : FileTree) : Workplace :=
  { place with tree, history := place.history ++ [Event.changed tree] }

private theorem run_get_bind (next : Workplace → StateM Workplace α) (place : Workplace) :
    (get >>= next).run place = (next place).run place := rfl

/-- An operation fails and leaves the workplace as it is, or leaves another tree. -/
theorem run_change (operation : FileTree → List String → Except FileError FileTree)
    (place : Workplace) :
    (∃ cause, operation place.tree place.current = .error cause ∧
        (change operation).run place = (.error cause, place)) ∨
      ∃ tree, operation place.tree place.current = .ok tree ∧
        (change operation).run place = (.ok (), place.changed tree) := by
  cases hoperation : operation place.tree place.current with
  | error cause =>
    refine Or.inl ⟨cause, rfl, ?_⟩
    unfold change
    rw [run_get_bind, hoperation]
    rfl
  | ok tree =>
    refine Or.inr ⟨tree, rfl, ?_⟩
    unfold change
    rw [run_get_bind, hoperation]
    rfl

/-- An operation leads where the trees lead that it leaves. -/
theorem leads_change {R : Workplace → Workplace → Prop} [IsPreorder Workplace R]
    {operation : FileTree → List String → Except FileError FileTree}
    (h : ∀ (place : Workplace) (tree : FileTree),
      operation place.tree place.current = .ok tree → R place (place.changed tree)) :
    Leads R (change operation) := by
  intro place
  obtain ⟨cause, -, hrun⟩ | ⟨tree, htree, hrun⟩ := run_change operation place
  · rw [hrun]
    exact refl_of R place
  · rw [hrun]
    exact h place tree htree

/-- The same outcomes, where a failure is a fault. -/
theorem perform_faultAt_change (path : Path)
    (operation : FileTree → List String → Except FileError FileTree) (place : Workplace) :
    (∃ cause, operation place.tree place.current = .error cause ∧
        perform (Files.faultAt path (change operation)) place
          = (.error (.file path cause), place)) ∨
      ∃ tree, operation place.tree place.current = .ok tree ∧
        perform (Files.faultAt path (change operation)) place = (.ok (), place.changed tree) := by
  obtain ⟨cause, hoperation, hrun⟩ | ⟨tree, hoperation, hrun⟩ := run_change operation place
  · refine Or.inl ⟨cause, hoperation, ?_⟩
    rw [perform_faultAt, hrun]
    rfl
  · refine Or.inr ⟨tree, hoperation, ?_⟩
    rw [perform_faultAt, hrun]
    rfl

end Weave.Workplace
