import Weave.Error
import Weave.Notebook.Basic

/-!
# Executing notebooks

An executor gets the sources of all code cells at once and answers with one list of outputs for
each. `Notebook.executeHeld` asks it, unless there is no code, and either attaches all the answers
or leaves the notebook alone; `Notebook.execute` gives the notebook that this comes to.
-/

namespace Weave

/-- Runs code cells: from their sources to one list of outputs for each. -/
abbrev Executor (m : Type → Type) := List String → m (Except Error (List (List Json)))

namespace Notebook

/-- Numbers code cells from `count` on and gives each the next list of outputs. -/
def attachOutputs (count : UInt32) : List Cell → List (List Json) → List Cell
  | .code metadata source _ _ :: cells, outputs :: results =>
    .code metadata source (some count) outputs :: attachOutputs (count + 1) cells results
  | .markdown metadata source :: cells, results =>
    .markdown metadata source :: attachOutputs count cells results
  | cells, _ => cells

/-- The notebook with these outputs, one list for each code cell. -/
def withResults (notebook : Notebook) (results : List (List Json)) : Notebook :=
  { notebook with cells := attachOutputs 1 notebook.cells results }

/-- The fault of an executor that answered for the wrong number of cells. -/
def wrongCount (got expected : Nat) : Fault :=
  .execution s!"executor returned outputs for {got} cells, expected {expected}"

variable {m : Type → Type} [Monad m]

/-- Executes the code cells of the notebook that is held. Without any the executor is not asked, and
nothing is attached before all of its answer is known to fit. -/
def executeHeld (executor : Executor m) : StateT Notebook m (Except Error Unit) := do
  let sources := (← get).codeSources
  if sources.isEmpty then return .ok ()
  match ← executor sources with
  | .error e => return .error e
  | .ok results =>
    if results.length = sources.length then
      modify (·.withResults results)
      return .ok ()
    else return .error ⟨wrongCount results.length sources.length, none⟩

/-- The notebook with its code cells executed. -/
def execute (notebook : Notebook) (executor : Executor m) : m (Except Error Notebook) := do
  let (result, after) ← (executeHeld executor).run notebook
  return result.map fun _ => after

end Notebook

end Weave
