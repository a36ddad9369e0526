import Weave.Generation.Output
import Weave.Notebook.Execution
import Weave.Path.Raw

/-!
# Generations

One generation reads an annotated script, weaves it into a document, executes a notebook if it is
told to and can, and writes the artifact.
-/

namespace Weave

/-- What a generation reports to whoever waits for it. -/
inductive Phase where
  | reading
  | generating (target : Target)
  | executing
  | writing
  | done (target : Target)
  deriving DecidableEq, Repr

/-- A phase as it is shown. -/
def Phase.name : Phase → String
  | .reading => "Reading source"
  | .generating target => "Generating " ++ target.name
  | .executing => "Executing notebook"
  | .writing => "Writing output"
  | .done target => "done " ++ target.name

/-- What is to be generated. -/
structure Job where
  /-- The annotated script. -/
  input : Path
  /-- The directory that the artifact is written to. -/
  outputDir : Path
  target : Target
  options : Options

/-- What has been generated. -/
structure Artifact where
  path : Path
  target : Target
  /-- Whether the cells of the notebook have been handed to an executor. -/
  executed : Bool
  deriving DecidableEq, Repr

namespace Job

variable {m : Type → Type} [Monad m] [Files m]

/-- An operation whose fault becomes an error of this step. -/
def atStep {α : Type} (step : Step) (operation : ExceptT Fault m α) : ExceptT Error m α :=
  operation.adapt (⟨·, some step⟩)

/-- The options of a job, completed by the place of its input: a page for Documenter tells where its
source lies, seen from the output directory. -/
def completeOptions (job : Job) : ExceptT Error m Options := do
  if job.options.documenter ∧ job.options.editUrl?.isNone then
    let current ← Files.currentDirectory (m := m)
    match Path.relativeTo current job.input job.outputDir with
    | .ok url => return { job.options with editUrl? := some url }
    | .error fault => throw ⟨fault, none⟩
  else return job.options

/-- Executes a document if it is a notebook, the options ask for it and there is an executor. Tells
whether it did. -/
def executeDocument (document : Document) (options : Options) (executor? : Option (Executor m))
    (report : Phase → m Unit) : ExceptT Error m (Document × Bool) := do
  match document, executor? with
  | .notebook book, some executor =>
    if options.execute then
      report .executing
      let book ← (ExceptT.mk (book.execute executor)).adapt (·.atStep .execute)
      return (.notebook book, true)
    else return (document, false)
  | _, _ => return (document, false)

/-- Generates the artifact of a job. -/
def generate (job : Job) (hooks : Hooks) (executor? : Option (Executor m))
    (report : Phase → m Unit) : ExceptT Error m Artifact := do
  report .reading
  let source ← atStep .read (Files.faultAt job.input (Files.readText job.input))
  let options ← job.completeOptions
  report (.generating job.target)
  let document ← (Document.weave source job.target options hooks : Except Error Document)
  let (document, executed) ← executeDocument document options executor? report
  report .writing
  let path ← atStep .write (document.save job.outputDir options.name job.target)
  report (.done job.target)
  return { path, target := job.target, executed }

end Job

end Weave
