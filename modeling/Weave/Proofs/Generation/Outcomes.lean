import Weave.Generation.Basic
import Weave.Proofs.Generation.Saving

/-!
# The outcomes of a generation

A generation prepares a document and saves it (`generate_eq`). `Prepares` tells how the steps before
the writing can end: each of reading, completing the options, weaving and executing can fail, and
then the later ones are not taken. `Generates` tells how a whole generation can end. Every run has
one of these outcomes (`prepares`, `generates`).
-/

namespace Weave.Job

open Workplace

/-! ## The steps of a generation -/

/-- The options of a job, completed from the directory `current`, which may not be known. -/
def completed (job : Job) (current : Except FileError (List String)) : Except Error Options :=
  if job.options.documenter ∧ job.options.editUrl?.isNone then
    match Path.relativeTo current job.input job.outputDir with
    | .ok url => .ok { job.options with editUrl? := some url }
    | .error fault => .error ⟨fault, none⟩
  else .ok job.options

/-- Completing the options looks at the current directory and changes nothing. -/
theorem perform_completeOptions (job : Job) (place : Workplace) :
    perform job.completeOptions place = (job.completed place.currentDirectory, place) := by
  unfold completeOptions completed
  split
  · have hcurrent : perform (liftM (Files.currentDirectory (m := StateM Workplace))
        : ExceptT Error (StateM Workplace) (Except FileError (List String))) place
          = (.ok place.currentDirectory, place) := rfl
    rw [perform_bind_of_ok hcurrent]
    cases Path.relativeTo place.currentDirectory job.input job.outputDir <;> rfl
  · rfl

/-- Completing the options says where the source lies and leaves all else as it is. -/
theorem eq_of_completed {job : Job} {current : Except FileError (List String)} {options : Options}
    (h : job.completed current = .ok options) :
    options = { job.options with editUrl? := options.editUrl? } := by
  unfold completed at h
  split at h
  · split at h
    · cases h
      rfl
    · cases h
  · cases h
    rfl

/-- The artifact keeps the name that the job gives it. -/
theorem name_of_completed {job : Job} {current : Except FileError (List String)} {options : Options}
    (h : job.completed current = .ok options) : options.name = job.options.name := by
  have hname := congrArg Options.name (eq_of_completed h)
  exact hname

/-- Whether to execute stays as the job says. -/
theorem execute_of_completed {job : Job} {current : Except FileError (List String)} {options : Options}
    (h : job.completed current = .ok options) : options.execute = job.options.execute := by
  have hexecute := congrArg Options.execute (eq_of_completed h)
  exact hexecute

section Prepare

variable {m : Type → Type} [Monad m] [Files m]

/-- The steps of a generation before the writing. -/
def prepare (job : Job) (hooks : Hooks) (executor? : Option (Executor m)) (report : Phase → m Unit) :
    ExceptT Error m (Options × Document × Bool) := do
  report .reading
  let source ← atStep .read (Files.faultAt job.input (Files.readText job.input))
  let options ← job.completeOptions
  report (.generating job.target)
  let document ← (Document.weave source job.target options hooks : Except Error Document)
  let executed ← executeDocument document options executor? report
  return (options, executed)

/-- A generation prepares a document and then saves it. -/
theorem generate_eq [LawfulMonad m] (job : Job) (hooks : Hooks) (executor? : Option (Executor m))
    (report : Phase → m Unit) : job.generate hooks executor? report = do
      let (options, document, executed) ← job.prepare hooks executor? report
      report .writing
      let path ← atStep .write (document.save job.outputDir options.name job.target)
      report (.done job.target)
      return { path, target := job.target, executed } := by
  simp only [generate, prepare, bind_assoc, pure_bind]

end Prepare

/-! ## The ways they can go -/

section Outcomes

variable (job : Job) (hooks : Hooks) (executor? : Option (Executor (StateM Workplace)))
  (report : Phase → StateM Workplace Unit)

/-- The workplace after a phase has been reported. -/
def reported (phase : Phase) (place : Workplace) : Workplace :=
  ((report phase).run place).2

theorem perform_report (phase : Phase) (place : Workplace) :
    perform (liftM (report phase) : ExceptT Error (StateM Workplace) Unit) place
      = (.ok (), reported report phase place) := rfl

/-- Reading the input touches no file, and an error of it names the path and the step. -/
theorem perform_readInput (path : Path) (place : Workplace) :
    perform (atStep .read (Files.faultAt path (Files.readText path))) place
      = ((place.tree.readText place.current path).mapError (⟨.file path ·, some .read⟩), place) := by
  rw [perform_atStep, perform_faultAt]
  show (((place.tree.readText place.current path).mapError _).mapError _, place) = _
  cases place.tree.readText place.current path <;> rfl

/-- What the steps before the writing give, and the workplace that they leave. -/
inductive Prepares (place : Workplace) :
    Except Error (Options × Document × Bool) → Workplace → Prop
  | notRead {start : Workplace} {cause : FileError} (hstart : start = reported report .reading place)
      (hread : start.tree.readText start.current job.input = .error cause) :
      Prepares place (.error ⟨.file job.input cause, some .read⟩) start
  | notCompleted {start : Workplace} {source : String} {e : Error}
      (hstart : start = reported report .reading place)
      (hread : start.tree.readText start.current job.input = .ok source)
      (hoptions : job.completed start.currentDirectory = .error e) :
      Prepares place (.error e) start
  | notWoven {start : Workplace} {source : String} {options : Options} {e : Error}
      (hstart : start = reported report .reading place)
      (hread : start.tree.readText start.current job.input = .ok source)
      (hoptions : job.completed start.currentDirectory = .ok options)
      (hweave : Document.weave source job.target options hooks = .error e) :
      Prepares place (.error e) (reported report (.generating job.target) start)
  | notExecuted {start after : Workplace} {source : String} {options : Options}
      {document : Document} {e : Error} (hstart : start = reported report .reading place)
      (hread : start.tree.readText start.current job.input = .ok source)
      (hoptions : job.completed start.currentDirectory = .ok options)
      (hweave : Document.weave source job.target options hooks = .ok document)
      (hexecute : perform (executeDocument document options executor? report)
        (reported report (.generating job.target) start) = (.error e, after)) :
      Prepares place (.error e) after
  | prepared {start after : Workplace} {source : String} {options : Options}
      {document : Document} {executed : Document × Bool}
      (hstart : start = reported report .reading place)
      (hread : start.tree.readText start.current job.input = .ok source)
      (hoptions : job.completed start.currentDirectory = .ok options)
      (hweave : Document.weave source job.target options hooks = .ok document)
      (hexecute : perform (executeDocument document options executor? report)
        (reported report (.generating job.target) start) = (.ok executed, after)) :
      Prepares place (.ok (options, executed)) after

/-- What a generation gives, and the workplace that it leaves. -/
inductive Generates (place : Workplace) : Except Error Artifact → Workplace → Prop
  | notPrepared {e : Error} {after : Workplace}
      (hprepare : Prepares job hooks executor? report place (.error e) after) :
      Generates place (.error e) after
  | notSaved {options : Options} {document : Document} {executed : Bool} {middle after : Workplace}
      {fault : Fault}
      (hprepare : Prepares job hooks executor? report place (.ok (options, document, executed)) middle)
      (hsave : Document.Saves document job.outputDir job.options.name job.target
        (reported report .writing middle) (.error fault) after) :
      Generates place (.error ⟨fault, some .write⟩) after
  | saved {options : Options} {document : Document} {executed : Bool} {middle after : Workplace}
      {path : Path}
      (hprepare : Prepares job hooks executor? report place (.ok (options, document, executed)) middle)
      (hsave : Document.Saves document job.outputDir job.options.name job.target
        (reported report .writing middle) (.ok path) after) :
      Generates place (.ok { path, target := job.target, executed })
        (reported report (.done job.target) after)

end Outcomes

/-! ## Every run goes one of these ways -/

variable {job : Job} {hooks : Hooks} {executor? : Option (Executor (StateM Workplace))}
  {report : Phase → StateM Workplace Unit} {place after : Workplace}

/-- Every run of `prepare` has one of these outcomes. -/
theorem prepares {result : Except Error (Options × Document × Bool)}
    (h : perform (job.prepare hooks executor? report) place = (result, after)) :
    Prepares job hooks executor? report place result after := by
  unfold prepare at h
  -- one step after the other: its error ends the run, its value is what the next step gets
  rw [perform_bind_of_ok (perform_report report .reading place)] at h
  generalize hstart : reported report .reading place = start at h
  have hread := perform_readInput job.input start
  cases hsource : start.tree.readText start.current job.input with
  | error cause =>
    rw [hsource] at hread
    rw [perform_bind_of_error hread] at h
    cases h
    exact .notRead hstart.symm hsource
  | ok source =>
  rw [hsource] at hread
  rw [perform_bind_of_ok hread] at h
  have hcomplete := perform_completeOptions job start
  cases hoptions : job.completed start.currentDirectory with
  | error e =>
    rw [hoptions] at hcomplete
    rw [perform_bind_of_error hcomplete] at h
    cases h
    exact .notCompleted hstart.symm hsource hoptions
  | ok options =>
  rw [hoptions] at hcomplete
  rw [perform_bind_of_ok hcomplete, perform_bind_of_ok (perform_report report _ start)] at h
  have hdocument := perform_liftM_except (Document.weave source job.target options hooks)
    (reported report (.generating job.target) start)
  cases hweave : Document.weave source job.target options hooks with
  | error e =>
    rw [hweave] at hdocument h
    rw [perform_bind_of_error hdocument] at h
    cases h
    exact .notWoven hstart.symm hsource hoptions hweave
  | ok document =>
  rw [hweave] at hdocument h
  rw [perform_bind_of_ok hdocument] at h
  rcases hexecute : perform (executeDocument document options executor? report)
    (reported report (.generating job.target) start) with ⟨executed, last⟩
  cases executed with
  | error e =>
    rw [perform_bind_of_error hexecute] at h
    cases h
    exact .notExecuted hstart.symm hsource hoptions hweave hexecute
  | ok executed =>
    rw [perform_bind_of_ok hexecute] at h
    cases h
    exact .prepared hstart.symm hsource hoptions hweave hexecute

/-- The document is saved under the name that the job gives it. -/
theorem Prepares.name_eq {options : Options} {executed : Document × Bool}
    (h : Prepares job hooks executor? report place (.ok (options, executed)) after) :
    options.name = job.options.name := by
  cases h with
  | prepared hstart hread hoptions => exact name_of_completed hoptions

/-- Every run of `generate` has one of these outcomes. -/
theorem generates {result : Except Error Artifact}
    (h : perform (job.generate hooks executor? report) place = (result, after)) :
    Generates job hooks executor? report place result after := by
  rw [generate_eq] at h
  rcases hprepare : perform (job.prepare hooks executor? report) place with ⟨prepared, middle⟩
  cases prepared with
  | error e =>
    rw [perform_bind_of_error hprepare] at h
    cases h
    exact .notPrepared (prepares hprepare)
  | ok prepared =>
  obtain ⟨options, document, executed⟩ := prepared
  -- completing the options has not renamed the artifact
  rw [perform_bind_of_ok hprepare, perform_bind_of_ok (perform_report report _ middle),
    (prepares hprepare).name_eq] at h
  have hwrite := perform_atStep .write
    (document.save job.outputDir job.options.name job.target) (reported report .writing middle)
  rcases hsave : perform (document.save job.outputDir job.options.name job.target)
    (reported report .writing middle) with ⟨saved, last⟩
  rw [hsave] at hwrite
  cases saved with
  | error fault =>
    rw [perform_bind_of_error hwrite] at h
    cases h
    exact .notSaved (prepares hprepare) (Document.saves hsave)
  | ok path =>
    rw [perform_bind_of_ok hwrite, perform_bind_of_ok (perform_report report _ last)] at h
    cases h
    exact .saved (prepares hprepare) (Document.saves hsave)

end Weave.Job
