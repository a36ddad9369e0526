import Weave.Proofs.Document.Refusals
import Weave.Proofs.Generation.Effects
import Weave.Proofs.Generation.Execution
import Weave.Proofs.Path.Raw

/-!
# Which step an error names

`Job.Raises` says for each step of a generation how it fails, and with which error. An error names
the step that raised it (`step_of_generate_error`), unless an executor has named another one before,
with one exception: if the way from the output directory to the source is to be told and there is none,
then the error of that names no step (`Job.Unplaced`).
-/

namespace Weave

open Text Workplace

namespace Job

/-! ## How the steps fail -/

section Raises

variable (job : Job) (hooks : Hooks) (executor? : Option (Executor (StateM Workplace)))
  (report : Phase → StateM Workplace Unit) (place : Workplace)

/-- What the first step finds. -/
def readSource : Except FileError String :=
  (reported report .reading place).tree.readText (reported report .reading place).current job.input

/-- The source can be read, but not placed: the way to it from the output directory is to be told, and
there is none, for this fault. -/
structure Unplaced (fault : Fault) : Prop where
  read : ∃ source, job.readSource report place = .ok source
  documenter : job.options.documenter = true
  editUrl? : job.options.editUrl? = none
  noWay : Path.NoWay (reported report .reading place).currentDirectory job.input job.outputDir fault

/-- The source is this one, and these are the options to weave it with. -/
structure Reads (source : String) (options : Options) : Prop where
  read : job.readSource report place = .ok source
  options : job.completed (reported report .reading place).currentDirectory = .ok options

/-- This step of a generation fails, and this is its error. -/
inductive Raises : Step → Error → Prop
  | read {cause : FileError} (hread : job.readSource report place = .error cause) :
      Raises .read ⟨.file job.input cause, none⟩
  | preprocess {source message : String} {options : Options}
      (hreads : job.Reads report place source options)
      (hbefore : hooks.before (unifyNewlines source) = .error message) :
      Raises .preprocess ⟨.hook .before message, none⟩
  | filter {source text : String} {options : Options} {fault : Fault}
      (hreads : job.Reads report place source options)
      (hbefore : hooks.before (unifyNewlines source) = .ok text)
      (hparse : Chunk.parse text job.target = .error fault) :
      Raises .filter ⟨fault, none⟩
  | postprocess {source text message : String} {options : Options} {chunks : List Chunk}
      (hreads : job.Reads report place source options)
      (hbefore : hooks.before (unifyNewlines source) = .ok text)
      (hparse : Chunk.parse text job.target = .ok chunks)
      (hafter : hooks.Refuses (Document.render job.target options chunks) message) :
      Raises .postprocess ⟨.hook .after message, none⟩
  /-- The executor refuses, or its answer does not fit. -/
  | execute {source : String} {options : Options} {book : Notebook}
      {executor : Executor (StateM Workplace)} {answer : Answer} {after : Workplace} {e : Error}
      (hreads : job.Reads report place source options)
      (hweave : Document.weave source job.target options hooks = .ok (.notebook book))
      (hexecutor : executor? = some executor) (hoption : options.execute = true)
      (hcode : book.codeSources ≠ [])
      (hasked : (executor book.codeSources).run (reported report .executing
        (reported report (.generating job.target) (reported report .reading place)))
          = (answer, after))
      (hsettle : Notebook.settle book answer = (.error e, book)) :
      Raises .execute e
  | write {options : Options} {document : Document} {executed : Bool} {middle after : Workplace}
      {fault : Fault}
      (hprepare : Prepares job hooks executor? report place (.ok (options, document, executed))
        middle)
      (hsave : Document.Saves document job.outputDir job.options.name job.target
        (reported report .writing middle) (.error fault) after) :
      Raises .write ⟨fault, none⟩

end Raises

variable {job : Job} {hooks : Hooks} {executor? : Option (Executor (StateM Workplace))}
  {report : Phase → StateM Workplace Unit} {place after : Workplace} {step : Step} {e raised : Error}
  {current : Except FileError (List String)} {fault : Fault}

/-! ## What a step raises -/

/-- Only the executor can give an error that names a step by itself. -/
theorem Raises.step?_eq_none (h : job.Raises hooks executor? report place step raised)
    (hstep : step ≠ .execute) : raised.step? = none := by
  cases h with
  | read => rfl
  | preprocess => rfl
  | filter => rfl
  | postprocess => rfl
  | execute => exact absurd rfl hstep
  | write => rfl

/-- Only placing the source can fail, and only because there is no way to it. -/
theorem completed_eq_error_iff :
    job.completed current = .error e ↔
      job.options.documenter = true ∧ job.options.editUrl? = none ∧
        ∃ fault, Path.NoWay current job.input job.outputDir fault ∧ e = ⟨fault, none⟩ := by
  unfold completed
  simp only [← Path.relativeTo_eq_error_iff]
  split
  · next hplace =>
    rw [Option.isNone_iff_eq_none] at hplace
    cases Path.relativeTo current job.input job.outputDir with
    | error fault => simp [hplace, eq_comm]
    | ok url => simp
  · next hplace =>
    rw [Option.isNone_iff_eq_none, not_and] at hplace
    simp only [reduceCtorEq, false_iff, not_and]
    intro hdocumenter hurl
    exact absurd hurl (hplace hdocumenter)

/-- What is read and completed has been placed. -/
theorem Reads.not_unplaced {source : String} {options : Options}
    (h : job.Reads report place source options) : ¬ job.Unplaced report place fault := by
  intro hunplaced
  have hfails : job.completed (reported report .reading place).currentDirectory
      = .error ⟨fault, none⟩ :=
    completed_eq_error_iff.2
      ⟨hunplaced.documenter, hunplaced.editUrl?, fault, hunplaced.noWay, rfl⟩
  cases h.options.symm.trans hfails

/-- What has been prepared has been read and completed. -/
theorem Prepares.reads {options : Options} {executed : Document × Bool}
    (h : Prepares job hooks executor? report place (.ok (options, executed)) after) :
    ∃ source, job.Reads report place source options := by
  cases h with
  | prepared heq hread hoptions =>
    subst heq
    exact ⟨_, hread, hoptions⟩

/-- No step fails in a generation whose source could not be placed, because none of them is taken. -/
theorem Raises.not_unplaced (h : job.Raises hooks executor? report place step raised) :
    ¬ job.Unplaced report place fault := by
  cases h with
  | read hread =>
    rintro ⟨⟨source, hsource⟩, -⟩
    cases hread.symm.trans hsource
  | preprocess hreads => exact hreads.not_unplaced
  | filter hreads => exact hreads.not_unplaced
  | postprocess hreads => exact hreads.not_unplaced
  | execute hreads => exact hreads.not_unplaced
  | write hprepare =>
    obtain ⟨source, hreads⟩ := hprepare.reads
    exact hreads.not_unplaced

/-! ## The steps that errors name -/

/-- An error before the writing is that of placing the source, or a step has raised it and is named
if none was. -/
theorem Prepares.raises
    (h : Prepares job hooks executor? report place (.error e) after) :
    (∃ fault, job.Unplaced report place fault ∧ e = ⟨fault, none⟩) ∨
      ∃ step raised, job.Raises hooks executor? report place step raised ∧
        e = raised.atStep step := by
  cases h with
  | notRead heq hread =>
    subst heq
    exact Or.inr ⟨.read, _, .read hread, rfl⟩
  | notCompleted heq hread hoptions =>
    subst heq
    -- the one error that names no step: it comes neither from reading nor from weaving
    obtain ⟨hdocumenter, hurl, fault, hnoWay, rfl⟩ := completed_eq_error_iff.1 hoptions
    exact Or.inl ⟨fault, ⟨⟨_, hread⟩, hdocumenter, hurl, hnoWay⟩, rfl⟩
  | notWoven heq hread hoptions hweave =>
    subst heq
    have hreads := Reads.mk hread hoptions
    obtain ⟨message, hbefore, rfl⟩ | ⟨text, hbefore, hweave⟩ :=
      Document.weave_eq_error_iff_steps.1 hweave
    · exact Or.inr ⟨.preprocess, _, .preprocess hreads hbefore, rfl⟩
    · obtain ⟨fault, hparse, rfl⟩ | ⟨chunks, message, hparse, hafter, rfl⟩ := hweave
      · exact Or.inr ⟨.filter, _, .filter hreads hbefore hparse, rfl⟩
      · exact Or.inr ⟨.postprocess, _, .postprocess hreads hbefore hparse hafter, rfl⟩
  | notExecuted heq hread hoptions hweave hexecute =>
    subst heq
    have hreads := Reads.mk hread hoptions
    cases executes hexecute with
    | refused hdocument hexecutor hoption hcode hasked hsettle =>
      subst hdocument
      exact Or.inr ⟨.execute, _, .execute hreads hweave hexecutor hoption hcode hasked hsettle, rfl⟩

/-- So it is with every error of a generation. -/
theorem Generates.raises
    (h : Generates job hooks executor? report place (.error e) after) :
    (∃ fault, job.Unplaced report place fault ∧ e = ⟨fault, none⟩) ∨
      ∃ step raised, job.Raises hooks executor? report place step raised ∧
        e = raised.atStep step := by
  cases h with
  | notPrepared hprepare => exact hprepare.raises
  | notSaved hprepare hsave => exact Or.inr ⟨.write, _, .write hprepare hsave, rfl⟩

/-- An error of a generation names no step exactly if the source could not be placed, and then it is
the error of that. Every other error has been raised by a step, and names this step, unless it is an
executor's and has named a step before. -/
theorem step_of_generate_error
    (h : perform (job.generate hooks executor? report) place = (.error e, after)) :
    (e.step? = none ↔ ∃ fault, job.Unplaced report place fault) ∧
      (∀ fault, job.Unplaced report place fault → e = ⟨fault, none⟩) ∧
      ((∀ fault, ¬ job.Unplaced report place fault) → ∃ step raised,
        job.Raises hooks executor? report place step raised ∧ e = raised.atStep step ∧
          (step ≠ .execute ∨ raised.step? = none → e.step? = some step)) := by
  obtain ⟨fault, hunplaced, rfl⟩ | ⟨step, raised, hraises, rfl⟩ := (generates h).raises
  · refine ⟨⟨fun _ => ⟨fault, hunplaced⟩, fun _ => rfl⟩, ?_,
      fun hplaced => absurd hunplaced (hplaced fault)⟩
    intro other hother
    have hway := Path.relativeTo_eq_error_iff.2 hunplaced.noWay
    rw [Path.relativeTo_eq_error_iff.2 hother.noWay] at hway
    rw [Except.error.inj hway]
  · -- no step fails where the source cannot be placed
    have hplaced (fault : Fault) : ¬ job.Unplaced report place fault := hraises.not_unplaced
    refine ⟨?_, fun fault hunplaced => absurd hunplaced (hplaced fault),
      fun _ => ⟨step, raised, hraises, rfl, ?_⟩⟩
    · constructor
      · intro hnone
        rw [Error.step?_atStep] at hnone
        cases hnone
      · rintro ⟨fault, hunplaced⟩
        exact absurd hunplaced (hplaced fault)
    · intro hstep
      have hraised : raised.step? = none := by
        rcases hstep with hstep | hraised
        · exact hraises.step?_eq_none hstep
        · exact hraised
      rw [Error.step?_atStep, hraised, Option.getD_none]

/-- Work is done in a directory that is gone, and the script lies somewhere else. -/
def deserted : Workplace :=
  { workshop [("s.jl", .file "x = 1\n".toUTF8)] with current := ["gone"] }

/-- A script is not there, which is an error of reading; another one is there and cannot be placed,
because the output directory has no name, or because the current directory is gone and one of the two
paths is relative. -/
theorem step_of_generate_error_not_found :
    (∃ after, runAt (workshop []) (jobOf "s.jl" .markdown) (.ok [])
      = (.error ⟨.file ⟨"s.jl"⟩ .notFound, some .read⟩, after)) ∧
    (∃ step raised, (jobOf "s.jl" .markdown).Raises {} (some (scripted fun _ => .ok []))
        (fun phase => note (.entered phase)) (workshop []) step raised ∧
      ⟨.file ⟨"s.jl"⟩ .notFound, some .read⟩ = raised.atStep step) ∧
    (∃ fault, ({ jobOf "s.jl" .markdown with outputDir := ⟨""⟩ } : Job).Unplaced
      (fun phase => note (.entered phase)) (workshop [("s.jl", .file "x = 1\n".toUTF8)]) fault) ∧
    (∃ fault, ({ jobOf "/work/s.jl" .markdown with outputDir := ⟨"out"⟩ } : Job).Unplaced
      (fun phase => note (.entered phase)) deserted fault) ∧
    ∃ fault, ({ jobOf "../work/s.jl" .markdown with outputDir := ⟨"/out"⟩ } : Job).Unplaced
      (fun phase => note (.entered phase)) deserted fault := by
  have hread : (runAt (workshop []) (jobOf "s.jl" .markdown) (.ok [])).1
      = .error ⟨.file ⟨"s.jl"⟩ .notFound, some .read⟩ := rfl
  have hempty : (runAt (workshop [("s.jl", .file "x = 1\n".toUTF8)])
      { jobOf "s.jl" .markdown with outputDir := ⟨""⟩ } (.ok [])).1
        = .error ⟨.file ⟨""⟩ .emptyPath, none⟩ := rfl
  have hgone : (runAt deserted { jobOf "/work/s.jl" .markdown with outputDir := ⟨"out"⟩ } (.ok [])).1
      = .error ⟨.file ⟨"out"⟩ .notFound, none⟩ := rfl
  have hback : (runAt deserted { jobOf "../work/s.jl" .markdown with outputDir := ⟨"/out"⟩ }
      (.ok [])).1 = .error ⟨.file ⟨"../work/s.jl"⟩ .notFound, none⟩ := rfl
  obtain ⟨hnone, -, hraised⟩ := step_of_generate_error (Prod.ext hread rfl)
  have hplaced := mt hnone.2 (by decide)
  obtain ⟨step, raised, hraises, heq, -⟩ := hraised (not_exists.1 hplaced)
  exact ⟨⟨_, Prod.ext hread rfl⟩, ⟨step, raised, hraises, heq⟩,
    (step_of_generate_error (Prod.ext hempty rfl)).1.1 rfl,
    (step_of_generate_error (Prod.ext hgone rfl)).1.1 rfl,
    (step_of_generate_error (Prod.ext hback rfl)).1.1 rfl⟩

/-- A page is to be made in an output directory that has no name, or work is done in one that is gone. -/
theorem generate_error_without_step :
    (runAt (workshop [("s.jl", .file "x = 1\n".toUTF8)])
      { jobOf "s.jl" .markdown with outputDir := ⟨""⟩ } (.ok [])).1
        = .error ⟨.file ⟨""⟩ .emptyPath, none⟩ ∧
    (runAt deserted { jobOf "/work/s.jl" .markdown with outputDir := ⟨"out"⟩ } (.ok [])).1
      = .error ⟨.file ⟨"out"⟩ .notFound, none⟩ ∧
    (runAt deserted { jobOf "../work/s.jl" .markdown with outputDir := ⟨"/out"⟩ } (.ok [])).1
      = .error ⟨.file ⟨"../work/s.jl"⟩ .notFound, none⟩ :=
  ⟨rfl, rfl, rfl⟩

end Job

end Weave
