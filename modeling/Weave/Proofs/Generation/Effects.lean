import Weave.Proofs.Generation.Outcomes
import Weave.Proofs.Notebook.Attempts

/-!
# What a generation does to the files

Here nothing but the generation itself touches files: reporting and executing are quiet
(`Undisturbed`). Then all steps before the writing leave the files alone (`Prepares.alike`), so that
what a generation does to them is what saving does: an error leaves every file but the temporary one
as it was (`files_of_generate_error`), and the input is read as before unless it is one of the two
files that are written (`read_input_of_generate`).
-/

namespace Weave

open Workplace

/-- Executing a notebook touches files no more than its executor does. -/
theorem Notebook.quiet_execute {executor : Executor (StateM Workplace)}
    (h : ∀ sources, Quiet (executor sources)) (book : Notebook) : Quiet (book.execute executor) := by
  rw [execute_eq]
  split
  · exact Leads.pure _
  · exact (h book.codeSources).map _

namespace Job

/-! ## Small workplaces -/

/-- A directory with these entries, where work is done. -/
def workshop (entries : List (String × FileEntry)) : Workplace where
  tree := ⟨entries.map (fun entry => (["work", entry.1], entry.2)) ++ [(["work"], .directory)]⟩
  current := ["work"]

/-- The job of making an artifact with the name `a` in the current directory. -/
def jobOf (input : String) (target : Target) : Job where
  input := ⟨input⟩
  outputDir := ⟨"."⟩
  target := target
  options := .ofSettings {} "a"

/-- Generates at a workplace with an executor that gives this answer, and notes the phases. -/
def runAt (place : Workplace) (job : Job) (answer : Except Error (List (List Json))) :
    Except Error Artifact × Workplace :=
  perform (job.generate {} (some (scripted fun _ => answer)) fun phase => note (.entered phase)) place

/-! ## Before the writing -/

/-- Neither an executor nor a report touches files. -/
structure Undisturbed (executor? : Option (Executor (StateM Workplace)))
    (report : Phase → StateM Workplace Unit) : Prop where
  executor : ∀ executor ∈ executor?, ∀ sources, Quiet (executor sources)
  report : ∀ phase, Quiet (report phase)

theorem undisturbed_scripted (answer : List String → Except Error (List (List Json))) :
    Undisturbed (some (scripted answer)) fun phase => note (.entered phase) := by
  constructor
  · intro executor hmem
    cases hmem
    exact quiet_scripted answer
  · intro phase
    exact quiet_note (.entered phase)

section Undisturbed

variable {job : Job} {hooks : Hooks} {executor? : Option (Executor (StateM Workplace))}
  {report : Phase → StateM Workplace Unit} {place after : Workplace}

/-- The execution of a document leaves the files alone. -/
theorem quiet_executeDocument (hquiet : Undisturbed executor? report)
    (document : Document) (options : Options) :
    Quiet (executeDocument document options executor? report).run := by
  unfold executeDocument
  split
  · next book executor =>
    split
    · have hbook : Quiet (book.execute executor) :=
        Notebook.quiet_execute (hquiet.executor executor rfl) book
      have hexecute : Quiet ((ExceptT.mk (book.execute executor)).adapt (·.atStep .execute)).run :=
        hbook.map (Except.mapError (·.atStep .execute))
      apply Leads.bindExcept ((hquiet.report .executing).map Except.ok)
      intro _
      apply Leads.bindExcept hexecute
      intro book
      exact Leads.pure _
    · exact Leads.pure _
  · exact Leads.pure _

/-- Before the writing no file is touched. -/
theorem Prepares.alike (hquiet : Undisturbed executor? report)
    {result : Except Error (Options × Document × Bool)}
    (h : Prepares job hooks executor? report place result after) : Alike place after := by
  have hstart : Alike place (reported report .reading place) := hquiet.report .reading place
  have hgenerating : Alike place
      (reported report (.generating job.target) (reported report .reading place)) :=
    trans_of Alike hstart (hquiet.report _ _)
  cases h with
  | notRead heq => exact heq ▸ hstart
  | notCompleted heq => exact heq ▸ hstart
  | notWoven heq => exact heq ▸ hgenerating
  | notExecuted heq hread hoptions hweave hexecute =>
    obtain rfl := heq
    exact trans_of Alike hgenerating ((quiet_executeDocument hquiet _ _).perform hexecute)
  | prepared heq hread hoptions hweave hexecute =>
    obtain rfl := heq
    exact trans_of Alike hgenerating ((quiet_executeDocument hquiet _ _).perform hexecute)

/-! ## The files after an error -/

/-- The path of the artifact of a job. -/
def artifactPath (job : Job) : Path :=
  Document.artifactPath job.outputDir job.options.name job.target

/-- The path that the artifact of a job is first written to. -/
def temporaryPath (job : Job) : Path :=
  Document.temporaryPath job.outputDir job.options.name job.target

/-- Where the writing starts, the files are those that were there at first. -/
theorem Prepares.alike_writing (hquiet : Undisturbed executor? report)
    {result : Except Error (Options × Document × Bool)}
    (h : Prepares job hooks executor? report place result after) :
    Alike place (reported report .writing after) :=
  trans_of Alike (h.alike hquiet) (hquiet.report .writing after)

/-- An error of a generation leaves all directories and files as they were, except that directories
may have been made, and that the document stays in the temporary file if it could not be moved. In
the directory of the job this happens only where another directory has the artifact's place. -/
theorem files_of_generate_error (hquiet : Undisturbed executor? report) {e : Error}
    (h : perform (job.generate hooks executor? report) place = (.error e, after)) :
    (e.step? ≠ some .write → after.tree = place.tree) ∧
      FileTree.Frame [job.temporaryPath.names place.current] place.tree after.tree ∧
      (FileTree.Frame [] place.tree after.tree ∨
        (∃ cause, e = ⟨.file job.artifactPath cause, some .write⟩) ∧
          ∃ options document executed middle,
            Prepares job hooks executor? report place (.ok (options, document, executed)) middle ∧
              after.tree.file? (job.temporaryPath.names place.current)
                = some document.fileText.toUTF8) ∧
      ('/' ∉ job.options.name.toList →
        after.tree.get? (job.artifactPath.names place.current) ≠ some .directory →
          FileTree.Frame [] place.tree after.tree) := by
  cases generates h with
  | notPrepared hprepare =>
    -- nothing at all has been written
    have halike := hprepare.alike hquiet
    have hframe (places : List (List String)) : FileTree.Frame places place.tree after.tree := by
      rw [halike.tree]
      exact FileTree.Frame.refl places place.tree
    exact ⟨fun _ => halike.tree, hframe _, Or.inl (hframe _), fun _ _ => hframe _⟩
  | @notSaved options document executed middle _ fault hprepare hsave =>
    have halike := hprepare.alike_writing hquiet
    have hframe := hsave.frame_of_error
    have hmoved := hsave.frame_or_notMoved
    have hplace := fun hname hget => hsave.frame_of_get?_ne hname hget
    rw [halike.tree, halike.current] at hframe hmoved hplace
    refine ⟨fun hstep => absurd rfl hstep, hframe, ?_, hplace⟩
    obtain hmoved | ⟨⟨cause, rfl⟩, hfile⟩ := hmoved
    · exact Or.inl hmoved
    · exact Or.inr ⟨⟨cause, rfl⟩, options, document, executed, middle, hprepare, hfile⟩

/-- An executor refuses, or a directory has the place of the artifact. -/
theorem files_of_generate_error_refused :
    (runAt (workshop [("s.jl", .file "x = 1\n".toUTF8)]) (jobOf "s.jl" .notebook)
        (.error ⟨.execution "no kernel", none⟩)).2.tree
      = (workshop [("s.jl", .file "x = 1\n".toUTF8)]).tree ∧
    FileTree.Frame [["work", ".a.jl.tmp"]]
      (workshop [("s.jl", .file "x = 1\n".toUTF8), ("a.jl", .directory)]).tree
      (runAt (workshop [("s.jl", .file "x = 1\n".toUTF8), ("a.jl", .directory)])
        (jobOf "s.jl" .script) (.ok [])).2.tree := by
  constructor
  · have hrefused : (runAt (workshop [("s.jl", .file "x = 1\n".toUTF8)]) (jobOf "s.jl" .notebook)
        (.error ⟨.execution "no kernel", none⟩)).1
          = .error ⟨.execution "no kernel", some .execute⟩ := rfl
    exact (files_of_generate_error (undisturbed_scripted _) (Prod.ext hrefused rfl)).1 (by decide)
  · have hblocked : (runAt (workshop [("s.jl", .file "x = 1\n".toUTF8), ("a.jl", .directory)])
        (jobOf "s.jl" .script) (.ok [])).1
          = .error ⟨.file ⟨"./a.jl"⟩ .isDirectory, some .write⟩ := rfl
    exact (files_of_generate_error (undisturbed_scripted _) (Prod.ext hblocked rfl)).2.1

/-- A directory has the place of the artifact, and the temporary file is left behind. -/
theorem generate_error_leaves_file :
    (workshop [("s.jl", .file "x = 1\n".toUTF8), ("a.jl", .directory)]).tree.file?
        ["work", ".a.jl.tmp"] = none ∧
      (runAt (workshop [("s.jl", .file "x = 1\n".toUTF8), ("a.jl", .directory)])
        (jobOf "s.jl" .script) (.ok [])).1
          = .error ⟨.file ⟨"./a.jl"⟩ .isDirectory, some .write⟩ ∧
      (runAt (workshop [("s.jl", .file "x = 1\n".toUTF8), ("a.jl", .directory)])
        (jobOf "s.jl" .script) (.ok [])).2.tree.readText ["work"] ⟨".a.jl.tmp"⟩ = .ok "x = 1\n" :=
  ⟨rfl, rfl, rfl⟩

/-! ## The input -/

/-- What is saved has been made from an input that could be read. -/
theorem Prepares.exists_read (hquiet : Undisturbed executor? report)
    {prepared : Options × Document × Bool}
    (h : Prepares job hooks executor? report place (.ok prepared) after) :
    ∃ content, place.tree.read place.current job.input = .ok content := by
  have hstart : Alike place (reported report .reading place) := hquiet.report .reading place
  cases h with
  | prepared heq hread =>
    rw [heq, hstart.tree, hstart.current] at hread
    exact FileTree.exists_read_of_readText hread

/-- A generation leaves its input as it was, unless the input is one of the two files that it
writes: the temporary file, if the writing was begun, or the artifact, if it was completed. -/
theorem read_input_of_generate (hquiet : Undisturbed executor? report)
    {result : Except Error Artifact}
    (h : perform (job.generate hooks executor? report) place = (result, after)) :
    after.tree.read after.current job.input = place.tree.read place.current job.input ∨
      (job.input.names place.current = job.temporaryPath.names place.current ∧
        ∀ e, result = .error e → e.step? = some .write) ∨
      (job.input.names place.current = job.artifactPath.names place.current ∧
        ∃ artifact, result = .ok artifact) := by
  cases generates h with
  | notPrepared hprepare =>
    have halike := hprepare.alike hquiet
    rw [halike.tree, halike.current]
    exact Or.inl rfl
  | notSaved hprepare hsave =>
    have halike := hprepare.alike_writing hquiet
    have hframe := hsave.frame_of_error
    rw [halike.tree, halike.current] at hframe
    obtain ⟨content, hread⟩ := hprepare.exists_read hquiet
    by_cases htemporary : job.input.names place.current = job.temporaryPath.names place.current
    · refine Or.inr (Or.inl ⟨htemporary, ?_⟩)
      intro e he
      cases he
      rfl
    have hplace : job.input.names place.current ∉ [job.temporaryPath.names place.current] := by
      simpa using htemporary
    rw [hsave.current, halike.current, hread]
    exact Or.inl (hframe.read hread hplace)
  | @saved options document executed middle last path hprepare hsave =>
    -- both files may have changed by now, the temporary one by being moved
    have halike := hprepare.alike_writing hquiet
    have hdone : Alike last (reported report (.done job.target) last) := hquiet.report _ last
    have hframe := hsave.frame_of_ok
    rw [halike.tree, halike.current] at hframe
    obtain ⟨content, hread⟩ := hprepare.exists_read hquiet
    by_cases htemporary : job.input.names place.current = job.temporaryPath.names place.current
    · refine Or.inr (Or.inl ⟨htemporary, ?_⟩)
      intro e he
      cases he
    by_cases hartifact : job.input.names place.current = job.artifactPath.names place.current
    · exact Or.inr (Or.inr ⟨hartifact, _, rfl⟩)
    have hplaces : job.input.names place.current ∉ [job.temporaryPath.names place.current,
        job.artifactPath.names place.current] := by
      simp [htemporary, hartifact]
    rw [hdone.tree, hdone.current, hsave.current, halike.current, hread]
    exact Or.inl (hframe.read hread hplaces)

theorem read_input_of_generate_script :
    (runAt (workshop [("s.jl", .file "x = 1\n".toUTF8)]) (jobOf "s.jl" .script) (.ok [])).1
        = .ok { path := ⟨"./a.jl"⟩, target := .script, executed := false } ∧
      (runAt (workshop [("s.jl", .file "x = 1\n".toUTF8)]) (jobOf "s.jl" .script)
          (.ok [])).2.tree.read
          (runAt (workshop [("s.jl", .file "x = 1\n".toUTF8)]) (jobOf "s.jl" .script)
            (.ok [])).2.current ⟨"s.jl"⟩
        = (workshop [("s.jl", .file "x = 1\n".toUTF8)]).tree.read ["work"] ⟨"s.jl"⟩ := by
  refine ⟨rfl, ?_⟩
  rcases hrun : runAt (workshop [("s.jl", .file "x = 1\n".toUTF8)]) (jobOf "s.jl" .script)
    (.ok []) with ⟨result, after⟩
  -- the script has neither the name of the artifact nor that of the temporary file
  obtain h | ⟨h, -⟩ | ⟨h, -⟩ := read_input_of_generate (undisturbed_scripted _) hrun
  · exact h
  · exact absurd h (by decide)
  · exact absurd h (by decide)

/-- The input is the artifact, or it is the temporary file of a generation that succeeds or is
refused the place of the artifact. -/
theorem generate_changes_input :
    ((workshop [("a.jl", .file "#' Prose\nx = 1\n".toUTF8)]).tree.readText ["work"] ⟨"a.jl"⟩
        = .ok "#' Prose\nx = 1\n" ∧
      (runAt (workshop [("a.jl", .file "#' Prose\nx = 1\n".toUTF8)]) (jobOf "a.jl" .script)
        (.ok [])).2.tree.readText ["work"] ⟨"a.jl"⟩ = .ok "x = 1\n") ∧
    ((workshop [(".a.jl.tmp", .file "#' Prose\nx = 1\n".toUTF8)]).tree.readText ["work"]
        ⟨".a.jl.tmp"⟩ = .ok "#' Prose\nx = 1\n" ∧
      (runAt (workshop [(".a.jl.tmp", .file "#' Prose\nx = 1\n".toUTF8)])
        (jobOf ".a.jl.tmp" .script) (.ok [])).2.tree.readText ["work"] ⟨".a.jl.tmp"⟩
          = .error .notFound) ∧
    ((workshop [(".a.jl.tmp", .file "#' Prose\nx = 1\n".toUTF8), ("a.jl", .directory)]).tree.readText
        ["work"] ⟨".a.jl.tmp"⟩ = .ok "#' Prose\nx = 1\n" ∧
      (runAt (workshop [(".a.jl.tmp", .file "#' Prose\nx = 1\n".toUTF8), ("a.jl", .directory)])
        (jobOf ".a.jl.tmp" .script) (.ok [])).2.tree.readText ["work"] ⟨".a.jl.tmp"⟩
          = .ok "x = 1\n") :=
  ⟨⟨rfl, rfl⟩, ⟨rfl, rfl⟩, ⟨rfl, rfl⟩⟩

end Undisturbed

end Job

end Weave
