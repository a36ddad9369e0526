import Weave.Generation.Output
import Weave.Proofs.Workplace.History

/-!
# What saving a document does to the files

Directories are made first, which changes no file (`leads_makeDirectories`). Then the temporary file
is written and moved. `Saves` tells how this can end: each of the three operations can be refused, and
then nothing has changed but what the operations before it did. It follows which files can differ
after an error (`Saves.frame_of_error`) and that only a directory at the place of the document can
leave the temporary file behind (`Saves.frame_of_get?_ne`).
-/

namespace Weave

/-! ## Making directories -/

namespace Workplace

/-- The current directory is the same, and nothing has happened but that directories were made. -/
structure Furnished (before after : Workplace) : Prop where
  frame : FileTree.Frame [] before.tree after.tree
  current : after.current = before.current
  changes : Adds Event.IsChange before after

instance : IsPreorder Workplace Furnished where
  refl place := ⟨FileTree.Frame.refl [] place.tree, rfl, refl_of _ place⟩
  trans _ _ _ h h' :=
    ⟨h.frame.trans h'.frame, h'.current.trans h.current, trans_of _ h.changes h'.changes⟩

theorem leads_makeDirectory (path : Path) :
    Leads Furnished (Files.makeDirectory path : StateM Workplace _) :=
  leads_change fun place tree htree =>
    ⟨FileTree.frame_makeDirectory htree, rfl, adds_changed place tree⟩

section Chain

variable {R : Workplace → Workplace → Prop} [IsPreorder Workplace R]

theorem leads_unlessDirectory (path : Path) (cause : FileError) :
    Leads R (Files.unlessDirectory path cause : StateM Workplace _) := by
  have hlook : Leads R (Files.isDirectory path : StateM Workplace Bool) :=
    fun place => refl_of R place
  apply Leads.bind hlook
  intro present
  split
  · exact Leads.pure _
  · exact Leads.pure _

/-- A chain of directories leads where making each of them leads. -/
theorem leads_makeChain {paths : List Path}
    (h : ∀ path ∈ paths, Leads R (Files.makeDirectory path : StateM Workplace _)) :
    Leads R (Files.makeChain paths : StateM Workplace _) := by
  induction paths with
  | nil => exact Leads.pure (Except.error FileError.noParent)
  | cons path above ih =>
    obtain ⟨hpath, habove⟩ := List.forall_mem_cons.1 h
    unfold Files.makeChain
    split
    · exact Leads.pure _
    · apply Leads.bind hpath
      intro first
      split
      · exact Leads.pure _
      · -- nothing is there to make it in: the directories above are made, and it is tried again
        apply Leads.bind (ih habove)
        intro above
        split
        · exact Leads.pure _
        · apply Leads.bind hpath
          intro second
          split
          · exact Leads.pure _
          · exact leads_unlessDirectory path _
      · exact leads_unlessDirectory path _

end Chain

/-- Either way the workplace is one that making the directories leads to. -/
theorem perform_makeDirectories {R : Workplace → Workplace → Prop} {dir : Path}
    (h : Leads R (Files.makeDirectories dir : StateM Workplace _)) (before : Workplace) :
    ∃ after, R before after ∧
      ((∃ cause, perform (Files.faultAt dir (Files.makeDirectories dir)) before
          = (.error (.file dir cause), after)) ∨
        perform (Files.faultAt dir (Files.makeDirectories dir)) before = (.ok (), after)) := by
  refine ⟨_, h before, ?_⟩
  rw [perform_faultAt]
  cases ((Files.makeDirectories dir : StateM Workplace _).run before).1 with
  | error cause => exact Or.inl ⟨cause, rfl⟩
  | ok value => exact Or.inr rfl

/-- Making directories changes no file and leaves the current directory. -/
theorem leads_makeDirectories (path : Path) :
    Leads Furnished (Files.makeDirectories path : StateM Workplace _) :=
  leads_makeChain fun above _ => leads_makeDirectory above

end Workplace

/-! ## The outcomes of saving -/

namespace Document

open Workplace

/-- The path of an artifact. -/
def artifactPath (dir : Path) (name : String) (target : Target) : Path :=
  dir.join (fileName name target)

/-- The path that an artifact is first written to. -/
def temporaryPath (dir : Path) (name : String) (target : Target) : Path :=
  dir.join (temporaryName name target)

/-- What saving a document gives, and the workplace that it leaves. -/
inductive Saves (document : Document) (dir : Path) (name : String) (target : Target)
    (before : Workplace) : Except Fault Path → Workplace → Prop
  | notFurnished {cause : FileError} {after : Workplace} (hfurnished : Furnished before after) :
      Saves document dir name target before (.error (.file dir cause)) after
  | notWritten {cause : FileError} {after : Workplace} (hfurnished : Furnished before after)
      (hwrite : after.tree.write after.current (temporaryPath dir name target)
        document.fileText.toUTF8 = .error cause) :
      Saves document dir name target before
        (.error (.file (temporaryPath dir name target) cause)) after
  | notMoved {cause : FileError} {middle : Workplace} {written : FileTree}
      (hfurnished : Furnished before middle)
      (hwrite : middle.tree.write middle.current (temporaryPath dir name target)
        document.fileText.toUTF8 = .ok written)
      (hmove : written.moveFile middle.current (temporaryPath dir name target)
        (artifactPath dir name target) = .error cause) :
      Saves document dir name target before
        (.error (.file (artifactPath dir name target) cause)) (middle.changed written)
  | saved {middle : Workplace} {written moved : FileTree} (hfurnished : Furnished before middle)
      (hwrite : middle.tree.write middle.current (temporaryPath dir name target)
        document.fileText.toUTF8 = .ok written)
      (hmove : written.moveFile middle.current (temporaryPath dir name target)
        (artifactPath dir name target) = .ok moved) :
      Saves document dir name target before (.ok (artifactPath dir name target))
        ((middle.changed written).changed moved)

variable {document : Document} {dir : Path} {name : String} {target : Target}
  {before after : Workplace}

/-- Saving at a workplace, with its two changes of the tree. -/
theorem save_eq (document : Document) (dir : Path) (name : String) (target : Target) :
    (document.save dir name target : ExceptT Fault (StateM Workplace) Path) = do
      Files.faultAt dir (Files.makeDirectories dir)
      Files.faultAt (temporaryPath dir name target) (change fun tree current =>
        tree.write current (temporaryPath dir name target) document.fileText.toUTF8)
      Files.faultAt (artifactPath dir name target) (change fun tree current =>
        tree.moveFile current (temporaryPath dir name target) (artifactPath dir name target))
      return artifactPath dir name target := rfl

/-- A run of `save` makes directories and then writes and moves the temporary file; the first
operation that fails ends it. -/
theorem perform_save {R : Workplace → Workplace → Prop} [IsPreorder Workplace R]
    (hmake : Leads R (Files.makeDirectories dir : StateM Workplace _)) {result : Except Fault Path}
    (h : perform (document.save dir name target) before = (result, after)) :
    ∃ middle, R before middle ∧
      ((∃ cause, result = .error (.file dir cause) ∧ after = middle) ∨
        (∃ cause, middle.tree.write middle.current (temporaryPath dir name target)
            document.fileText.toUTF8 = .error cause ∧
          result = .error (.file (temporaryPath dir name target) cause) ∧ after = middle) ∨
        ∃ written, middle.tree.write middle.current (temporaryPath dir name target)
            document.fileText.toUTF8 = .ok written ∧
          ((∃ cause, written.moveFile middle.current (temporaryPath dir name target)
              (artifactPath dir name target) = .error cause ∧
            result = .error (.file (artifactPath dir name target) cause) ∧
            after = middle.changed written) ∨
          ∃ moved, written.moveFile middle.current (temporaryPath dir name target)
              (artifactPath dir name target) = .ok moved ∧
            result = .ok (artifactPath dir name target) ∧
            after = (middle.changed written).changed moved)) := by
  rw [save_eq] at h
  obtain ⟨middle, hmiddle, ⟨cause, hrun⟩ | hrun⟩ := perform_makeDirectories hmake before
  · rw [perform_bind_of_error hrun] at h
    cases h
    exact ⟨_, hmiddle, Or.inl ⟨cause, rfl, rfl⟩⟩
  rw [perform_bind_of_ok hrun] at h
  refine ⟨middle, hmiddle, Or.inr ?_⟩
  obtain ⟨cause, hwrite, hrun⟩ | ⟨written, hwrite, hrun⟩ :=
    perform_faultAt_change (temporaryPath dir name target) _ middle
  · rw [perform_bind_of_error hrun] at h
    cases h
    exact Or.inl ⟨cause, hwrite, rfl, rfl⟩
  rw [perform_bind_of_ok hrun] at h
  refine Or.inr ⟨written, hwrite, ?_⟩
  obtain ⟨cause, hmove, hrun⟩ | ⟨moved, hmove, hrun⟩ :=
    perform_faultAt_change (artifactPath dir name target) _ (middle.changed written)
  · rw [perform_bind_of_error hrun] at h
    cases h
    exact Or.inl ⟨cause, hmove, rfl, rfl⟩
  rw [perform_bind_of_ok hrun] at h
  cases h
  exact Or.inr ⟨moved, hmove, rfl, rfl⟩

/-- Every run of `save` has one of these outcomes. -/
theorem saves {result : Except Fault Path}
    (h : perform (document.save dir name target) before = (result, after)) :
    Saves document dir name target before result after := by
  obtain ⟨middle, hfurnished, ⟨cause, rfl, rfl⟩ | ⟨cause, hwrite, rfl, rfl⟩ |
    ⟨written, hwrite, ⟨cause, hmove, rfl, rfl⟩ | ⟨moved, hmove, rfl, rfl⟩⟩⟩ :=
    perform_save (leads_makeDirectories dir) h
  · exact .notFurnished hfurnished
  · exact .notWritten hfurnished hwrite
  · exact .notMoved hfurnished hwrite hmove
  · exact .saved hfurnished hwrite hmove

/-! ## The files afterwards -/

/-- The temporary file lies in the directory of the artifact. -/
theorem slash_not_mem_temporaryName (target : Target) (h : '/' ∉ name.toList) :
    '/' ∉ (temporaryName name target).toList := by
  cases target <;> simp [temporaryName, fileName, Target.extension, h]

theorem fileName_subset_temporaryName :
    (fileName name target).toList ⊆ (temporaryName name target).toList := by
  simp [temporaryName]

/-- If the temporary name is not too long, the name of the artifact is not. -/
theorem utf8ByteSize_fileName_le :
    (fileName name target).utf8ByteSize ≤ (temporaryName name target).utf8ByteSize := by
  simp only [temporaryName, String.utf8ByteSize_append]
  omega

/-- A file name has an extension, which makes it longer than any special name. -/
theorem length_fileName (name : String) (target : Target) : 3 ≤ (fileName name target).length := by
  have hdot : ".".length = 1 := by decide
  have hextension : 2 ≤ target.extension.length := by cases target <;> decide
  rw [fileName, String.length_append, String.length_append]
  omega

theorem length_temporaryName (name : String) (target : Target) :
    (temporaryName name target).length = (fileName name target).length + 5 := by
  have hdot : ".".length = 1 := by decide
  have htmp : ".tmp".length = 4 := by decide
  rw [temporaryName, String.length_append, String.length_append]
  omega

namespace Saves

theorem current {result : Except Fault Path} (h : Saves document dir name target before result after) :
    after.current = before.current := by
  cases h with
  | notFurnished hfurnished => exact hfurnished.current
  | notWritten hfurnished => exact hfurnished.current
  | notMoved hfurnished => exact hfurnished.current
  | saved hfurnished => exact hfurnished.current

/-- Saving changes files and does nothing else. -/
theorem changes {result : Except Fault Path}
    (h : Saves document dir name target before result after) : Adds Event.IsChange before after := by
  cases h with
  | notFurnished hfurnished => exact hfurnished.changes
  | notWritten hfurnished => exact hfurnished.changes
  | notMoved hfurnished => exact trans_of _ hfurnished.changes (adds_changed _ _)
  | saved hfurnished =>
    exact trans_of _ hfurnished.changes (trans_of _ (adds_changed _ _) (adds_changed _ _))

/-- Saving asks no executor. -/
theorem unasked {result : Except Fault Path}
    (h : Saves document dir name target before result after) : Adds (·.asked? = none) before after :=
  h.changes.mono fun _ hchange => hchange.asked?_eq_none

/-- What is read at the path that success gives is the complete document. -/
theorem read_of_ok {path : Path} (h : Saves document dir name target before (.ok path) after) :
    after.tree.read after.current path = .ok document.fileText.toUTF8 := by
  cases h with
  | saved hfurnished hwrite hmove =>
    exact FileTree.read_moveFile (FileTree.file?_write hwrite) hmove

/-- Success changes the files at two places. -/
theorem frame_of_ok {path : Path} (h : Saves document dir name target before (.ok path) after) :
    FileTree.Frame [(temporaryPath dir name target).names before.current,
      (artifactPath dir name target).names before.current] before.tree after.tree := by
  cases h with
  | saved hfurnished hwrite hmove =>
    rw [← hfurnished.current]
    -- the temporary file changes twice, being written and taken away
    have hframe := hfurnished.frame.trans
      ((FileTree.frame_write hwrite).trans (FileTree.frame_moveFile hmove))
    exact hframe.mono (by simp)

/-- An error changes the temporary file at most. -/
theorem frame_of_error {fault : Fault}
    (h : Saves document dir name target before (.error fault) after) :
    FileTree.Frame [(temporaryPath dir name target).names before.current] before.tree after.tree := by
  cases h with
  | notFurnished hfurnished => exact hfurnished.frame.mono (List.nil_subset _)
  | notWritten hfurnished => exact hfurnished.frame.mono (List.nil_subset _)
  | notMoved hfurnished hwrite =>
    rw [← hfurnished.current]
    exact hfurnished.frame.trans (FileTree.frame_write hwrite)

/-- If an error has changed a file, then the complete document could not be moved. -/
theorem frame_or_notMoved {fault : Fault}
    (h : Saves document dir name target before (.error fault) after) :
    FileTree.Frame [] before.tree after.tree ∨
      (∃ cause, fault = .file (artifactPath dir name target) cause) ∧
        after.tree.file? ((temporaryPath dir name target).names before.current)
          = some document.fileText.toUTF8 := by
  cases h with
  | notFurnished hfurnished => exact Or.inl hfurnished.frame
  | notWritten hfurnished => exact Or.inl hfurnished.frame
  | notMoved hfurnished hwrite =>
    rw [← hfurnished.current]
    exact Or.inr ⟨⟨_, rfl⟩, FileTree.file?_write hwrite⟩

/-- In its own directory a document can only be refused its place by a directory there. -/
theorem frame_of_get?_ne {fault : Fault} (hname : '/' ∉ name.toList)
    (hplace : after.tree.get? ((artifactPath dir name target).names before.current)
      ≠ some .directory)
    (h : Saves document dir name target before (.error fault) after) :
    FileTree.Frame [] before.tree after.tree := by
  cases h with
  | notFurnished hfurnished => exact hfurnished.frame
  | notWritten hfurnished => exact hfurnished.frame
  | @notMoved cause middle written hfurnished hwrite hmove =>
    rw [← hfurnished.current] at hplace
    -- the temporary file is there, and so its directory holds the place of the document too
    have hslash := slash_not_mem_temporaryName target hname
    have hfile : '/' ∉ (fileName name target).toList :=
      fun hmem => hslash (fileName_subset_temporaryName hmem)
    have hlength := length_fileName name target
    have hlength' : 3 ≤ (temporaryName name target).length := by
      rw [length_temporaryName]
      omega
    have hne : temporaryName name target ≠ "" := by simp [temporaryName]
    have hlocate : written.locate middle.current (temporaryPath dir name target)
        = .ok ((temporaryPath dir name target).names middle.current) := by
      refine (FileTree.frame_write hwrite).locate ?_
      rw [← (FileTree.write_eq_ok hwrite).1]
      exact (FileTree.locateNew_join hslash hne).symm
    have hgoal := FileTree.locate_join_of_subset hslash fileName_subset_temporaryName
      utf8ByteSize_fileName_le hlength' hlength hlocate
    exact absurd (FileTree.get?_of_moveFile_eq_error (FileTree.climbs_join hslash hlength')
      (FileTree.climbs_join hfile hlength) hlocate (FileTree.file?_write hwrite) hgoal hmove) hplace

end Saves

end Document

end Weave
