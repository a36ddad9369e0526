import Weave.Proofs.Generation.Outcomes
import Weave.Proofs.Notebook.Attempts

/-!
# The outcomes of an execution

What becomes of a document between weaving and writing. `Executes` tells how this can go: the document
is left alone, or it is a notebook that is to be executed, and then an executor is asked for the
outputs of its code cells, if there are any, and its answer is attached or is an error. Every run has
one of these outcomes (`executes`).
-/

namespace Weave.Job

open Workplace

section Executes

variable (executor? : Option (Executor (StateM Workplace))) (report : Phase → StateM Workplace Unit)

/-- What executing a document gives, and the workplace that it leaves. -/
inductive Executes (document : Document) (options : Options) (place : Workplace) :
    Except Error (Document × Bool) → Workplace → Prop
  | leftAlone (hskip : ∀ book executor, document = .notebook book → executor? = some executor →
        options.execute = false) :
      Executes document options place (.ok (document, false)) place
  | withoutCode {book : Notebook} {executor : Executor (StateM Workplace)}
      (hdocument : document = .notebook book) (hexecutor : executor? = some executor)
      (hoption : options.execute = true) (hcode : book.codeSources = []) :
      Executes document options place (.ok (.notebook book, true)) (reported report .executing place)
  | refused {book : Notebook} {executor : Executor (StateM Workplace)} {answer : Answer} {e : Error}
      {after : Workplace} (hdocument : document = .notebook book)
      (hexecutor : executor? = some executor) (hoption : options.execute = true)
      (hcode : book.codeSources ≠ [])
      (hasked : (executor book.codeSources).run (reported report .executing place) = (answer, after))
      (hsettle : Notebook.settle book answer = (.error e, book)) :
      Executes document options place (.error (e.atStep .execute)) after
  | executed {book : Notebook} {executor : Executor (StateM Workplace)}
      {results : List (List Json)} {after : Workplace} (hdocument : document = .notebook book)
      (hexecutor : executor? = some executor) (hoption : options.execute = true)
      (hcode : book.codeSources ≠ [])
      (hasked : (executor book.codeSources).run (reported report .executing place)
        = (.ok results, after))
      (hresults : results.length = book.codeSources.length) :
      Executes document options place (.ok (.notebook (book.withResults results), true)) after

end Executes

variable {executor? : Option (Executor (StateM Workplace))} {report : Phase → StateM Workplace Unit}
  {document : Document} {options : Options} {place after : Workplace}

/-- What executing a notebook gives at a workplace, as a step of a generation. -/
theorem perform_execute (book : Notebook) (executor : Executor (StateM Workplace))
    (place : Workplace) :
    perform ((ExceptT.mk (book.execute executor)).adapt (·.atStep .execute)) place
      = (((book.execute executor).run place).1.mapError (·.atStep .execute),
        ((book.execute executor).run place).2) := rfl

/-- Without code nobody is asked, and the notebook stays as it is. -/
theorem run_execute_of_no_code {book : Notebook} (executor : Executor (StateM Workplace))
    (hcode : book.codeSources = []) (place : Workplace) :
    (book.execute executor).run place = (.ok book, place) := by
  rw [Notebook.execute_eq, if_pos hcode]
  rfl

/-- With code the executor is asked once, and its answer settled. -/
theorem run_execute_of_code {book : Notebook} {executor : Executor (StateM Workplace)}
    {answer : Answer} (hcode : book.codeSources ≠ [])
    (hasked : (executor book.codeSources).run place = (answer, after)) :
    (book.execute executor).run place
      = ((Notebook.settle book answer).1.map fun _ => (Notebook.settle book answer).2, after) := by
  rw [Notebook.execute_eq, if_neg hcode, StateT.run_map, hasked]
  rfl

/-- Every run of `executeDocument` has one of these outcomes. -/
theorem executes {result : Except Error (Document × Bool)}
    (h : perform (executeDocument document options executor? report) place = (result, after)) :
    Executes executor? report document options place result after := by
  unfold executeDocument at h
  split at h
  · next book executor =>
    split at h
    · next hoption =>
      rw [perform_bind_of_ok (perform_report report .executing place)] at h
      have hrun := perform_execute book executor (reported report .executing place)
      -- nobody is asked for nothing; otherwise it is the answer that decides
      by_cases hcode : book.codeSources = []
      · rw [run_execute_of_no_code executor hcode] at hrun
        rw [perform_bind_of_ok hrun] at h
        cases h
        exact .withoutCode rfl rfl hoption hcode
      rcases hasked : (executor book.codeSources).run (reported report .executing place) with
        ⟨answer, last⟩
      rw [run_execute_of_code hcode hasked] at hrun
      by_cases hfits : Notebook.Fits book answer
      · obtain ⟨results, rfl, hresults⟩ := hfits
        rw [Notebook.settle_of_length_eq hresults] at hrun
        rw [perform_bind_of_ok hrun] at h
        cases h
        exact .executed rfl rfl hoption hcode hasked hresults
      · obtain ⟨e, hsettle⟩ := Notebook.settle_of_not_fits hfits
        rw [hsettle] at hrun
        rw [perform_bind_of_error hrun] at h
        cases h
        exact .refused rfl rfl hoption hcode hasked hsettle
    · next hoption =>
      cases h
      exact .leftAlone fun _ _ _ _ => by simpa using hoption
  · next hother =>
    cases h
    refine .leftAlone fun book executor hdocument hexecutor => ?_
    exact absurd hexecutor (hother book executor hdocument)

end Weave.Job
