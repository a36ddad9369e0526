import Weave.Proofs.Generation.Asking

/-!
# What an artifact tells about its execution

An artifact is marked as executed if its notebook was to be executed and there was somebody to do it
(`Executes.mark_iff`). Nobody is asked for a notebook without code, though. So the mark does not always
tell whether an executor was asked: it does exactly if the artifact is not marked or the notebook that
was written has code (`executed_of_generate`).
-/

namespace Weave

open Workplace

/-- Whatever the hooks do, the target tells whether a document is a notebook. -/
theorem Document.exists_notebook_iff {source : String} {target : Target} {options : Options}
    {hooks : Hooks} {document : Document} (h : weave source target options hooks = .ok document) :
    (∃ book, document = .notebook book) ↔ target = .notebook := by
  constructor
  · rintro ⟨book, rfl⟩
    exact (weave_eq_ok_notebook_iff.1 h).1
  · rintro rfl
    simp only [weave_eq, Except.bind_eq_ok_iff] at h
    obtain ⟨text, -, chunks, -, hfinish⟩ := h
    obtain ⟨book, -, hbook⟩ := Except.map_eq_ok_iff.1 (Except.mapError_eq_ok_iff.1 hfinish)
    exact ⟨book, hbook.symm⟩

/-! ## Questions -/

/-- What an executor is asked for a document: the code of a notebook, if there is any. -/
def Document.questions : Document → List (List String)
  | .text _ => []
  | .notebook book => if book.codeSources = [] then [] else [book.codeSources]

/-- There is something to ask for exactly in a notebook with code. -/
theorem Document.questions_ne_nil_iff {document : Document} :
    document.questions ≠ [] ↔ ∃ book, document = .notebook book ∧ book.codeCells ≠ [] := by
  cases document with
  | text content => simp [questions]
  | notebook book => simp [questions, Notebook.codeSources_eq_map]

namespace Workplace

variable {before middle after : Workplace} {calls more : List (List String)}

/-- Since then executors have been asked these questions, in order. -/
def AskedSince (calls : List (List String)) (before after : Workplace) : Prop :=
  ∃ events, after.history = before.history ++ events ∧ events.filterMap Event.asked? = calls

theorem AskedSince.trans (h : AskedSince calls before middle) (h' : AskedSince more middle after) :
    AskedSince (calls ++ more) before after := by
  obtain ⟨events, hevents, rfl⟩ := h
  obtain ⟨events', hevents', rfl⟩ := h'
  refine ⟨events ++ events', ?_, List.filterMap_append⟩
  rw [hevents', hevents, List.append_assoc]

/-- If no question has been added, none has been asked. -/
theorem askedSince_nil_of_adds (h : Adds (·.asked? = none) before after) :
    AskedSince [] before after := by
  obtain ⟨events, hevents, hnone⟩ := h
  exact ⟨events, hevents, List.filterMap_eq_nil_iff.2 hnone⟩

theorem askedSince_noted (place : Workplace) (sources : List String) :
    AskedSince [sources] place (place.noted (.asked sources)) :=
  ⟨[.asked sources], rfl, rfl⟩

end Workplace

namespace Job

variable {job : Job} {hooks : Hooks} {answer? : Option (List String → Answer)}
  {executor? : Option (Executor (StateM Workplace))}
  {report : Phase → StateM Workplace Unit} {place after : Workplace} {document written : Document}
  {options : Options} {mark : Bool}

/-! ## The step of executing -/

/-- A document is marked if it is a notebook that is to be executed and somebody can do it. -/
theorem Executes.mark_iff
    (h : Executes executor? report document options place (.ok (written, mark)) after) :
    mark = true ↔ (∃ book, document = .notebook book) ∧ options.execute = true ∧ executor? ≠ none := by
  cases h with
  | leftAlone hskip =>
    refine iff_of_false Bool.false_ne_true ?_
    rintro ⟨⟨book, hdocument⟩, hoption, hexecutor⟩
    obtain ⟨executor, hexecutor⟩ := Option.ne_none_iff_exists'.1 hexecutor
    rw [hskip book executor hdocument hexecutor] at hoption
    cases hoption
  | withoutCode hdocument hexecutor hoption =>
    exact iff_of_true rfl ⟨⟨_, hdocument⟩, hoption, by simp [hexecutor]⟩
  | executed hdocument hexecutor hoption =>
    exact iff_of_true rfl ⟨⟨_, hdocument⟩, hoption, by simp [hexecutor]⟩

/-- For a document that is marked its code is asked for, and nothing for any other one. -/
theorem Executes.askedSince (hreport : ∀ phase, Leads Watched (report phase))
    (h : Executes (answer?.map scripted) report document options place (.ok (written, mark)) after) :
    AskedSince (if mark then written.questions else []) place after := by
  cases h with
  | leftAlone hskip => exact askedSince_nil_of_adds (refl_of _ place)
  | @withoutCode book _ hdocument hexecutor hoption hcode =>
    have hquestions : (Document.notebook book).questions = [] := if_pos hcode
    rw [if_pos rfl, hquestions]
    exact askedSince_nil_of_adds (hreport .executing place).unasked
  | @executed book _ results _ hdocument hexecutor hoption hcode hasked hresults =>
    obtain ⟨answer, -, rfl⟩ := Option.map_eq_some_iff.1 hexecutor
    rw [run_scripted, Prod.mk.injEq] at hasked
    obtain ⟨-, rfl⟩ := hasked
    -- the answer has been attached, which leaves the code as it was
    have hquestions : (Document.notebook (book.withResults results)).questions
        = [] ++ [book.codeSources] := by
      rw [Document.questions, Notebook.codeSources_withResults, if_neg hcode, List.nil_append]
    rw [if_pos rfl, hquestions]
    exact (askedSince_nil_of_adds (hreport .executing place).unasked).trans (askedSince_noted _ _)

/-- All the code of a document that is marked has been executed. -/
theorem Executes.answered
    (h : Executes executor? report document options place (.ok (written, true)) after) :
    ∃ book results, written = .notebook book ∧ book.Answered results := by
  cases h with
  | @withoutCode book _ hdocument hexecutor hoption hcode =>
    refine ⟨book, [], rfl, ?_, fun i outputs houtputs => by cases houtputs⟩
    rw [Notebook.codeSources_eq_map, List.map_eq_nil_iff] at hcode
    rw [hcode]
    rfl
  | @executed book _ results _ hdocument hexecutor hoption hcode hasked hresults =>
    exact ⟨book.withResults results, results, rfl, Notebook.answered_withResults hresults⟩

/-! ## The mark of an artifact -/

/-- The mark says that a notebook was to be executed and that there was an executor; whether it was
asked is left open. -/
theorem Prepares.mark_iff
    (h : Prepares job hooks executor? report place (.ok (options, written, mark)) after) :
    mark = true ↔ job.target = .notebook ∧ job.options.execute = true ∧ executor? ≠ none := by
  cases h with
  | prepared hstart hread hoptions hweave hexecute =>
    rw [(executes hexecute).mark_iff, Document.exists_notebook_iff hweave, execute_of_completed hoptions]

/-- A document with the mark has been asked for what is to be asked in it, once; without the mark
nobody has been asked. -/
theorem Prepares.askedSince (hreport : ∀ phase, Leads Watched (report phase))
    (h : Prepares job hooks (answer?.map scripted) report place (.ok (options, written, mark)) after) :
    AskedSince (if mark then written.questions else []) place after := by
  cases h with
  | prepared hstart hread hoptions hweave hexecute =>
    subst hstart
    have hbegun : Watched place
        (reported report (.generating job.target) (reported report .reading place)) :=
      trans_of Watched (hreport .reading place) (hreport _ _)
    exact (askedSince_nil_of_adds hbegun.unasked).trans ((executes hexecute).askedSince hreport)

/-- A document with the mark is a notebook whose cells have all been answered. -/
theorem Prepares.answered
    (h : Prepares job hooks executor? report place (.ok (options, written, true)) after) :
    ∃ book results, written = .notebook book ∧ book.Answered results := by
  cases h with
  | prepared hstart hread hoptions hweave hexecute => exact (executes hexecute).answered

/-- What the mark of an artifact has to do with the document that was written and with what has been
asked. -/
structure Marked (job : Job) (answer? : Option (List String → Answer)) (artifact : Artifact)
    (calls : List (List String)) (written : Document) : Prop where
  /-- A notebook is marked if the options ask to execute it and there is an executor. -/
  executed_iff : artifact.executed = true ↔
    job.target = .notebook ∧ job.options.execute = true ∧ answer? ≠ none
  /-- Then its code has been asked for, once, if it has any. -/
  calls_eq : calls = if artifact.executed then written.questions else []
  answered : artifact.executed = true → ∃ book results, written = .notebook book ∧ book.Answered results
  /-- So the mark tells whether somebody has been asked, unless it is on a notebook without code. -/
  truthful_iff : (artifact.executed = true ↔ calls ≠ []) ↔
    (artifact.executed = true → ∃ book, written = .notebook book ∧ book.codeCells ≠ [])

/-- Whatever the files, the job, the hooks and the answers of the executor are: an artifact is marked as
executed if it was to be executed and could be. For an artifact that is marked the executor has been
asked for the code of the notebook that was written, and for nothing if that has no code; for any other
artifact nobody has been asked. -/
theorem executed_of_generate (hreport : ∀ phase, Leads Watched (report phase)) {artifact : Artifact}
    (h : perform (job.generate hooks (answer?.map scripted) report) place = (.ok artifact, after)) :
    ∃ calls written, AskedSince calls place after ∧
      after.tree.read after.current artifact.path = .ok written.fileText.toUTF8 ∧
      job.Marked answer? artifact calls written := by
  cases generates h with
  | @saved options document executed middle last path hprepare hsave =>
    have hdone : Watched last (reported report (.done job.target) last) := hreport _ last
    have hbehind : Adds (·.asked? = none) middle _ := trans_of _ (hreport .writing middle).unasked
      (trans_of _ hsave.unasked hdone.unasked)
    have hasked := (hprepare.askedSince hreport).trans (askedSince_nil_of_adds hbehind)
    rw [List.append_nil] at hasked
    refine ⟨_, document, hasked, ?_, ?_, rfl, ?_, ?_⟩
    · rw [hdone.alike.tree, hdone.alike.current]
      exact hsave.read_of_ok
    · rw [hprepare.mark_iff, Ne, Option.map_eq_none_iff]
    · rintro rfl
      exact hprepare.answered
    · rw [← Document.questions_ne_nil_iff]
      cases executed with
      | false => simp
      | true => simp

/-- A script with one code cell. -/
theorem executed_of_generate_one_cell :
    ∃ (after : Workplace) (written : Document),
      runAt (workshop [("s.jl", .file "#' Prose\nx = 1\n".toUTF8)]) (jobOf "s.jl" .notebook)
          (.ok [[.null]])
        = (.ok { path := ⟨"./a.ipynb"⟩, target := .notebook, executed := true }, after) ∧
      after.history.filterMap Event.asked? = [["x = 1"]] ∧
      after.tree.read after.current ⟨"./a.ipynb"⟩ = .ok written.fileText.toUTF8 ∧
      written.questions = [["x = 1"]] := by
  have hok : (runAt (workshop [("s.jl", .file "#' Prose\nx = 1\n".toUTF8)]) (jobOf "s.jl" .notebook)
      (.ok [[.null]])).1
        = .ok { path := ⟨"./a.ipynb"⟩, target := .notebook, executed := true } := rfl
  have hhistory : (runAt (workshop [("s.jl", .file "#' Prose\nx = 1\n".toUTF8)])
      (jobOf "s.jl" .notebook) (.ok [[.null]])).2.history.filterMap Event.asked? = [["x = 1"]] := rfl
  rcases hrun : runAt (workshop [("s.jl", .file "#' Prose\nx = 1\n".toUTF8)])
    (jobOf "s.jl" .notebook) (.ok [[.null]]) with ⟨result, after⟩
  rw [hrun] at hok hhistory
  change result = _ at hok
  subst hok
  obtain ⟨calls, written, ⟨events, hevents, hcalls⟩, hread, hmarked⟩ :=
    @executed_of_generate _ _ (some fun _ => .ok [[.null]]) _ _ _ watched_note _ hrun
  -- nothing had happened before
  have hcalls' : after.history.filterMap Event.asked? = calls := by
    rw [hevents, hcalls.symm]
    rfl
  refine ⟨after, written, rfl, hhistory, hread, ?_⟩
  calc written.questions = calls := hmarked.calls_eq.symm
    _ = [["x = 1"]] := hcalls'.symm.trans hhistory

/-- An artifact is marked although nobody was asked: its notebook has no code. -/
theorem executed_without_asking :
    (runAt (workshop [("s.jl", .file "#' Prose\n".toUTF8)]) (jobOf "s.jl" .notebook) (.ok [])).1
        = .ok { path := ⟨"./a.ipynb"⟩, target := .notebook, executed := true } ∧
      (runAt (workshop [("s.jl", .file "#' Prose\n".toUTF8)]) (jobOf "s.jl" .notebook)
        (.ok [])).2.history.filterMap Event.asked? = [] :=
  ⟨rfl, rfl⟩

end Job

end Weave
