import Weave.Proofs.Error.Results
import Weave.Proofs.Generation.Effects
import Weave.Proofs.Generation.Execution

/-!
# When an executor is asked

`Job.Asks` says, without running anything, that a generation has to ask for the code of a notebook:
the target is a notebook that is to be executed, the steps before the execution succeed, and what they
make has code. `Consults` tells what has become of the executor when the steps before the writing
have ended, and `Consulted` what has become of it in the end, by the events of the whole generation.
Reports may do nothing but note phases, and an executor notes that it was asked and answers; then
every generation is `Consulted` (`asked_of_generate`).
-/

namespace Weave

open Text Workplace

/-! ## Which notebook is executed -/

namespace Document

/-- A run makes a notebook for the target of notebooks only, and it is the one that the hook after
gives for the rendering of the chunks. -/
theorem weave_eq_ok_notebook_iff {source : String} {target : Target} {options : Options}
    {hooks : Hooks} {book : Notebook} :
    weave source target options hooks = .ok (.notebook book) ↔
      target = .notebook ∧ ∃ text chunks, hooks.before (unifyNewlines source) = .ok text ∧
        Chunk.parse text .notebook = .ok chunks ∧
        hooks.afterNotebook (Notebook.render options chunks) = .ok book := by
  have hfinish : ∀ chunks, finish hooks (render target options chunks) = .ok (.notebook book) ↔
      target = .notebook ∧ hooks.afterNotebook (Notebook.render options chunks) = .ok book := by
    intro chunks
    cases target with
    | notebook => simp [render, finish, Except.mapError_eq_ok_iff, Except.map_eq_ok_iff]
    | markdown => simp [render, finish, Except.mapError_eq_ok_iff, Except.map_eq_ok_iff]
    | script => simp [render, finish, Except.mapError_eq_ok_iff, Except.map_eq_ok_iff]
  simp only [weave_eq, Except.bind_eq_ok_iff, Except.mapError_eq_ok_iff, hfinish]
  constructor
  · rintro ⟨text, hbefore, chunks, hparse, rfl, hafter⟩
    exact ⟨rfl, text, chunks, hbefore, hparse, hafter⟩
  · rintro ⟨rfl, text, chunks, hbefore, hparse, hafter⟩
    exact ⟨text, hbefore, chunks, hparse, rfl, hafter⟩

end Document

namespace Job

/-- The steps before the execution succeed, and this is the notebook that they make. -/
def Weaves (job : Job) (hooks : Hooks) (place : Workplace) (book : Notebook) : Prop :=
  ∃ source options text chunks,
    place.tree.readText place.current job.input = .ok source ∧
    job.completed place.currentDirectory = .ok options ∧
    hooks.before (unifyNewlines source) = .ok text ∧
    Chunk.parse text .notebook = .ok chunks ∧
    hooks.afterNotebook (Notebook.render options chunks) = .ok book

/-- An executor has to be asked for the code of this notebook, if there is one to be asked. -/
structure Asks (job : Job) (hooks : Hooks) (place : Workplace) (book : Notebook) : Prop where
  target : job.target = .notebook
  execute : job.options.execute = true
  weaves : job.Weaves hooks place book
  code : book.codeSources ≠ []

variable {job : Job} {hooks : Hooks} {answer? : Option (List String → Answer)}
  {report : Phase → StateM Workplace Unit} {place start middle after : Workplace} {book : Notebook}

/-- The steps before the execution make one notebook at most. -/
theorem Weaves.eq {book' : Notebook} (h : job.Weaves hooks place book)
    (h' : job.Weaves hooks place book') : book = book' := by
  obtain ⟨source, options, text, chunks, hread, hoptions, hbefore, hparse, hafter⟩ := h
  obtain ⟨source', options', text', chunks', hread', hoptions', hbefore', hparse', hafter'⟩ := h'
  obtain rfl := Except.ok.inj (hread.symm.trans hread')
  obtain rfl := Except.ok.inj (hoptions.symm.trans hoptions')
  obtain rfl := Except.ok.inj (hbefore.symm.trans hbefore')
  obtain rfl := Except.ok.inj (hparse.symm.trans hparse')
  exact Except.ok.inj (hafter.symm.trans hafter')

/-- The steps are those that a generation takes at a workplace with the same files. -/
theorem asks_iff (halike : Alike place start) :
    job.Asks hooks place book ↔
      ∃ source options, start.tree.readText start.current job.input = .ok source ∧
        job.completed start.currentDirectory = .ok options ∧
        Document.weave source job.target options hooks = .ok (.notebook book) ∧
        options.execute = true ∧ book.codeSources ≠ [] := by
  rw [halike.tree, halike.current, halike.currentDirectory_eq]
  simp only [Document.weave_eq_ok_notebook_iff]
  -- completing the options leaves alone whether to execute
  constructor
  · rintro ⟨htarget, hexecute, ⟨source, options, text, chunks, hread, hoptions, hweave⟩, hcode⟩
    rw [← execute_of_completed hoptions] at hexecute
    exact ⟨source, options, hread, hoptions, ⟨htarget, text, chunks, hweave⟩, hexecute, hcode⟩
  · rintro ⟨source, options, hread, hoptions, ⟨htarget, text, chunks, hweave⟩, hexecute, hcode⟩
    rw [execute_of_completed hoptions] at hexecute
    exact ⟨htarget, hexecute, ⟨source, options, text, chunks, hread, hoptions, hweave⟩, hcode⟩

/-- Once a document is there, it and the options tell. -/
theorem asks_iff_of_weave (book : Notebook) {source : String} {options : Options}
    {document : Document} (halike : Alike place start)
    (hread : start.tree.readText start.current job.input = .ok source)
    (hoptions : job.completed start.currentDirectory = .ok options)
    (hweave : Document.weave source job.target options hooks = .ok document) :
    job.Asks hooks place book ↔
      document = .notebook book ∧ options.execute = true ∧ book.codeSources ≠ [] := by
  simp [asks_iff halike, hread, hoptions, hweave]

/-! ## The executor before the writing -/

section Consults

variable (job) (hooks) (answer?)

/-- What has become of the executor when the steps before the writing have ended: it has not been
asked, and nobody had to be; or it has been asked once, behind nothing but reports, and its answer
did not fit or has been attached. -/
inductive Consults (place : Workplace) :
    Except Error (Options × Document × Bool) → Workplace → Prop
  | notAsked {result : Except Error (Options × Document × Bool)} {after : Workplace}
      (hwatched : Watched place after)
      (hnone : answer? ≠ none → ∀ book, ¬ job.Asks hooks place book) :
      Consults place result after
  | notFitting {answer : List String → Answer} {book : Notebook} {middle : Workplace} {e : Error}
      (hanswer : answer? = some answer) (hasks : job.Asks hooks place book)
      (hwatched : Watched place middle) (hfits : ¬ Notebook.Fits book (answer book.codeSources)) :
      Consults place (.error e) (middle.noted (.asked book.codeSources))
  | attached {answer : List String → Answer} {book : Notebook} {middle : Workplace}
      {results : List (List Json)} {options : Options} (hanswer : answer? = some answer)
      (hasks : job.Asks hooks place book) (hwatched : Watched place middle)
      (hresults : answer book.codeSources = .ok results)
      (hlength : results.length = book.codeSources.length) :
      Consults place (.ok (options, .notebook (book.withResults results), true))
        (middle.noted (.asked book.codeSources))

end Consults

/-- Before the writing one of the three has come about. -/
theorem Prepares.consults (hreport : ∀ phase, Leads Watched (report phase))
    {result : Except Error (Options × Document × Bool)}
    (h : Prepares job hooks (answer?.map scripted) report place result after) :
    Consults job hooks answer? place result after := by
  have hstart : Watched place (reported report .reading place) := hreport .reading place
  have hgenerating : Watched place
      (reported report (.generating job.target) (reported report .reading place)) :=
    trans_of Watched hstart (hreport _ _)
  have hexecuting : Watched place (reported report .executing
      (reported report (.generating job.target) (reported report .reading place))) :=
    trans_of Watched hgenerating (hreport _ _)
  cases h with
  | notRead heq hread =>
    subst heq
    refine .notAsked hstart fun _ book hasks => ?_
    simp [asks_iff hstart.alike, hread] at hasks
  | notCompleted heq hread hoptions =>
    subst heq
    refine .notAsked hstart fun _ book hasks => ?_
    simp [asks_iff hstart.alike, hoptions] at hasks
  | notWoven heq hread hoptions hweave =>
    subst heq
    refine .notAsked hgenerating fun _ book hasks => ?_
    simp [asks_iff hstart.alike, hread, hoptions, hweave] at hasks
  | notExecuted heq hread hoptions hweave hexecute =>
    subst heq
    have hasks (book : Notebook) := asks_iff_of_weave book hstart.alike hread hoptions hweave
    cases executes hexecute with
    | refused hdocument hexecutor hoption hcode hasked hsettle =>
      obtain ⟨answer, rfl, rfl⟩ := Option.map_eq_some_iff.1 hexecutor
      cases hasked
      refine .notFitting rfl ((hasks _).2 ⟨hdocument, hoption, hcode⟩) hexecuting ?_
      rw [← Notebook.fst_settle_eq_ok_iff, hsettle]
      simp
  | prepared heq hread hoptions hweave hexecute =>
    subst heq
    have hasks (book : Notebook) := asks_iff_of_weave book hstart.alike hread hoptions hweave
    cases executes hexecute with
    | leftAlone hskip =>
      -- where somebody could have been asked for a notebook, the options did not ask for it
      refine .notAsked hgenerating fun hanswer book hbook => ?_
      obtain ⟨answer, rfl⟩ := Option.ne_none_iff_exists'.1 hanswer
      obtain ⟨hdocument, hoption, -⟩ := (hasks book).1 hbook
      rw [hskip book (scripted answer) hdocument rfl] at hoption
      cases hoption
    | withoutCode hdocument hexecutor hoption hcode =>
      refine .notAsked hexecuting fun _ book hbook => ?_
      obtain ⟨hdocument', -, hcode'⟩ := (hasks book).1 hbook
      obtain rfl := Document.notebook.inj (hdocument.symm.trans hdocument')
      exact hcode' hcode
    | executed hdocument hexecutor hoption hcode hasked hresults =>
      obtain ⟨answer, rfl, rfl⟩ := Option.map_eq_some_iff.1 hexecutor
      rw [run_scripted, Prod.mk.injEq] at hasked
      obtain ⟨hanswer, rfl⟩ := hasked
      exact .attached rfl ((hasks _).2 ⟨hdocument, hoption, hcode⟩) hexecuting hanswer hresults

/-! ## The executor in a whole generation -/

section Consulted

variable (job) (hooks) (answer?)

/-- What a generation that has added these events has done with the executor. -/
structure Consulted (place : Workplace) (result : Except Error Artifact) (after : Workplace)
    (events : List Event) : Prop where
  history : after.history = place.history ++ events
  once : (events.filterMap Event.asked?).length ≤ 1
  /-- It is asked for the code of the notebook that the steps before make. -/
  asked_iff : ∀ sources, .asked sources ∈ events ↔
    answer? ≠ none ∧ ∃ book, job.Asks hooks place book ∧ book.codeSources = sources
  /-- Until then nothing has happened but reports. -/
  before : ∀ before sources behind, events = before ++ .asked sources :: behind →
    ∀ event ∈ before, event.IsPhase
  /-- Its error, or an answer for another number of cells, leaves the files alone. -/
  notFitting : ∀ sources answer, .asked sources ∈ events → answer? = some answer →
    (∀ results, answer sources = .ok results → results.length ≠ sources.length) →
      (∃ e, result = .error e) ∧ after.tree = place.tree ∧ ∀ event ∈ events, ¬ event.IsChange
  /-- The notebook that is written is the one that the steps before make, with the answer: it has the
  code that was asked for, and its cells have their outputs and counts. -/
  attached : ∀ sources answer artifact, .asked sources ∈ events → answer? = some answer →
    result = .ok artifact →
      ∃ (book : Notebook) (results : List (List Json)), job.Asks hooks place book ∧
        book.codeSources = sources ∧ answer sources = .ok results ∧
        after.tree.read after.current artifact.path
          = .ok (book.withResults results).write.toUTF8 ∧
        (book.withResults results).codeSources = sources ∧
        (book.withResults results).Answered results

end Consulted

/-- If nobody is asked and nobody had to be, all that is said of questions holds. -/
theorem exists_consulted_of_unasked {result : Except Error Artifact}
    (hadds : Adds (·.asked? = none) place after)
    (hnone : answer? ≠ none → ∀ book, ¬ job.Asks hooks place book) :
    ∃ events, Consulted job hooks answer? place result after events := by
  obtain ⟨events, hhistory, hevents⟩ := hadds
  have hunasked : ∀ sources, Event.asked sources ∉ events := by
    intro sources hmem
    cases hevents _ hmem
  refine ⟨events, hhistory, ?_, ?_, ?_, ?_, ?_⟩
  · rw [List.filterMap_eq_nil_iff.2 hevents]
    exact Nat.zero_le 1
  · intro sources
    constructor
    · intro hmem
      exact absurd hmem (hunasked sources)
    · rintro ⟨hanswer, book, hasks, -⟩
      exact absurd hasks (hnone hanswer book)
  · intro before sources behind heq
    exact absurd (by simp [heq]) (hunasked sources)
  · intro sources answer hmem
    exact absurd hmem (hunasked sources)
  · intro sources answer artifact hmem
    exact absurd hmem (hunasked sources)

/-- One question behind nothing but reports is what there has to be, if the notebook has code. -/
theorem exists_consulted_of_asked {answer : List String → Answer} {result : Except Error Artifact}
    (hasks : job.Asks hooks place book) (hwatched : Watched place middle)
    (hadds : Adds (·.asked? = none) (middle.noted (.asked book.codeSources)) after)
    (hnotFitting : ¬ Notebook.Fits book (answer book.codeSources) →
      (∃ e, result = .error e) ∧ after = middle.noted (.asked book.codeSources))
    (hattached : ∀ artifact, result = .ok artifact → ∃ results,
      answer book.codeSources = .ok results ∧ results.length = book.codeSources.length ∧
        after.tree.read after.current artifact.path
          = .ok (book.withResults results).write.toUTF8) :
    ∃ events, Consulted job hooks (some answer) place result after events := by
  -- the question cuts the history: reports stand before it, and no other question behind it
  obtain ⟨phases, hphases, hphase⟩ := hwatched.phases
  obtain ⟨behind, hbehind, hunasked⟩ := hadds
  have hquiet : ∀ event ∈ phases, event.asked? = none := fun event hmem =>
    (hphase event hmem).asked?_eq_none
  have hasked : (phases ++ .asked book.codeSources :: behind).filterMap Event.asked?
      = [book.codeSources] :=
    Event.filterMap_asked?_of_asked hquiet hunasked book.codeSources
  have hmem_iff (sources : List String) :
      Event.asked sources ∈ phases ++ .asked book.codeSources :: behind ↔
        sources = book.codeSources := by
    rw [Event.asked_mem_iff, hasked, List.mem_singleton]
  refine ⟨phases ++ .asked book.codeSources :: behind, ?_, ?_, ?_, ?_, ?_, ?_⟩
  · rw [hbehind, noted, hphases]
    simp
  · rw [hasked]
    exact Nat.le_refl 1
  · intro sources
    rw [hmem_iff]
    constructor
    · rintro rfl
      exact ⟨Option.some_ne_none answer, book, hasks, rfl⟩
    · rintro ⟨-, book', hasks', rfl⟩
      rw [hasks'.weaves.eq hasks.weaves]
  · intro before sources behind' heq
    rw [← (Event.eq_of_append_asked hquiet hunasked heq).1]
    exact hphase
  · intro sources answer' hmem hanswer hfits
    obtain rfl := (hmem_iff sources).1 hmem
    obtain rfl := Option.some.inj hanswer
    obtain ⟨hresult, rfl⟩ := hnotFitting fun ⟨results, hresults, hlength⟩ =>
      hfits results hresults hlength
    refine ⟨hresult, hwatched.alike.tree, ?_⟩
    -- nothing has happened behind the question
    obtain rfl : behind = [] := List.self_eq_append_right.1 hbehind
    intro event hevent
    rcases List.mem_append.1 hevent with hevent | hevent
    · exact (hphase event hevent).not_isChange
    · rintro ⟨tree, rfl⟩
      cases List.mem_singleton.1 hevent
  · intro sources answer' artifact hmem hanswer hok
    obtain rfl := (hmem_iff sources).1 hmem
    obtain rfl := Option.some.inj hanswer
    obtain ⟨results, hresults, hlength, hread⟩ := hattached artifact hok
    exact ⟨book, results, hasks, rfl, hresults, hread, Notebook.codeSources_withResults,
      Notebook.answered_withResults hlength⟩

/-- A generation that goes on to save a document asks nobody any more. -/
theorem Consults.exists_consulted {prepared : Options × Document × Bool}
    {result : Except Error Artifact}
    (h : Consults job hooks answer? place (.ok prepared) middle)
    (hadds : Adds (·.asked? = none) middle after)
    (hwritten : ∀ artifact, result = .ok artifact →
      after.tree.read after.current artifact.path = .ok prepared.2.1.fileText.toUTF8) :
    ∃ events, Consulted job hooks answer? place result after events := by
  cases h with
  | notAsked hwatched hnone =>
    exact exists_consulted_of_unasked (trans_of _ hwatched.unasked hadds) hnone
  | attached hanswer hasks hwatched hresults hlength =>
    subst hanswer
    refine exists_consulted_of_asked hasks hwatched hadds ?_ ?_
    · intro hfits
      exact absurd ⟨_, hresults, hlength⟩ hfits
    · intro artifact hok
      exact ⟨_, hresults, hlength, hwritten artifact hok⟩

/-- Whatever the files, the job, the hooks and the answers of the executor are: a generation asks at
most once, and it asks just if the target is a notebook that is to be executed, all steps before the
execution have succeeded and their notebook has code; until then it has changed no file. If the answer
does not fit, nothing is written at all. If the generation succeeds, then the notebook that it has
written is this one with the outputs that were answered, and has the code that was asked for. -/
theorem asked_of_generate (hreport : ∀ phase, Leads Watched (report phase))
    {result : Except Error Artifact}
    (h : perform (job.generate hooks (answer?.map scripted) report) place = (result, after)) :
    ∃ events, Consulted job hooks answer? place result after events := by
  cases generates h with
  | notPrepared hprepare =>
    cases hprepare.consults hreport with
    | notAsked hwatched hnone => exact exists_consulted_of_unasked hwatched.unasked hnone
    | notFitting hanswer hasks hwatched hfits =>
      subst hanswer
      refine exists_consulted_of_asked hasks hwatched (refl_of _ _) (fun _ => ⟨⟨_, rfl⟩, rfl⟩) ?_
      intro artifact hok
      cases hok
  | @notSaved _ _ _ middle _ _ hprepare hsave =>
    have hadds := trans_of _ (hreport .writing middle).unasked hsave.unasked
    refine (hprepare.consults hreport).exists_consulted hadds ?_
    intro artifact hok
    cases hok
  | @saved _ _ _ middle last path hprepare hsave =>
    have hdone : Watched last _ := hreport (.done job.target) last
    have hadds := trans_of _ (hreport .writing middle).unasked
      (trans_of _ hsave.unasked hdone.unasked)
    refine (hprepare.consults hreport).exists_consulted hadds ?_
    intro artifact hok
    obtain rfl := Except.ok.inj hok
    have hread := hsave.read_of_ok
    rw [← hdone.alike.tree, ← hdone.alike.current] at hread
    exact hread

/-- A script with one code cell, and an executor that answers for one cell. -/
theorem asked_of_generate_one_cell :
    ∃ (after : Workplace) (book : Notebook),
      runAt (workshop [("s.jl", .file "#' Prose\nx = 1\n".toUTF8)]) (jobOf "s.jl" .notebook)
          (.ok [[.null]])
        = (.ok { path := ⟨"./a.ipynb"⟩, target := .notebook, executed := true }, after) ∧
      Event.asked ["x = 1"] ∈ after.history ∧
      after.tree.read after.current ⟨"./a.ipynb"⟩
        = .ok (book.withResults [[.null]]).write.toUTF8 ∧
      (book.withResults [[.null]]).codeSources = ["x = 1"] ∧
      (book.withResults [[.null]]).Answered [[.null]] := by
  have hok : (runAt (workshop [("s.jl", .file "#' Prose\nx = 1\n".toUTF8)]) (jobOf "s.jl" .notebook)
      (.ok [[.null]])).1
        = .ok { path := ⟨"./a.ipynb"⟩, target := .notebook, executed := true } := rfl
  have hweaves : ∃ book, (jobOf "s.jl" .notebook).Weaves {}
      (workshop [("s.jl", .file "#' Prose\nx = 1\n".toUTF8)]) book ∧ book.codeSources = ["x = 1"] :=
    ⟨_, ⟨_, _, _, _, rfl, rfl, rfl, rfl, rfl⟩, rfl⟩
  obtain ⟨book, hbook, hsources⟩ := hweaves
  rcases hrun : runAt (workshop [("s.jl", .file "#' Prose\nx = 1\n".toUTF8)])
    (jobOf "s.jl" .notebook) (.ok [[.null]]) with ⟨result, after⟩
  rw [hrun] at hok
  have hevents : ∃ events, Consulted (jobOf "s.jl" .notebook) {} (some fun _ => .ok [[.null]])
      (workshop [("s.jl", .file "#' Prose\nx = 1\n".toUTF8)]) result after events :=
    asked_of_generate watched_note hrun
  obtain ⟨events, hevents⟩ := hevents
  have hasked : Event.asked ["x = 1"] ∈ events :=
    (hevents.asked_iff _).2 ⟨Option.some_ne_none _, book, ⟨rfl, rfl, hbook, by simp [hsources]⟩,
      hsources⟩
  obtain ⟨book, results, -, -, hresults, hread, hwritten⟩ :=
    hevents.attached _ _ _ hasked rfl hok
  cases hresults
  refine ⟨after, book, Prod.ext hok rfl, ?_, hread, hwritten⟩
  rw [hevents.history]
  exact List.mem_append_right _ hasked

end Job

end Weave
