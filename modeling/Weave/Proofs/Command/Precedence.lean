import Weave.Proofs.Command.Outcomes
import Weave.Proofs.CommandLine.Fitting
import Weave.Proofs.Generation.Effects
import Weave.Proofs.Toml.Documents

/-!
# The command line before the settings

What a generating command does is what its command line says, and where this says nothing what the
settings in effect say (`Job.Heeds`). A command line that is read for a target comes to one request
(`exists_request`), and this to one job, which is then generated; settings that cannot be had are an
error before anything has happened (`run_heeds`).
-/

namespace Weave

open CommandLine Workplace

/-! ## What is found in a command line for a target -/

namespace Command

/-- The grammar of the command that generates the artifact for a target. -/
def targetGrammar (settingsVariable? : Option String) (target : Target) : Grammar :=
  .mk (generateOptions ++ targetOptions target ++ commonOptions settingsVariable?)
    generatePositionals []

/-- The command of a target goes by the name of the target. -/
theorem command?_grammar (settingsVariable? : Option String) (target : Target) :
    (grammar settingsVariable?).command? target.name
      = some (targetGrammar settingsVariable? target) := by
  cases target <;> rfl

/-- The arguments of the command without a name, and how they are given. -/
def outerTable : List (String × Use) :=
  [("log-format", .single), ("verbose", .counter), ("config", .single), ("help", .display),
    ("version", .display)]

/-- The arguments of the command for a target, and how they are given. -/
def targetTable (target : Target) : List (String × Use) :=
  [("name", .single), ("replace", .repeated 1)] ++
    (match target with
    | .markdown => [("no-documenter", .flag), ("codefence", .repeated 2)]
    | .notebook => [("no-documenter", .flag), ("no-execute", .flag)]
    | .script => []) ++
    [("log-format", .single), ("verbose", .counter), ("config", .single), ("help", .display),
      ("input", .single), ("output_dir", .single)]

theorem table_grammar (settingsVariable? : Option String) :
    Argument.table (grammar settingsVariable?).arguments = outerTable := rfl

theorem table_targetGrammar (settingsVariable? : Option String) (target : Target) :
    Argument.table (targetGrammar settingsVariable? target).arguments = targetTable target := by
  cases target <;> rfl

/-- What is known of everything that is found in a command line for a target. -/
structure Found (target : Target) (found : Matches) : Prop where
  input : ∃ value, found.all "input" = [[value]]
  outputDir : found.all "output_dir" = [] ∨ ∃ value, found.all "output_dir" = [[value]]
  name : found.all "name" = [] ∨ ∃ value, found.all "name" = [[value]]
  noDocumenter : found.all "no-documenter" ≠ [] → target ≠ .script
  noExecute : found.all "no-execute" ≠ [] → target = .notebook
  fence : found.all "codefence" ≠ [] → target = .markdown
  pairs : ∀ values ∈ found.all "codefence", values.length = 2

section Found

variable {settingsVariable? : Option String} {words : List String} {found : Matches}
  {target : Target} {name : String}

/-- A command line for a target has two levels, of which one is that of all commands. -/
theorem exists_levels (hread : CommandLine.read (grammar settingsVariable?) words = .ok found)
    (hcommand : found.commands = [target.name]) :
    ∃ outer inner, found.levels = [outer, inner] ∧
      Given.Completes (grammar settingsVariable?) outer ∧
      Given.Completes (targetGrammar settingsVariable? target) inner := by
  cases fits_of_read hread with
  | innermost => cases hcommand
  | @outer _ inner outer name below houter hinner hname hbelow =>
    obtain ⟨rfl, hcommands⟩ := List.cons_eq_cons.1 hcommand
    rw [command?_grammar, Option.some_inj] at hinner
    subst hinner
    cases hbelow with
    | innermost hgiven => exact ⟨outer, _, rfl, houter, hgiven⟩
    | outer => cases hcommands

/-- What is found in a command line for a target, by the grammar of its command. -/
theorem found_of_read (hread : CommandLine.read (grammar settingsVariable?) words = .ok found)
    (hcommand : found.commands = [target.name]) : Found target found := by
  obtain ⟨outer, inner, hlevels, houter, hinner⟩ := exists_levels hread hcommand
  have hfits := hinner.fits
  -- all that counts here is given behind the name of the target
  have hall {name : String} (hname : ∀ entry ∈ outerTable, entry.1 ≠ name) :
      found.all name = inner.valuesOf name := by
    have hnone : outer.valuesOf name = [] :=
      houter.fits.valuesOf_eq_nil (by rwa [table_grammar])
    rw [Matches.all_eq_flatMap, hlevels, List.flatMap_cons, hnone, List.flatMap_singleton,
      List.nil_append]
  have hsingle {name : String} (hname : ∀ entry ∈ outerTable, entry.1 ≠ name)
      (huse : ∀ entry ∈ targetTable target, entry.1 = name → entry.2 = .single) :
      found.all name = [] ∨ ∃ value, found.all name = [[value]] := by
    rw [hall hname]
    exact hfits.valuesOf_of_single (by rwa [table_targetGrammar])
  have hnone {name : String} (hname : ∀ entry ∈ outerTable, entry.1 ≠ name)
      (hnot : ∀ entry ∈ targetTable target, entry.1 ≠ name) : found.all name = [] := by
    rw [hall hname]
    exact hfits.valuesOf_eq_nil (by rwa [table_targetGrammar])
  constructor
  · have hinput : found.all "input" = inner.valuesOf "input" := hall (by decide)
    have hgiven : inner.valuesOf "input" ≠ [] :=
      hinner.required { name := "input", use := .single, accept := acceptPath, required := true }
        (List.mem_cons_self ..) rfl
    exact (hsingle (by decide) (by cases target <;> decide)).resolve_left (hinput ▸ hgiven)
  · exact hsingle (by decide) (by cases target <;> decide)
  · exact hsingle (by decide) (by cases target <;> decide)
  · rintro hgiven rfl
    exact hgiven (hnone (by decide) (by decide))
  · intro hgiven
    cases target with
    | notebook => rfl
    | markdown => exact absurd (hnone (by decide) (by decide)) hgiven
    | script => exact absurd (hnone (by decide) (by decide)) hgiven
  · intro hgiven
    cases target with
    | markdown => rfl
    | notebook => exact absurd (hnone (by decide) (by decide)) hgiven
    | script => exact absurd (hnone (by decide) (by decide)) hgiven
  · intro values hvalues
    rw [hall (by decide)] at hvalues
    have huse : ∀ entry ∈ targetTable target, entry.1 = "codefence" → entry.2 = .repeated 2 := by
      cases target <;> decide
    exact hfits.length_of_mem_valuesOf (by rwa [table_targetGrammar]) hvalues

end Found

/-- What a command line asks for, word by word. -/
structure Asks (target : Target) (found : Matches) (request : GenerateRequest) : Prop where
  target : request.target = target
  input : found.value? "input" = some request.input.text
  outputDir : request.outputDir? = (found.value? "output_dir").map Path.mk
  name : request.name? = found.value? "name"
  noDocumenter : request.noDocumenter = found.has "no-documenter"
  noExecute : request.noExecute = found.has "no-execute"
  fence : request.fence = (found.all "codefence").flatten

/-- A command line for a target asks for a generation. -/
theorem exists_asks {found : Matches} {target : Target} (h : Found target found)
    (hcommand : found.commands = [target.name]) :
    ∃ request, ofMatches? found = some (.generate request) ∧ Asks target found request := by
  obtain ⟨input, hinput⟩ := h.input
  have hvalue := Matches.value?_of_all_single hinput
  obtain ⟨request, hrequest⟩ : ∃ request, generateRequest? target found = some request := by
    unfold generateRequest?
    rw [hvalue]
    exact ⟨_, rfl⟩
  refine ⟨request, ?_, ?_⟩
  · unfold ofMatches?
    rw [hcommand]
    have hgenerate : (generateRequest? target found >>= fun request => some (generate request))
        = some (.generate request) := by
      rw [hrequest]
      rfl
    cases target <;> exact hgenerate
  · unfold generateRequest? at hrequest
    rw [hvalue] at hrequest
    cases hrequest
    exact ⟨rfl, hvalue, rfl, rfl, rfl, rfl, rfl⟩

end Command

/-! ## What a job heeds -/

/-- A job is what the command line says, and the settings where it says nothing. -/
structure Job.Heeds (job : Job) (found : Matches) (settings : Settings) : Prop where
  input : found.all "input" = [[job.input.text]]
  outputDir : found.all "output_dir" = [[job.outputDir.text]] ∨
    found.all "output_dir" = [] ∧ settings.outputDir = job.outputDir.text
  name : found.all "name" = [[job.options.name]] ∨
    found.all "name" = [] ∧ job.input.stem? = some job.options.name
  documenter : job.options.documenter =
    if found.has "no-documenter" then false else settings.documenter
  execute : job.options.execute = if found.has "no-execute" then false else settings.execute
  fence : (∃ fence, found.all "codefence" = [[fence.opening, fence.closing]] ∧
      job.options.fence? = some fence) ∨
    found.all "codefence" = [] ∧ job.options.fence? = settings.fence?
  language : job.options.language = settings.language
  kernelName : job.options.kernelName = settings.kernelName
  kernelDisplayName : job.options.kernelDisplayName = settings.kernelDisplayName
  fileExtension : job.options.fileExtension = settings.fileExtension
  editUrl? : job.options.editUrl? = none

/-- A path gives a name exactly if it has a stem. -/
theorem Path.artifactName_eq_ok_iff {path : Path} {name : String} :
    path.artifactName = .ok name ↔ path.stem? = some name := by
  unfold Path.artifactName
  cases path.stem? <;> simp

namespace GenerateRequest

variable {request : GenerateRequest} {found : Matches} {target : Target}

/-- The fence is not given, or it is given once, or the request is refused. -/
theorem fencePair_of_pairs {given : List (List String)} (hpairs : ∀ values ∈ given, values.length = 2)
    (hfence : request.fence = given.flatten) :
    (given = [] ∧ request.fencePair = .ok none) ∨
      (∃ fence : Fence, given = [[fence.opening, fence.closing]] ∧
        request.fencePair = .ok (some fence)) ∨
      1 < given.length ∧ request.fencePair = .error .fenceNotPair := by
  unfold fencePair
  rw [hfence]
  match given with
  | [] => exact Or.inl ⟨rfl, rfl⟩
  | [values] =>
    obtain ⟨opening, closing, rfl⟩ := List.length_eq_two.1 (hpairs values (List.mem_cons_self ..))
    exact Or.inr (Or.inl ⟨⟨opening, closing⟩, rfl, rfl⟩)
  | values :: values' :: more =>
    obtain ⟨opening, closing, rfl⟩ := List.length_eq_two.1 (hpairs values (List.mem_cons_self ..))
    obtain ⟨opening', closing', rfl⟩ := List.length_eq_two.1 (hpairs values' (by simp))
    exact Or.inr (Or.inr ⟨by simp, rfl⟩)

/-- The name of the artifact is the one that is given, or else the stem of the input. -/
theorem artifactName_eq_ok_iff (hfound : Command.Found target found)
    (hasks : Command.Asks target found request) {name : String} :
    request.artifactName = .ok name ↔
      found.all "name" = [[name]] ∨
        found.all "name" = [] ∧ request.input.stem? = some name := by
  unfold artifactName
  rw [hasks.name]
  obtain hnone | ⟨value, hvalue⟩ := hfound.name
  · rw [Matches.value?_of_all_nil hnone, hnone]
    simpa using Path.artifactName_eq_ok_iff
  · rw [Matches.value?_of_all_single hvalue, hvalue]
    simp

/-- The output directory is the one that is given, or else that of the settings. -/
theorem text_directory (hfound : Command.Found target found)
    (hasks : Command.Asks target found request) (settings : Settings) {text : String} :
    (request.directory settings).text = text ↔
      found.all "output_dir" = [[text]] ∨
        found.all "output_dir" = [] ∧ settings.outputDir = text := by
  unfold directory
  rw [hasks.outputDir]
  obtain hnone | ⟨value, hvalue⟩ := hfound.outputDir
  · rw [Matches.value?_of_all_nil hnone, hnone]
    simp
  · rw [Matches.value?_of_all_single hvalue, hvalue]
    simp

/-- The fence is the pair that is given, or else that of the settings. -/
theorem fence?_options_iff (hfound : Command.Found target found)
    (hasks : Command.Asks target found request) (settings : Settings) {effective? : Option Fence} :
    (∃ fence?, request.fencePair = .ok fence? ∧ effective? = fence?.or settings.fence?) ↔
      (∃ fence, found.all "codefence" = [[fence.opening, fence.closing]] ∧
        effective? = some fence) ∨
      found.all "codefence" = [] ∧ effective? = settings.fence? := by
  obtain ⟨hnone, hpair⟩ | ⟨fence, hgiven, hpair⟩ | ⟨htwice, hpair⟩ :=
    fencePair_of_pairs hfound.pairs hasks.fence
  · rw [hnone, hpair]
    simp
  · rw [hgiven, hpair]
    obtain ⟨opening, closing⟩ := fence
    constructor
    · rintro ⟨fence?, heq, heffective⟩
      cases heq
      exact Or.inl ⟨_, rfl, heffective⟩
    · rintro (⟨⟨opening', closing'⟩, heq, heffective⟩ | ⟨heq, -⟩)
      · cases heq
        exact ⟨_, rfl, heffective⟩
      · cases heq
  · rw [hpair]
    constructor
    · rintro ⟨fence?, heq, -⟩
      cases heq
    · rintro (⟨fence, heq, -⟩ | ⟨heq, -⟩)
      · rw [heq] at htwice
        exact absurd htwice (Nat.lt_irrefl 1)
      · rw [heq] at htwice
        exact absurd htwice (Nat.not_lt_zero 1)

/-- A flag can turn the pages for Documenter off, and nothing but the settings turns them on. -/
theorem documenter_options (hasks : Command.Asks target found request) (settings : Settings)
    (name : String) (fence? : Option Fence) :
    (request.options settings name fence?).documenter
      = if found.has "no-documenter" then false else settings.documenter := by
  show (settings.documenter && !request.noDocumenter) = _
  rw [hasks.noDocumenter]
  cases found.has "no-documenter" <;> simp

/-- A flag can turn the execution off, and nothing but the settings turns it on. -/
theorem execute_options (hasks : Command.Asks target found request) (settings : Settings)
    (name : String) (fence? : Option Fence) :
    (request.options settings name fence?).execute
      = if found.has "no-execute" then false else settings.execute := by
  show (settings.execute && !request.noExecute) = _
  rw [hasks.noExecute]
  cases found.has "no-execute" <;> simp

/-- The input is given once, and it is the one that is asked for. -/
theorem all_input (hfound : Command.Found target found)
    (hasks : Command.Asks target found request) : found.all "input" = [[request.input.text]] := by
  obtain ⟨value, hvalue⟩ := hfound.input
  have htext := hasks.input
  rw [Matches.value?_of_all_single hvalue, Option.some_inj] at htext
  rw [hvalue, htext]

/-- The job of a request is the one that heeds the command line and the settings. -/
theorem heeds_iff (hfound : Command.Found target found) (hasks : Command.Asks target found request)
    {job : Job} {settings : Settings} :
    job.target = target ∧ job.Heeds found settings ↔
      ∃ fence? name, request.fencePair = .ok fence? ∧ request.artifactName = .ok name ∧
        job = request.job settings name fence? := by
  constructor
  · rintro ⟨htarget, h⟩
    obtain ⟨fence?, hpair, hfence⟩ := (fence?_options_iff hfound hasks settings).2 h.fence
    -- a job heeds what it is asked for field by field, and no field is left over
    have hinput : job.input = request.input := by
      have htext := (all_input hfound hasks).symm.trans h.input
      rw [List.singleton_inj, List.singleton_inj] at htext
      exact congrArg Path.mk htext.symm
    have hname : request.artifactName = .ok job.options.name :=
      (artifactName_eq_ok_iff hfound hasks).2 (hinput ▸ h.name)
    have hdirectory : job.outputDir = request.directory settings :=
      congrArg Path.mk ((text_directory hfound hasks settings).2 h.outputDir).symm
    have hoptions : job.options = request.options settings job.options.name fence? :=
      calc job.options = ⟨job.options.name, job.options.documenter, job.options.fence?,
            job.options.language, job.options.execute, job.options.editUrl?,
            job.options.kernelName, job.options.kernelDisplayName, job.options.fileExtension⟩ := rfl
        _ = request.options settings job.options.name fence? := by
          rw [h.documenter, h.execute, hfence, h.language, h.kernelName, h.kernelDisplayName,
            h.fileExtension, h.editUrl?, ← documenter_options hasks settings job.options.name fence?,
            ← execute_options hasks settings job.options.name fence?]
          rfl
    refine ⟨fence?, job.options.name, hpair, hname, ?_⟩
    calc job = ⟨job.input, job.outputDir, job.target, job.options⟩ := rfl
      _ = request.job settings job.options.name fence? := by
        rw [hinput, hdirectory, htarget, ← hasks.target]
        exact congrArg (Job.mk request.input (request.directory settings) request.target) hoptions
  · rintro ⟨fence?, name, hpair, hname, rfl⟩
    exact ⟨hasks.target, {
      input := all_input hfound hasks
      outputDir := (text_directory hfound hasks settings).1 rfl
      name := (artifactName_eq_ok_iff hfound hasks).1 hname
      documenter := documenter_options hasks settings name fence?
      execute := execute_options hasks settings name fence?
      fence := (fence?_options_iff hfound hasks settings).1 ⟨fence?, hpair, rfl⟩
      language := rfl
      kernelName := rfl
      kernelDisplayName := rfl
      fileExtension := rfl
      editUrl? := rfl }⟩

end GenerateRequest

/-- An invocation to generate does what its request does. -/
theorem Invocation.perform_run_generate {request : GenerateRequest} {explicit? : Option Path}
    {home : Path} {report : Phase → StateM Workplace Unit} {place after : Workplace}
    {result : Except Failure Artifact}
    (h : perform (request.run home explicit? report) place = (result, after)) :
    perform (Invocation.run ⟨explicit?, .generate request⟩ home report) place
      = (result.map .generated, after) := by
  unfold Invocation.run
  cases result with
  | error failure => exact perform_bind_of_error h
  | ok artifact => exact perform_bind_of_ok h

theorem Invocation.perform_run_generate_eq_ok_iff {request : GenerateRequest}
    {explicit? : Option Path} {home : Path} {report : Phase → StateM Workplace Unit}
    {place after : Workplace} {done : Report} :
    perform (Invocation.run ⟨explicit?, .generate request⟩ home report) place = (.ok done, after) ↔
      ∃ artifact, perform (request.run home explicit? report) place = (.ok artifact, after) ∧
        done = .generated artifact := by
  rcases hrun : perform (request.run home explicit? report) place with ⟨result, last⟩
  rw [perform_run_generate hrun, Prod.mk.injEq, Except.map_eq_ok_iff]
  constructor
  · rintro ⟨⟨artifact, rfl, rfl⟩, rfl⟩
    exact ⟨artifact, rfl, rfl⟩
  · rintro ⟨artifact, heq, rfl⟩
    cases heq
    exact ⟨⟨artifact, rfl, rfl⟩, rfl⟩

/-- What a command line for a target comes to. It is read as one request. Settings that cannot be had,
from the file that it names or from the first one that is there, end the command before anything has
happened. Otherwise the command gives what the one job gives that heeds the command line and these
settings. -/
theorem Invocation.run_heeds {words : List String} {settingsVariable? : Option String}
    {found : Matches} {target : Target}
    (hread : CommandLine.read (Command.grammar settingsVariable?) words = .ok found)
    (hcommand : found.commands = [target.name]) :
    Command.Found target found ∧ ∃ explicit? request,
      explicit? = ((found.value? "config").or settingsVariable?).map Path.mk ∧
      Invocation.read words settingsVariable? = .ok ⟨explicit?, .generate request⟩ ∧
      ∀ (home : Path) (report : Phase → StateM Workplace Unit) (place : Workplace),
        (∀ fault, Settings.inEffect place home explicit? = .error fault →
          perform (Invocation.run ⟨explicit?, .generate request⟩ home report) place
            = (.error (if 1 < (found.all "codefence").length then .fenceNotPair
                else .error ⟨fault, none⟩), place)) ∧
        ∀ done after,
          perform (Invocation.run ⟨explicit?, .generate request⟩ home report) place
              = (.ok done, after) ↔
            ∃ (settings : Settings) (job : Job) (executor? : Option (Executor (StateM Workplace)))
              (start : Workplace) (artifact : Artifact),
              Settings.inEffect place home explicit? = .ok settings ∧
              (job.target = target ∧ job.Heeds found settings) ∧
              GenerateRequest.Equips target job.options settings job.outputDir place executor? start ∧
              perform (job.generate request.hooks executor? report) start = (.ok artifact, after) ∧
              done = .generated artifact := by
  have hfound := Command.found_of_read hread hcommand
  obtain ⟨request, hrequest, hasks⟩ := Command.exists_asks hfound hcommand
  refine ⟨hfound, _, request, rfl, ?_, fun home report place => ⟨?_, ?_⟩⟩
  · unfold Invocation.read
    rw [hread, Except.bind_eq_ok_iff]
    refine ⟨found, rfl, ?_⟩
    simp only [hrequest]
    rfl
  · intro fault hload
    rw [perform_run_generate (GenerateRequest.run_of_inEffect_error hload)]
    obtain ⟨hnone, hpair⟩ | ⟨fence, hgiven, hpair⟩ | ⟨htwice, hpair⟩ :=
      GenerateRequest.fencePair_of_pairs hfound.pairs hasks.fence
    · rw [hpair, hnone]
      rfl
    · rw [hpair, hgiven]
      rfl
    · rw [hpair, if_pos htwice]
      rfl
  · intro done after
    rw [perform_run_generate_eq_ok_iff]
    simp only [GenerateRequest.run_eq_ok_iff, GenerateRequest.heeds_iff hfound hasks]
    constructor
    · rintro ⟨artifact, ⟨fence?, settings, name, executor?, start, hfence, hload, hname, hequips,
        hgenerate⟩, hdone⟩
      rw [hasks.target] at hequips
      exact ⟨settings, request.job settings name fence?, executor?, start, artifact, hload,
        ⟨fence?, name, hfence, hname, rfl⟩, hequips, hgenerate, hdone⟩
    · rintro ⟨settings, job, executor?, start, artifact, hload, ⟨fence?, name, hfence, hname, rfl⟩,
        hequips, hgenerate, hdone⟩
      refine ⟨artifact, ⟨fence?, settings, name, executor?, start, hfence, hload, hname, ?_,
        hgenerate⟩, hdone⟩
      rw [hasks.target]
      exact hequips

/-- A notebook is asked for where a settings file says where to, and where a directory has the place of
the settings file. -/
theorem Invocation.run_heeds_notebook :
    ∃ invocation, Invocation.read ["notebook", "s.jl", "--no-execute", "-nb"] none = .ok invocation ∧
      (∀ home report, perform (invocation.run home report)
          (Job.workshop [("literate.toml", .directory)])
        = (.error (.error ⟨.file ⟨"literate.toml"⟩ .isDirectory, none⟩),
            Job.workshop [("literate.toml", .directory)])) ∧
      ∀ home, (perform (invocation.run home fun phase => note (.entered phase))
          (Job.workshop [("s.jl", .file "x = 1\n".toUTF8),
            ("literate.toml", .file "[defaults]\noutput_dir = \".\"\n".toUTF8)])).1
        = .ok (.generated ⟨⟨"./b.ipynb"⟩, .notebook, false⟩) := by
  have hread : CommandLine.read (Command.grammar none) ["notebook", "s.jl", "--no-execute", "-nb"]
      = .ok ⟨["notebook"], [[], [("input", ["s.jl"]), ("no-execute", []), ("name", ["b"])]]⟩ := rfl
  obtain ⟨-, explicit?, request, rfl, hinvocation, hrun⟩ :=
    Invocation.run_heeds hread (show ["notebook"] = [Target.notebook.name] from rfl)
  refine ⟨_, hinvocation, ?_, ?_⟩
  · intro home report
    exact (hrun home report _).1 _ rfl
  · intro home
    have hsettings : Settings.read? "[defaults]\noutput_dir = \".\"\n"
        = some { outputDir := "." } := by
      have htext : "[defaults]\noutput_dir = \".\"\n" = String.ofList (Toml.writeTables
          [("defaults", [("output_dir", Toml.writeString ".")])]) := by
        decide
      have hfields : Toml.read? "[defaults]\noutput_dir = \".\"\n"
          = some [("defaults", .table [("output_dir", .string ".")])] := by
        rw [htext]
        exact Toml.read?_writeTables (.cons (.mk (by decide)
          (.cons (.mk (by decide) (Toml.spells_writeString ".")) .nil)) .nil) (by decide) (by decide)
      rw [Settings.read?, hfields]
      rfl
    have hload : Settings.inEffect (Job.workshop [("s.jl", .file "x = 1\n".toUTF8),
        ("literate.toml", .file "[defaults]\noutput_dir = \".\"\n".toUTF8)]) home none
          = .ok { outputDir := "." } := by
      have hchosen : Settings.chosen? (Job.workshop [("s.jl", .file "x = 1\n".toUTF8),
        ("literate.toml", .file "[defaults]\noutput_dir = \".\"\n".toUTF8)]) home none
          = some Settings.localFile := rfl
      unfold Settings.inEffect
      rw [hchosen]
      exact Settings.saidBy_eq_ok_iff.2 ⟨"[defaults]\noutput_dir = \".\"\n", rfl, hsettings⟩
    have hask : Invocation.read ["notebook", "s.jl", "--no-execute", "-nb"] none = .ok ⟨none, .generate
        { target := .notebook, input := ⟨"s.jl"⟩, outputDir? := none, name? := some "b",
          replacements := [], noDocumenter := false, noExecute := true, fence := [] }⟩ := rfl
    rw [hask, Except.ok.injEq, Invocation.mk.injEq, Command.generate.injEq] at hinvocation
    obtain ⟨-, rfl⟩ := hinvocation
    have hheeds : Job.Heeds
        { input := ⟨"s.jl"⟩, outputDir := ⟨"."⟩, target := .notebook
          options := { Options.ofSettings { outputDir := "." } "b" with execute := false } }
        ⟨["notebook"], [[], [("input", ["s.jl"]), ("no-execute", []), ("name", ["b"])]]⟩
        { outputDir := "." } :=
      { input := rfl, outputDir := Or.inr ⟨rfl, rfl⟩, name := Or.inl rfl, documenter := rfl,
        execute := rfl, fence := Or.inr ⟨rfl, rfl⟩, language := rfl, kernelName := rfl,
        kernelDisplayName := rfl, fileExtension := rfl, editUrl? := rfl }
    have hnobody : GenerateRequest.Equips .notebook
        { Options.ofSettings { outputDir := "." } "b" with execute := false } { outputDir := "." }
        ⟨"."⟩ (Job.workshop [("s.jl", .file "x = 1\n".toUTF8),
          ("literate.toml", .file "[defaults]\noutput_dir = \".\"\n".toUTF8)]) none _ :=
      .nobody (by decide)
    have hdone := ((hrun home (fun phase => note (.entered phase)) _).2 _ _).2
      ⟨_, _, none, _, ⟨⟨"./b.ipynb"⟩, .notebook, false⟩, hload, ⟨rfl, hheeds⟩, hnobody, rfl, rfl⟩
    exact congrArg Prod.fst hdone

end Weave
