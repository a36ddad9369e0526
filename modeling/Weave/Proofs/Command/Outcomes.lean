import Weave.Command.Run
import Weave.Proofs.Error.Results
import Weave.Proofs.Settings.Lookup

/-!
# The outcomes of a generating command

A command that generates an artifact settles what its fence is, which settings are in effect, how the
artifact is called and who executes it, one after the other; then it has a job, and goes the way that the
job goes. `GenerateRequest.Runs` tells how this can end, and every run ends in one of these ways (`runs`).
-/

namespace Weave.GenerateRequest

open Workplace

/-- The name that a request gives to its artifact. -/
def artifactName (request : GenerateRequest) : Except Fault String :=
  match request.name? with
  | some name => .ok name
  | none => request.input.artifactName

/-- The directory that a request has its artifact written to. -/
def directory (request : GenerateRequest) (settings : Settings) : Path :=
  request.outputDir?.getD ⟨settings.outputDir⟩

/-- The job that a request comes to. -/
def job (request : GenerateRequest) (settings : Settings) (name : String) (fence? : Option Fence) :
    Job where
  input := request.input
  outputDir := request.directory settings
  target := request.target
  options := request.options settings name fence?

/-- The steps of a request, up to the generation that it comes to. -/
theorem run_eq {m : Type → Type} [Monad m] [Files m] [Bridges m] (request : GenerateRequest)
    (home : Path) (settings? : Option Path) (report : Phase → m Unit) :
    request.run home settings? report = (do
      let fence? ← (request.fencePair : Except Failure (Option Fence))
      let settings ← (Settings.load home settings?).adapt fun fault => .error ⟨fault, none⟩
      let name ← (request.artifactName.mapError fun fault => .error ⟨fault, none⟩ :
        Except Failure String)
      let executor? ← request.executor? settings (request.options settings name fence?)
        (request.directory settings)
      ((request.job settings name fence?).generate request.hooks executor? report).adapt .error) := by
  unfold run artifactName
  cases request.name? <;> rfl

/-- Who executes the cells for a command, and the workplace after the directory for them was made. -/
inductive Equips (target : Target) (options : Options) (settings : Settings) (outputDir : Path)
    (place : Workplace) : Option (Executor (StateM Workplace)) → Workplace → Prop
  | nobody (h : ¬(target = .notebook ∧ options.execute = true ∧ settings.command?.isSome = true)) :
      Equips target options settings outputDir place none place
  | bridge {command : String} {start : Workplace} (htarget : target = .notebook)
      (hexecute : options.execute = true) (hcommand : settings.command? = some command)
      (hmake : (Files.makeDirectories (m := StateM Workplace) outputDir).run place = (.ok (), start)) :
      Equips target options settings outputDir place
        (some (Bridge.executor ⟨command, settings.args, some outputDir⟩)) start

section Outcomes

variable (request : GenerateRequest) (home : Path) (settings? : Option Path)
  (report : Phase → StateM Workplace Unit)

/-- What a generating command gives, and the workplace that it leaves. -/
inductive Runs (place : Workplace) : Except Failure Artifact → Workplace → Prop
  | fenceNotPair {failure : Failure} (hfence : request.fencePair = .error failure) :
      Runs place (.error failure) place
  | notLoaded {fence? : Option Fence} {fault : Fault} (hfence : request.fencePair = .ok fence?)
      (hload : Settings.inEffect place home settings? = .error fault) :
      Runs place (.error (.error ⟨fault, none⟩)) place
  | notNamed {fence? : Option Fence} {settings : Settings} {fault : Fault}
      (hfence : request.fencePair = .ok fence?)
      (hload : Settings.inEffect place home settings? = .ok settings)
      (hname : request.artifactName = .error fault) :
      Runs place (.error (.error ⟨fault, none⟩)) place
  | notEquipped {fence? : Option Fence} {settings : Settings} {name : String} {failure : Failure}
      {after : Workplace} (hfence : request.fencePair = .ok fence?)
      (hload : Settings.inEffect place home settings? = .ok settings)
      (hname : request.artifactName = .ok name)
      (hexecutor : perform (request.executor? (m := StateM Workplace) settings
        (request.options settings name fence?) (request.directory settings)) place
          = (.error failure, after)) :
      Runs place (.error failure) after
  | generated {fence? : Option Fence} {settings : Settings} {name : String}
      {executor? : Option (Executor (StateM Workplace))} {start after : Workplace}
      {result : Except Error Artifact} (hfence : request.fencePair = .ok fence?)
      (hload : Settings.inEffect place home settings? = .ok settings)
      (hname : request.artifactName = .ok name)
      (hexecutor : perform (request.executor? settings (request.options settings name fence?)
        (request.directory settings)) place = (.ok executor?, start))
      (hgenerate : perform ((request.job settings name fence?).generate request.hooks executor? report)
        start = (result, after)) :
      Runs place (result.mapError .error) after

end Outcomes

variable {request : GenerateRequest} {home : Path} {settings? : Option Path}
  {report : Phase → StateM Workplace Unit} {place after : Workplace}

theorem perform_makeDirectories (dir : Path) (place : Workplace) :
    perform (liftM (Files.makeDirectories (m := StateM Workplace) dir)
        : ExceptT Failure (StateM Workplace) (Except FileError Unit)) place
      = (.ok ((Files.makeDirectories (m := StateM Workplace) dir).run place).1,
          ((Files.makeDirectories (m := StateM Workplace) dir).run place).2) :=
  perform_liftM _ place

/-- These are all the ways to come by an executor without an error. -/
theorem equips_iff {settings : Settings} {options : Options} {outputDir : Path}
    {executor? : Option (Executor (StateM Workplace))} :
    perform (request.executor? settings options outputDir) place = (.ok executor?, after) ↔
      Equips request.target options settings outputDir place executor? after := by
  unfold GenerateRequest.executor? Bridge.ofSettings?
  constructor
  · intro h
    split at h
    · next hnotebook =>
      cases hcommand : settings.command? with
      | none =>
        rw [hcommand] at h
        cases h
        exact .nobody (by simp [hcommand])
      | some command =>
        rw [hcommand] at h
        have hmade := perform_makeDirectories outputDir place
        rcases hmake : (Files.makeDirectories (m := StateM Workplace) outputDir).run place with
          ⟨made, start⟩
        rw [hmake] at hmade
        have hend := h.symm.trans (perform_bind_of_ok hmade)
        cases made with
        | error cause => cases hend
        | ok value =>
          cases hend
          exact .bridge hnotebook.1 hnotebook.2 hcommand hmake
    · next hnot =>
      cases h
      exact .nobody fun h => hnot ⟨h.1, h.2.1⟩
  · intro h
    cases h with
    | nobody hnobody =>
      split
      · next hnotebook =>
        have hcommand : settings.command? = none := by
          simpa [hnotebook.1, hnotebook.2] using hnobody
        rw [hcommand]
        rfl
      · rfl
    | bridge htarget hexecute hcommand hmake =>
      rw [if_pos ⟨htarget, hexecute⟩, hcommand]
      have hmade := perform_makeDirectories outputDir place
      rw [hmake] at hmade
      exact perform_bind_of_ok hmade

/-- Every run of a generating command has one of these outcomes. -/
theorem runs {result : Except Failure Artifact}
    (h : perform (request.run home settings? report) place = (result, after)) :
    Runs request home settings? report place result after := by
  rw [run_eq] at h
  -- one step after the other: its error ends the run, its value is what the next step gets
  have hpair := perform_liftM_except request.fencePair place
  cases hfence : request.fencePair with
  | error failure =>
    rw [hfence] at hpair h
    rw [perform_bind_of_error hpair] at h
    cases h
    exact .fenceNotPair hfence
  | ok fence? =>
  rw [hfence] at hpair h
  rw [perform_bind_of_ok hpair] at h
  have hsettings := perform_adapt (fun fault => Failure.error ⟨fault, none⟩)
    (Settings.load (m := StateM Workplace) home settings?) place
  rw [Settings.perform_load] at hsettings
  cases hload : Settings.inEffect place home settings? with
  | error fault =>
    rw [hload] at hsettings
    rw [perform_bind_of_error hsettings] at h
    cases h
    exact .notLoaded hfence hload
  | ok settings =>
  rw [hload] at hsettings
  rw [perform_bind_of_ok hsettings] at h
  have hnamed := perform_liftM_except
    (request.artifactName.mapError fun fault => Failure.error ⟨fault, none⟩) place
  cases hname : request.artifactName with
  | error fault =>
    rw [hname] at hnamed h
    rw [perform_bind_of_error hnamed] at h
    cases h
    exact .notNamed hfence hload hname
  | ok name =>
  rw [hname] at hnamed h
  rw [perform_bind_of_ok hnamed] at h
  rcases hexecutor : perform (request.executor? settings (request.options settings name fence?)
    (request.directory settings)) place with ⟨executor, start⟩
  cases executor with
  | error failure =>
    rw [perform_bind_of_error hexecutor] at h
    cases h
    exact .notEquipped hfence hload hname hexecutor
  | ok executor? =>
    rw [perform_bind_of_ok hexecutor, perform_adapt] at h
    cases h
    exact .generated hfence hload hname hexecutor rfl

/-- Settings that cannot be had end a command before anything has happened. -/
theorem run_of_inEffect_error {fault : Fault}
    (hload : Settings.inEffect place home settings? = .error fault) :
    perform (request.run home settings? report) place =
      (.error (match request.fencePair with
        | .error failure => failure
        | .ok _ => .error ⟨fault, none⟩), place) := by
  rcases hrun : perform (request.run home settings? report) place with ⟨result, after⟩
  cases runs hrun with
  | fenceNotPair hfence => rw [hfence]
  | notLoaded hfence hload' =>
    rw [hload] at hload'
    cases hload'
    rw [hfence]
  | notNamed hfence hload' =>
    rw [hload] at hload'
    cases hload'
  | notEquipped hfence hload' =>
    rw [hload] at hload'
    cases hload'
  | generated hfence hload' =>
    rw [hload] at hload'
    cases hload'

/-- A generating command gives an artifact exactly if everything is settled that its job needs, and the
job gives the artifact. -/
theorem run_eq_ok_iff {artifact : Artifact} :
    perform (request.run home settings? report) place = (.ok artifact, after) ↔
      ∃ fence? settings name executor? start, request.fencePair = .ok fence? ∧
        Settings.inEffect place home settings? = .ok settings ∧ request.artifactName = .ok name ∧
        Equips request.target (request.options settings name fence?) settings
          (request.directory settings) place executor? start ∧
        perform ((request.job settings name fence?).generate request.hooks executor? report) start
          = (.ok artifact, after) := by
  constructor
  · intro h
    -- the outcome is named, so that the ways a run can end can be told apart by it
    generalize hresult : (Except.ok artifact : Except Failure Artifact) = result at h
    cases runs h with
    | fenceNotPair => cases hresult
    | notLoaded => cases hresult
    | notNamed => cases hresult
    | notEquipped => cases hresult
    | generated hfence hload hname hexecutor hgenerate =>
      obtain rfl := Except.mapError_eq_ok_iff.1 hresult.symm
      exact ⟨_, _, _, _, _, hfence, hload, hname, equips_iff.1 hexecutor, hgenerate⟩
  · rintro ⟨fence?, settings, name, executor?, start, hfence, hload, hname, hequips, hgenerate⟩
    have hsettings := perform_adapt (fun fault => Failure.error ⟨fault, none⟩)
      (Settings.load (m := StateM Workplace) home settings?) place
    rw [Settings.perform_load, hload] at hsettings
    rw [run_eq, hfence, hname, Except.mapError_ok, perform_bind_of_ok (perform_liftM_except _ place),
      perform_bind_of_ok hsettings, perform_bind_of_ok (perform_liftM_except _ place),
      perform_bind_of_ok (equips_iff.2 hequips), perform_adapt, hgenerate]
    rfl

end Weave.GenerateRequest
