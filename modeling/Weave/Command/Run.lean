import Weave.Bridge.Basic
import Weave.Command.Grammar
import Weave.Generation.Basic
import Weave.Settings.Lookup

/-!
# Running commands

What a command does, in any place that has files and can start bridges, and what it tells its user.
The command line takes precedence over the settings in effect, and these over the defaults.
-/

namespace Weave

/-- Why a command failed. -/
inductive Failure where
  | error (error : Error)
  /-- The fence was not given as one pair. -/
  | fenceNotPair
  /-- The directory that cells are to be executed in could not be made. -/
  | outputDirectory (dir : Path) (cause : FileError)
  deriving DecidableEq, Repr

/-- The text of a failure. -/
def Failure.message : Failure → String
  | .error e => e.message
  | .fenceNotPair => "--codefence takes exactly two values"
  | .outputDirectory dir cause =>
    s!"cannot create output directory {dir.text}: {cause.message}"

/-- What a command has done. -/
inductive Report where
  | generated (artifact : Artifact)
  | createdSettings (path : Path)
  | shownSettings (settings : Settings)

/-- What a command tells its user, given the time it took. -/
def Report.text (elapsed : String) : Report → String
  | .generated artifact =>
    let executed := if artifact.executed then ", executed" else ""
    s!"Wrote {artifact.path.text} ({elapsed}{executed})\n"
  | .createdSettings path => s!"Config initialized at: {path.text}\n"
  | .shownSettings settings => settings.write ++ "\n"

namespace GenerateRequest

/-- The fence that is asked for: none, or one pair. -/
def fencePair (request : GenerateRequest) : Except Failure (Option Fence) :=
  match request.fence with
  | [] => .ok none
  | [opening, closing] => .ok (some ⟨opening, closing⟩)
  | _ => .error .fenceNotPair

/-- The options of a request with this name and fence: those of the settings, with what the command
line says in their place. -/
def options (request : GenerateRequest) (settings : Settings) (name : String)
    (fence? : Option Fence) : Options :=
  let options := Options.ofSettings settings name
  { options with
    documenter := options.documenter && !request.noDocumenter
    execute := options.execute && !request.noExecute
    fence? := fence?.or options.fence? }

/-- The hooks of a request: they make the replacements. -/
def hooks (request : GenerateRequest) : Hooks where
  before text := .ok (request.replacements.foldl (fun text (old, new) =>
    Text.replace text old new) text)

variable {m : Type → Type} [Monad m] [Files m] [Bridges m]

/-- The executor of a request, if a notebook is to be executed and the settings name a program for
it. The output directory is made for it, since the cells run there. -/
def executor? (request : GenerateRequest) (settings : Settings) (options : Options)
    (outputDir : Path) : ExceptT Failure m (Option (Executor m)) := do
  if request.target = .notebook ∧ options.execute then
    match Bridge.ofSettings? settings with
    | none => return none
    | some bridge =>
      match ← (Files.makeDirectories outputDir : m (Except FileError Unit)) with
      | .ok () => return some { bridge with workingDir? := some outputDir }.executor
      | .error cause => throw (.outputDirectory outputDir cause)
  else return none

/-- Generates what is asked for. -/
def run (request : GenerateRequest) (home : Path) (settings? : Option Path)
    (report : Phase → m Unit) : ExceptT Failure m Artifact := do
  let fence? ← (request.fencePair : Except Failure (Option Fence))
  let settings ← (Settings.load home settings?).adapt fun fault => .error ⟨fault, none⟩
  let name ← match request.name? with
    | some name => pure name
    | none =>
      (request.input.artifactName.mapError fun fault => .error ⟨fault, none⟩ :
        Except Failure String)
  let outputDir := request.outputDir?.getD ⟨settings.outputDir⟩
  let options := request.options settings name fence?
  let executor? ← request.executor? settings options outputDir
  let job : Job := { input := request.input, outputDir, target := request.target, options }
  (job.generate request.hooks executor? report).adapt .error

end GenerateRequest

/-- Does what a command line asks for. -/
def Invocation.run {m : Type → Type} [Monad m] [Files m] [Bridges m] (invocation : Invocation)
    (home : Path) (report : Phase → m Unit) : ExceptT Failure m Report := do
  match invocation.command with
  | .generate request => return .generated (← request.run home invocation.settings? report)
  | .createSettings =>
    return .createdSettings (← (Settings.create home invocation.settings?).adapt fun fault =>
      .error ⟨fault, none⟩)
  | .showSettings =>
    return .shownSettings (← (Settings.load home invocation.settings?).adapt fun fault =>
      .error ⟨fault, none⟩)

end Weave
