import Weave.CommandLine.Reader
import Weave.Path
import Weave.Target

/-!
# The command line of the program

The commands with their arguments, and what a command line that fits them asks for.
-/

namespace Weave

/-- What is asked for when an artifact is to be generated. -/
structure GenerateRequest where
  target : Target
  input : Path
  outputDir? : Option Path
  name? : Option String
  /-- What is replaced in the source, and by what, in this order. -/
  replacements : List (String × String)
  noDocumenter : Bool
  noExecute : Bool
  /-- The values given for the fence, those of all times in a row. -/
  fence : List String
  deriving DecidableEq, Repr

/-- What a command line asks for. -/
inductive Command where
  | generate (request : GenerateRequest)
  | createSettings
  | showSettings
  deriving DecidableEq, Repr

/-- A command with the settings file to use. -/
structure Invocation where
  settings? : Option Path
  command : Command
  deriving DecidableEq, Repr

namespace Command

open CommandLine

/-- A path must not be empty. -/
def acceptPath (value : String) : Except (Option String) Unit :=
  if value.isEmpty then .error none else .ok ()

/-- The two texts of a replacement, on both sides of its first equals sign. -/
def replacement? (value : String) : Except String (String × String) :=
  match value.toList.dropWhile (· != '=') with
  | [] => .error s!"expected FROM=TO, got '{value}'"
  | _ :: new =>
    match value.toList.takeWhile (· != '=') with
    | [] => .error "replacement pattern must not be empty"
    | old => .ok (String.ofList old, String.ofList new)

/-- The options that every command takes. -/
def commonOptions (settingsVariable? : Option String) : List Argument := [
  { name := "log-format", use := .single,
    accept := fun value => if value = "text" ∨ value = "json" then .ok () else .error none },
  { name := "verbose", short? := some 'v', use := .counter },
  { name := "config", use := .single, accept := acceptPath, fallback? := settingsVariable? },
  { name := "help", short? := some 'h', use := .display }]

/-- The options of the commands that generate an artifact. -/
def generateOptions : List Argument := [
  { name := "name", short? := some 'n', use := .single },
  { name := "replace", use := .repeated 1, shown := "--replace <FROM=TO>",
    accept := fun value => ((replacement? value).map fun _ => ()).mapError some }]

/-- The positional arguments of the commands that generate an artifact. -/
def generatePositionals : List Argument := [
  { name := "input", use := .single, accept := acceptPath, required := true },
  { name := "output_dir", use := .single, accept := acceptPath }]

/-- The option that leaves out what is only for Documenter. -/
def noDocumenter : Argument := { name := "no-documenter", use := .flag }

/-- The options that only the command for one target takes. -/
def targetOptions : Target → List Argument
  | .markdown => [noDocumenter, { name := "codefence", use := .repeated 2 }]
  | .notebook => [noDocumenter, { name := "no-execute", use := .flag }]
  | .script => []

/-- The grammar of the program. The variable is the settings file that the environment names. -/
def grammar (settingsVariable? : Option String) : Grammar :=
  let common := commonOptions settingsVariable?
  let generate (target : Target) : String × Grammar :=
    (target.name, .mk (generateOptions ++ targetOptions target ++ common) generatePositionals [])
  .mk (common ++ [{ name := "version", short? := some 'V', use := .display }]) []
    (Target.all.map generate ++
      [("config", .mk common [] [("init", .mk common [] []), ("show", .mk common [] [])])])

/-- What the arguments of a command for a target ask for. -/
def generateRequest? (target : Target) (found : Matches) : Option GenerateRequest := do
  return {
    target
    input := ⟨← found.value? "input"⟩
    outputDir? := (found.value? "output_dir").map Path.mk
    name? := found.value? "name"
    replacements := (found.all "replace").flatten.filterMap fun value =>
      (replacement? value).toOption
    noDocumenter := found.has "no-documenter"
    noExecute := found.has "no-execute"
    fence := (found.all "codefence").flatten }

/-- The command that the names of commands and their arguments ask for. -/
def ofMatches? (found : Matches) : Option Command :=
  match found.commands with
  | ["config", "init"] => some .createSettings
  | ["config", "show"] => some .showSettings
  | [name] => do
    let target ← Target.all.find? (·.name = name)
    return .generate (← generateRequest? target found)
  | _ => none

end Command

/-- Reads the words of a command line. The settings file that the command line names comes before
the one that the environment names. -/
def Invocation.read (words : List String) (settingsVariable? : Option String) :
    Except CommandLine.Refusal Invocation := do
  let found ← CommandLine.read (Command.grammar settingsVariable?) words
  match Command.ofMatches? found with
  | some command =>
    return { settings? := ((found.value? "config").or settingsVariable?).map Path.mk, command }
  | none => throw (.usage none)

end Weave
