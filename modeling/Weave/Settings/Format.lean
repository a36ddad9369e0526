import Weave.Settings.Options
import Weave.Toml.Reader
import Weave.Toml.Writer

/-!
# Settings files

Settings as a TOML document of four tables, one for each section. A section without a table is the
one with its own defaults; in a table, a name that is left out has the default of this name, and
names that no setting has are ignored. A list in place of a table gives its settings in order.
-/

namespace Weave

/-! ## Writing -/

namespace Settings

/-- The tables of a settings file, with the values of all settings. A setting without a value is
left out. -/
def tables (settings : Settings) : List (String × List (String × List Char)) := [
  ("defaults", [
    ("output_dir", Toml.writeString settings.outputDir),
    ("documenter", Toml.writeBool settings.documenter),
    ("language", Toml.writeString settings.language),
    ("execute", Toml.writeBool settings.execute)]),
  ("markdown",
    settings.fence?.toList.map fun fence =>
      ("codefence", Toml.writeStrings [fence.opening, fence.closing])),
  ("notebook", [
    ("kernel_name", Toml.writeString settings.kernelName),
    ("kernel_display_name", Toml.writeString settings.kernelDisplayName),
    ("file_extension", Toml.writeString settings.fileExtension)]),
  ("kernel",
    settings.command?.toList.map (fun command => ("command", Toml.writeString command)) ++
      [("args", Toml.writeStrings settings.args)])]

/-- The text of a settings file, with an empty line between each two tables. -/
def write (settings : Settings) : String :=
  String.ofList ((settings.tables.map fun (name, pairs) => Toml.writeTable name pairs).intersperse
    ['\n']).flatten

end Settings

/-! ## Reading -/

namespace Toml

/-- The values of a record by name, if it has them. A list gives them in order, and may be shorter
or longer than the record. A date has none of them. -/
def record? (names : List String) : Toml → Option (List (Option Toml))
  | .table fields => some (names.map fun name => fields.lookup name)
  | .array items => some ((List.range names.length).map (items[·]?))
  | .datetime _ => some (names.map fun _ => none)
  | _ => none

/-- A string. -/
def string? : Toml → Option String
  | .string s => some s
  | _ => none

/-- A truth value. -/
def bool? : Toml → Option Bool
  | .bool b => some b
  | _ => none

/-- A list of strings. -/
def strings? : Toml → Option (List String)
  | .array items => items.mapM string?
  | _ => none

/-- The value of a name in a table, or of a table in a document: what is given, or the default. -/
def setting {α : Type} (read? : Toml → Option α) (default : α) : Option Toml → Option α
  | none => some default
  | some value => read? value

end Toml

/-- A fence: a list of two strings, behind which more may stand. -/
def Fence.ofToml? : Toml → Option Fence
  | .array (opening :: closing :: _) => do
    return ⟨← opening.string?, ← closing.string?⟩
  | _ => none

open Toml (setting)

section

open Settings

/-- Reads the section `defaults`. -/
def GeneralSettings.ofToml? (value : Toml) : Option GeneralSettings := do
  let [outputDir, documenter, language, execute] ←
    value.record? ["output_dir", "documenter", "language", "execute"] | none
  return {
    outputDir := ← setting Toml.string? defaultOutputDir outputDir
    documenter := ← setting Toml.bool? defaultTrue documenter
    language := ← setting Toml.string? defaultLanguage language
    execute := ← setting Toml.bool? defaultTrue execute }

/-- Reads the section `markdown`. -/
def PageSettings.ofToml? (value : Toml) : Option PageSettings := do
  let [fence] ← value.record? ["codefence"] | none
  return { fence? := ← setting (fun value => (Fence.ofToml? value).map some) none fence }

/-- Reads the section `notebook`. -/
def NotebookSettings.ofToml? (value : Toml) : Option NotebookSettings := do
  let [kernelName, kernelDisplayName, fileExtension] ←
    value.record? ["kernel_name", "kernel_display_name", "file_extension"] | none
  return {
    kernelName := ← setting Toml.string? defaultKernelName kernelName
    kernelDisplayName := ← setting Toml.string? defaultKernelDisplayName kernelDisplayName
    fileExtension := ← setting Toml.string? defaultFileExtension fileExtension }

/-- Reads the section `kernel`. -/
def KernelSettings.ofToml? (value : Toml) : Option KernelSettings := do
  let [command, args] ← value.record? ["command", "args"] | none
  return {
    command? := ← setting (fun value => value.string?.map some) none command
    args := ← setting Toml.strings? [] args }

end

namespace Settings

/-- The settings that a document gives. A section that it leaves out has the section's own defaults. -/
def ofFields? (fields : List (String × Toml)) : Option Settings := do
  return {
    toGeneralSettings := ← setting GeneralSettings.ofToml? {} (fields.lookup "defaults")
    toPageSettings := ← setting PageSettings.ofToml? {} (fields.lookup "markdown")
    toNotebookSettings := ← setting NotebookSettings.ofToml? {} (fields.lookup "notebook")
    toKernelSettings := ← setting KernelSettings.ofToml? {} (fields.lookup "kernel") }

/-- Reads the text of a settings file. -/
def read? (text : String) : Option Settings := do
  let fields ← Toml.read? text
  ofFields? fields

end Settings

end Weave
