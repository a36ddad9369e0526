import Weave.Files.Basic
import Weave.Settings.Format

/-!
# Finding settings

Which file settings are read from: the one that is asked for, else the one in the current directory,
else the user's own. Without any of them the defaults hold. A file that is there and cannot be read
is an error, not a reason to look further.
-/

namespace Weave.Settings

variable {m : Type → Type} [Monad m] [Files m]

/-- The settings file of the current directory. -/
def localFile : Path := ⟨"literate.toml"⟩

/-- The settings file of the user whose directory is `home`. -/
def userFile (home : Path) : Path :=
  (home.join ".literate").join "literate.toml"

/-- Reads one settings file. -/
def loadFrom (path : Path) : ExceptT Fault m Settings := do
  let text ← Files.faultAt path (Files.readText path)
  match read? text with
  | some settings => return settings
  | none => throw (.config ("failed to parse " ++ path.text))

/-- The settings in effect. -/
def load (home : Path) (explicit? : Option Path) : ExceptT Fault m Settings := do
  match explicit? with
  | some path => loadFrom path
  | none =>
    if ← Files.isPresent (m := m) localFile then loadFrom localFile
    else if ← Files.isPresent (m := m) (userFile home) then loadFrom (userFile home)
    else return {}

/-- Writes the defaults to a settings file, the user's own unless another one is asked for, and
returns its path. -/
def create (home : Path) (explicit? : Option Path) : ExceptT Fault m Path := do
  let path := explicit?.getD (userFile home)
  match path.parent? with
  | some dir =>
    if !dir.text.isEmpty then Files.faultAt dir (Files.makeDirectories dir)
  | none => pure ()
  Files.faultAt path (Files.writeText path ({} : Settings).write)
  return path

end Weave.Settings
