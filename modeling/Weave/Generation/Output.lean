import Weave.Document
import Weave.Files.Basic
import Weave.Notebook.Format
import Weave.Text.Lines

/-!
# Writing documents

How an artifact is called when nobody says so, and how it is written: to a temporary file next to its
place, which is then moved there, so that its place never holds half of it.
-/

namespace Weave

/-- The name of the artifact of an input file: the stem of the file. -/
def Path.artifactName (input : Path) : Except Fault String :=
  match input.stem? with
  | some name => .ok name
  | none => .error (.config ("cannot derive an output name from " ++ input.text))

namespace Document

/-- What a file of a document holds. A text ends with exactly one newline. -/
def fileText : Document → String
  | .text content => Text.endWithNewline content
  | .notebook book => book.write

/-- The file name of an artifact. -/
def fileName (name : String) (target : Target) : String :=
  name ++ "." ++ target.extension

/-- The name of the temporary file next to an artifact. -/
def temporaryName (name : String) (target : Target) : String :=
  "." ++ fileName name target ++ ".tmp"

/-- Writes a document into a directory, which is made if it is missing, and returns its path. -/
def save {m : Type → Type} [Monad m] [Files m] (document : Document) (dir : Path) (name : String)
    (target : Target) : ExceptT Fault m Path := do
  Files.faultAt dir (Files.makeDirectories dir)
  let path := dir.join (fileName name target)
  let temporary := dir.join (temporaryName name target)
  Files.faultAt temporary (Files.writeText temporary document.fileText)
  Files.faultAt path (Files.moveFile temporary path)
  return path

end Document

end Weave
