import Weave.Error

/-!
# Working with files

`Files` lists what a generation asks of the place that holds its files; everything else is built
from these operations, in any monad that has them.
-/

namespace Weave

/-- The operations on files and directories. Those that can fail say why. -/
class Files (m : Type → Type) where
  /-- The names on the way from the root to the directory that relative paths start from. It may be
  gone. -/
  currentDirectory : m (Except FileError (List String))
  /-- Whether a path denotes a file or a directory. -/
  isPresent : Path → m Bool
  /-- Whether a path denotes a directory. -/
  isDirectory : Path → m Bool
  /-- The text of a file. -/
  readText : Path → m (Except FileError String)
  /-- Makes one directory; the one above it has to be there. -/
  makeDirectory : Path → m (Except FileError Unit)
  /-- Makes a file with this text, or replaces what it held. This happens wholly or, if it fails, not
  at all: it is assumed that no write stops half-way, as it would where a disk is full. -/
  writeText : Path → String → m (Except FileError Unit)
  /-- Gives a file another place, where it replaces the file that is there. -/
  moveFile : Path → Path → m (Except FileError Unit)

namespace Files

variable {m : Type → Type} [Monad m] [Files m]

/-- What a failure to make a directory comes to: nothing, if the directory is there. -/
def unlessDirectory (path : Path) (cause : FileError) : m (Except FileError Unit) := do
  if ← isDirectory path then return .ok () else return .error cause

/-- Makes the first of these directories, and before it those that it stands in, which follow it in
the list. The empty path denotes the current directory. -/
def makeChain : List Path → m (Except FileError Unit)
  | [] => return .error .noParent
  | path :: above => do
    if path.text.isEmpty then return .ok ()
    match ← makeDirectory path with
    | .ok () => return .ok ()
    | .error .notFound =>
      match ← makeChain above with
      | .error cause => return .error cause
      | .ok () =>
        match ← makeDirectory path with
        | .ok () => return .ok ()
        | .error cause => unlessDirectory path cause
    | .error cause => unlessDirectory path cause

/-- Makes a directory and all those that it stands in, as far as they are missing. -/
def makeDirectories (path : Path) : m (Except FileError Unit) :=
  makeChain (path :: path.parents)

/-- A file operation whose failure is a fault at `path`. -/
def faultAt {α : Type} (path : Path) (operation : m (Except FileError α)) : ExceptT Fault m α :=
  ExceptT.mk do return (← operation).mapError (.file path)

end Files

end Weave
