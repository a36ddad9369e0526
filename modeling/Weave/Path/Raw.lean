import Weave.Error
import Weave.Text.Utf8

/-!
# Ways between places

The place of one file as seen from a directory. Here a path is what the system takes it for: bytes, of
which the slash separates names, and which need not be those of a text. A way is a text, so that names
are shown as text in it (`Text.lossy`), and it is names as they are shown that are compared.
-/

namespace Weave

/-- A path as the system has it. -/
structure RawPath where
  bytes : List UInt8
  deriving DecidableEq, Repr

namespace RawPath

/-- Whether a path starts at the root. -/
def isAbsolute (p : RawPath) : Bool :=
  p.bytes.head? == some 0x2f

/-- The pieces of a path between its slashes. -/
def pieces (p : RawPath) : List (List UInt8) :=
  p.bytes.splitOn 0x2f

/-- A path with the current directory in front of it, unless it starts at the root anyway. Nothing in
it is resolved. -/
def rooted (current p : RawPath) : RawPath :=
  if p.isAbsolute then p else ⟨current.bytes ++ 0x2f :: p.bytes⟩

/-- A path from the root on. An empty path denotes nothing, and only a relative one needs the current
directory, which may not be known. -/
def absolute (current : Except FileError RawPath) (p : RawPath) : Except FileError RawPath :=
  if p.bytes.isEmpty then .error .emptyPath
  else if p.isAbsolute then .ok p
  else current.map (rooted · p)

/-- The names, as they are shown, that one more piece of a path leads to. -/
def showStep (names : List String) (piece : List UInt8) : List String :=
  if piece = [] ∨ piece = [0x2e] then names
  else if piece = [0x2e, 0x2e] then names.dropLast
  else names ++ [Text.lossy piece]

/-- The names on the way from the root to what a path denotes, as they are shown. No directory is
looked at, and there is nothing above the root. -/
def shownNames (p : RawPath) : List String :=
  p.pieces.foldl showStep []

/-- How many elements two lists share at the front. -/
def commonLength {α : Type} [DecidableEq α] : List α → List α → Nat
  | a :: as, b :: bs => if a = b then commonLength as bs + 1 else 0
  | _, _ => 0

/-- The steps from one directory to a place: up to the nearest common directory, then down. -/
def stepsBetween (dir file : List String) : List String :=
  let common := commonLength file dir
  List.replicate (dir.length - common) ".." ++ file.drop common

/-- The way from the directory `dir` to `file`, with slashes between its steps, or the path that has
no place, and why. -/
def relativeTo (current : Except FileError RawPath) (file dir : RawPath) :
    Except (RawPath × FileError) String := do
  let goal ← (file.absolute current).mapError (file, ·)
  let place ← (dir.absolute current).mapError (dir, ·)
  return "/".intercalate (stepsBetween place.shownNames goal.shownNames)

end RawPath

namespace Path

/-- A path that is a text, as the system has it. -/
def raw (p : Path) : RawPath :=
  ⟨Text.utf8 p.text⟩

/-- The path of the place with these names. -/
def ofNames (names : List String) : Path :=
  ⟨"/" ++ "/".intercalate names⟩

/-- The way from the directory `dir` to `file`, of paths that are texts. -/
def relativeTo (current : Except FileError (List String)) (file dir : Path) : Except Fault String :=
  (RawPath.relativeTo (current.map fun names => (ofNames names).raw) file.raw dir.raw).mapError
    fun (path, cause) => .file ⟨Text.lossy path.bytes⟩ cause

end Path

end Weave
