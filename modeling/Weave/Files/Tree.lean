import Weave.Error

/-!
# File trees

Directories and regular files as a value: what stands at each place, a place being the names on the
way from the root. Paths are followed name by name; what is on the way has to be a directory, and
names and paths have a greatest length.
-/

namespace Weave

/-- What stands at a place. -/
inductive FileEntry where
  | file (content : ByteArray)
  | directory

/-- The files and directories below a root. -/
structure FileTree where
  entries : List (List String × FileEntry) := []

namespace FileTree

/-- What stands at a place. The root is always a directory. -/
def get? (tree : FileTree) (place : List String) : Option FileEntry :=
  if place.isEmpty then some .directory else tree.entries.lookup place

/-- Lets something else stand at a place. -/
def put (tree : FileTree) (place : List String) (entry : FileEntry) : FileTree :=
  ⟨(place, entry) :: tree.entries.filter (·.1 ≠ place)⟩

/-- Takes away what stands at a place. -/
def erase (tree : FileTree) (place : List String) : FileTree :=
  ⟨tree.entries.filter (·.1 ≠ place)⟩

/-- Takes away what stands at a place and below it. -/
def eraseAll (tree : FileTree) (place : List String) : FileTree :=
  ⟨tree.entries.filter fun entry => !place.isPrefixOf entry.1⟩

/-- The greatest number of bytes in a name. -/
def nameLimit : Nat := 255

/-- The number of bytes that a path has to stay below. -/
def pathLimit : Nat := 4096

/-- The place that pieces of a path lead to from `place`. Each has to start from a directory; what
stands at the end is left open. -/
def walk (tree : FileTree) (place : List String) : List String → Except FileError (List String)
  | [] => .ok place
  | piece :: rest =>
    match tree.get? place with
    | none => .error .notFound
    | some (.file _) => .error .notDirectory
    | some .directory =>
      if piece = "" ∨ piece = "." then walk tree place rest
      else if piece = ".." then walk tree place.dropLast rest
      else if nameLimit < piece.utf8ByteSize then .error .nameTooLong
      else walk tree (place ++ [piece]) rest

/-- The place that the first pieces of a path lead to by `.` and `..` alone, and the pieces behind them.
Nothing is looked at: the directory that work is done in is held, and so are those above it, so that
these steps can be taken even if it is gone. -/
def climb (place : List String) : List String → List String × List String
  | [] => (place, [])
  | piece :: rest =>
    if piece = "" ∨ piece = "." then climb place rest
    else if piece = ".." then climb place.dropLast rest
    else (place, piece :: rest)

/-- Whether a path leads up only. Then it denotes a directory that is held. -/
def climbs (path : Path) : Bool :=
  (climb [] (path.pieces.map String.ofList)).2.isEmpty

/-- Follows pieces of a path, seen from the directory `current`. -/
def follow (tree : FileTree) (current : List String) (path : Path) (pieces : List (List Char)) :
    Except FileError (List String) :=
  if path.text.toList.contains '\x00' then .error .nulInName
  else if path.text.isEmpty then .error .notFound
  else if pathLimit ≤ path.text.utf8ByteSize then .error .nameTooLong
  else
    let (place, rest) :=
      climb (if path.isAbsolute then [] else current) (pieces.map String.ofList)
    tree.walk place rest

/-- The place of a path. -/
def locate (tree : FileTree) (current : List String) (path : Path) :
    Except FileError (List String) :=
  tree.follow current path path.pieces

/-- What a path denotes, of which the place is known. -/
def denoted? (tree : FileTree) (path : Path) (place : List String) : Option FileEntry :=
  if climbs path then some .directory else tree.get? place

/-- What stands at a path, if something does. -/
def find? (tree : FileTree) (current : List String) (path : Path) : Option FileEntry :=
  match tree.locate current path with
  | .ok place => tree.denoted? path place
  | .error _ => none

/-- The content of the file at a path. -/
def read (tree : FileTree) (current : List String) (path : Path) : Except FileError ByteArray :=
  match tree.locate current path with
  | .error cause => .error cause
  | .ok place =>
    match tree.denoted? path place with
    | none => .error .notFound
    | some .directory => .error .isDirectory
    | some (.file content) => .ok content

/-- The text of the file at a path. -/
def readText (tree : FileTree) (current : List String) (path : Path) : Except FileError String :=
  match tree.read current path with
  | .error cause => .error cause
  | .ok content =>
    match String.fromUTF8? content with
    | some text => .ok text
    | none => .error .notText

/-- The place of a path of something that may still have to be made: slashes at the end of the path
do not ask for a directory. -/
def locateNew (tree : FileTree) (current : List String) (path : Path) :
    Except FileError (List String) :=
  tree.follow current path (Text.dropTrailing List.isEmpty path.pieces)

/-- Makes a directory. -/
def makeDirectory (tree : FileTree) (current : List String) (path : Path) :
    Except FileError FileTree :=
  match tree.locateNew current path with
  | .error cause => .error cause
  | .ok place =>
    match tree.denoted? path place with
    | some _ => .error .alreadyExists
    | none => .ok (tree.put place .directory)

/-- Makes a file, or replaces its content. A path that ends with a slash denotes no file. -/
def write (tree : FileTree) (current : List String) (path : Path) (content : ByteArray) :
    Except FileError FileTree :=
  match tree.locateNew current path with
  | .error cause => .error cause
  | .ok place =>
    if path.pieces.getLast? = some [] then .error .isDirectory
    else match tree.denoted? path place with
      | some .directory => .error .isDirectory
      | _ => .ok (tree.put place (.file content))

/-- Gives a file another place, where it replaces a file but no directory. -/
def moveFile (tree : FileTree) (current : List String) (source goal : Path) :
    Except FileError FileTree :=
  match tree.locate current source, tree.locate current goal with
  | .error cause, _ => .error cause
  | .ok _, .error cause => .error cause
  | .ok oldPlace, .ok newPlace =>
    match tree.denoted? source oldPlace, tree.denoted? goal newPlace with
    | none, _ => .error .notFound
    | some .directory, _ => .error .isDirectory
    | some (.file _), some .directory => .error .isDirectory
    | some (.file content), _ => .ok ((tree.erase oldPlace).put newPlace (.file content))

end FileTree

end Weave
