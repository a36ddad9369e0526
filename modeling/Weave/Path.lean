import Weave.Text.Blank

/-!
# Paths

A path is kept as it is spelled. `Path.parts` reads the spelling: a slash separates, empty parts and
inner `.` say nothing. Joining, the parent and the stem of the last name work on the spelling;
`Path.names` resolves `..` on the parts alone, without looking at any directory. All these paths are
texts; the ways between paths that need not be are told in `Weave.Path.Raw`.
-/

namespace Weave

/-- The place of a file or directory, as it is spelled. -/
structure Path where
  text : String
  deriving DecidableEq, Repr

namespace Path

/-- One step of a path. -/
inductive Part where
  /-- The slash that an absolute path starts with. -/
  | root
  /-- A leading `.`. -/
  | here
  /-- The step to the parent, `..`. -/
  | up
  | name (name : String)
  deriving DecidableEq, Repr

/-- Whether a path starts at the root. -/
def isAbsolute (p : Path) : Bool :=
  p.text.toList.head? == some '/'

/-- The pieces of a path between its slashes. -/
def pieces (p : Path) : List (List Char) :=
  p.text.toList.splitOn '/'

/-- What a piece between slashes stands for; the empty piece and `.` stand for nothing. -/
def Part.ofPiece? (piece : List Char) : Option Part :=
  match piece with
  | [] => none
  | ['.'] => none
  | ['.', '.'] => some .up
  | piece => some (.name (String.ofList piece))

/-- The parts among pieces of which the first begins at `start`, each with the place where it
ends. -/
def partsFrom (start : Nat) : List (List Char) → List (Part × Nat)
  | [] => []
  | piece :: rest =>
    let stop := start + piece.length
    match Part.ofPiece? piece with
    | some part => (part, stop) :: partsFrom (stop + 1) rest
    | none => partsFrom (stop + 1) rest

/-- The parts of a path, each with the number of characters up to its end. -/
def partsWithEnds (p : Path) : List (Part × Nat) :=
  match p.pieces with
  | [] :: next :: rest => (.root, 1) :: partsFrom 1 (next :: rest)
  | ['.'] :: rest => (.here, 1) :: partsFrom 2 rest
  | pieces => partsFrom 0 pieces

/-- The parts of a path. -/
def parts (p : Path) : List Part :=
  p.partsWithEnds.map (·.1)

/-- The first `n` characters of a path. -/
def upTo (p : Path) (n : Nat) : Path :=
  ⟨String.ofList (p.text.toList.take n)⟩

/-- The paths above a path, nearest first. A relative path ends at the empty one, an absolute one
at the root. -/
def parents (p : Path) : List Path :=
  match p.partsWithEnds.reverse with
  | [] => []
  | _ :: above => above.map (fun part => p.upTo part.2) ++ (if p.isAbsolute then [] else [⟨""⟩])

/-- The path without its last part. -/
def parent? (p : Path) : Option Path :=
  p.parents.head?

/-- A path continued by another one, which takes its place if it is absolute. -/
def join (p : Path) (next : String) : Path :=
  if (Path.mk next).isAbsolute then ⟨next⟩
  else if p.text.isEmpty || p.text.toList.getLast? == some '/' then ⟨p.text ++ next⟩
  else ⟨p.text ++ "/" ++ next⟩

/-- The last part of a path, if it is a name. -/
def fileName? (p : Path) : Option String :=
  match p.parts.getLast? with
  | some (.name name) => some name
  | _ => none

/-- A name up to its last dot; a dot at the front does not count. -/
def stemOf (name : List Char) : List Char :=
  match Text.dropTrailing (· != '.') name with
  | [] => name
  | ['.'] => name
  | stem => stem.dropLast

/-- The last name of a path without its extension. -/
def stem? (p : Path) : Option String :=
  p.fileName?.map fun name => String.ofList (stemOf name.toList)

/-- One step from a directory that is given by the names on the way to it, nearest first. There is
nothing above the root. -/
def step (names : List String) : Part → List String
  | .root => []
  | .here => names
  | .up => names.tail
  | .name name => name :: names

/-- The names on the way from the root to the file or directory at a path, seen from the directory
`current`, which is given in the same way. -/
def names (current : List String) (p : Path) : List String :=
  (p.parts.foldl step current.reverse).reverse

end Path

end Weave
