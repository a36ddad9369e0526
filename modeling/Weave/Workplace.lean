import Weave.Bridge.Basic
import Weave.Files.Tree
import Weave.Generation.Basic

/-!
# Workplaces

A workplace is all that a generation can see and change, as a value: a file tree, the directory that
work is done in, the programs that can be started, and a record of what has happened, in order. The
operations of `Files` on it are those of its tree.
-/

namespace Weave

/-- Something that has happened at a workplace. -/
inductive Event where
  | entered (phase : Phase)
  /-- An executor was asked to run these sources. -/
  | asked (sources : List String)
  /-- A file operation left this tree. -/
  | changed (tree : FileTree)

/-- All that a generation can see and change. -/
structure Workplace where
  tree : FileTree := {}
  /-- The names on the way from the root to the current directory. -/
  current : List String := []
  /-- What a bridge writes that is started at this tree and directory, if its program is there. -/
  programs : FileTree → List String → Bridge → Option (List UInt8) := fun _ _ _ => none
  /-- What has happened, oldest first. -/
  history : List Event := []

namespace Workplace

/-- The current directory, as long as it is there. -/
def currentDirectory (place : Workplace) : Except FileError (List String) :=
  match place.tree.get? place.current with
  | some .directory => .ok place.current
  | _ => .error .notFound

/-- Notes an event. -/
def note (event : Event) : StateM Workplace Unit :=
  modify fun place => { place with history := place.history ++ [event] }

/-- An operation that leaves another tree, or fails and leaves the tree as it is. No operation fails
after half of its work is done: this is assumed of the system that a workplace stands for. -/
def change (operation : FileTree → List String → Except FileError FileTree) :
    StateM Workplace (Except FileError Unit) := do
  let place ← get
  match operation place.tree place.current with
  | .error cause => return .error cause
  | .ok tree =>
    set { place with tree, history := place.history ++ [Event.changed tree] }
    return .ok ()

instance : Files (StateM Workplace) where
  currentDirectory := return (← get).currentDirectory
  isPresent path := return ((← get).tree.find? (← get).current path).isSome
  isDirectory path := return match (← get).tree.find? (← get).current path with
    | some .directory => true
    | _ => false
  readText path := return (← get).tree.readText (← get).current path
  makeDirectory path := change fun tree current => tree.makeDirectory current path
  writeText path text := change fun tree current => tree.write current path text.toUTF8
  moveFile source goal := change fun tree current => tree.moveFile current source goal

/-- A bridge can be started if its program is there, and the directory that it is to work in. -/
instance : Bridges (StateM Workplace) where
  launch bridge := do
    let place ← get
    let missing := bridge.workingDir?.any fun dir =>
      match place.tree.find? place.current dir with
      | some .directory => false
      | _ => true
    if missing then return .error .notFound
    match place.programs place.tree place.current bridge with
    | none => return .error .notFound
    | some incoming => return .ok { incoming }

/-- An executor that answers by itself, and notes that it was asked. -/
def scripted (answer : List String → Except Error (List (List Json))) :
    Executor (StateM Workplace) := fun sources => do
  note (.asked sources)
  return answer sources

end Workplace

end Weave
