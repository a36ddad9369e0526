import Weave.Line
import Weave.Text.Blank

/-!
# Chunks

Lines of one kind that stand together make a chunk. `Chunk.group` reads the lines once, from first
to last: a change of kind, a split and the end close the run of lines that is open; a run loses the
blank lines at its ends and counts only if something is left; a run that follows one of its own kind
with nothing but blank lines between them continues it.
-/

namespace Weave

/-- A run of lines of one kind. -/
structure Chunk where
  kind : Kind
  lines : List String
  deriving DecidableEq, Repr

namespace Chunk

/-- The text of a chunk, without a newline at its end. -/
def content (chunk : Chunk) : String :=
  "\n".intercalate chunk.lines

/-- What is known between two lines. -/
structure Progress where
  /-- The chunks that have been closed, newest first. -/
  closed : List Chunk := []
  /-- The kind and the lines, newest first, of the run that is open. -/
  current? : Option (Kind × List String) := none
  /-- Whether the next run may continue the newest chunk: no split has come since. -/
  joinable : Bool := false

namespace Progress

/-- Adds a run without blank lines at its ends to the closed chunks. -/
def add (p : Progress) (run : Chunk) : List Chunk :=
  match p.closed with
  | last :: older =>
    if p.joinable && last.kind = run.kind then
      ⟨last.kind, last.lines ++ "" :: run.lines⟩ :: older
    else run :: last :: older
  | [] => [run]

/-- Closes the run that is open. -/
def close (p : Progress) : Progress :=
  match p.current? with
  | none => p
  | some (kind, lines) =>
    match Text.trimBlankLines lines.reverse with
    | [] => { p with current? := none }
    | lines => { closed := p.add ⟨kind, lines⟩, current? := none, joinable := true }

/-- Takes one line. -/
def take (p : Progress) : PlainLine → Progress
  | .split => { p.close with joinable := false }
  | .text kind content =>
    match p.current? with
    | some (present, lines) =>
      if present = kind then { p with current? := some (kind, content :: lines) }
      else { p.close with current? := some (kind, [content]) }
    | none => { p with current? := some (kind, [content]) }

end Progress

/-- The chunks that lines make. -/
def group (lines : List PlainLine) : List Chunk :=
  (lines.foldl Progress.take {}).close.closed.reverse

/-- The chunks of a text, as one target sees it. -/
def parse (source : String) (target : Target) : Except Fault (List Chunk) := do
  let kept ← Line.keptFor target (Line.readAll source)
  return group (kept.map (·.1))

end Chunk

end Weave
