import Weave.Error
import Weave.Text.Lines
import Weave.Text.Replace

/-!
# Lines of an annotated script

A line is prose, code, a split, or a directive that keeps the rest of the line for one target.
`Line.read` reads one line, `Line.keptFor` selects what one target sees of a list of lines. A
directive whose rest is again a directive has no meaning for any target.
-/

namespace Weave

/-- What a line of text, or a chunk of them, holds. -/
inductive Kind where
  | markdown
  | code
  deriving DecidableEq, Repr

/-- A line that reads the same for every target. -/
inductive PlainLine where
  /-- A line of prose or code, without the token that marks prose. -/
  | text (kind : Kind) (content : String)
  /-- The end of a chunk, asked for explicitly. -/
  | split
  deriving DecidableEq, Repr

/-- A line of an annotated script. -/
inductive Line where
  | plain (line : PlainLine)
  /-- A line for one target only. -/
  | directive (target : Target) (line : PlainLine)
  /-- A directive around a directive, with what follows the outer token. -/
  | nested (outer inner : Target) (rest : String)
  deriving DecidableEq, Repr

/-- Reads a line that is no directive. One space after the prose token belongs to the token. -/
def PlainLine.read (line : List Char) : PlainLine :=
  match line with
  | '#' :: '-' :: _ => .split
  | '#' :: '\'' :: ' ' :: content => .text .markdown (String.ofList content)
  | '#' :: '\'' :: content => .text .markdown (String.ofList content)
  | line => .text .code (String.ofList line)

/-- The rest of a line after the token of a target, if it starts with that token alone or followed
by a space. -/
def Target.directiveRest? (target : Target) (line : List Char) : Option (List Char) :=
  match Text.afterStart? target.token.toList line with
  | some [] => some []
  | some (' ' :: rest) => some rest
  | _ => none

namespace Line

/-- The target of a directive and the rest of the line, if the line is a directive. -/
def directive? (line : List Char) : Option (Target × List Char) :=
  Target.all.findSome? fun target => (target.directiveRest? line).map (target, ·)

/-- Reads one line. -/
def read (line : String) : Line :=
  match directive? line.toList with
  | none => .plain (.read line.toList)
  | some (target, rest) =>
    match directive? rest with
    | none => .directive target (.read rest)
    | some (inner, _) => .nested target inner (String.ofList rest)

/-- Reads the lines of a text. -/
def readAll (source : String) : List Line :=
  (Text.lines source).map read

/-- What a target sees of a line: the lines for all targets and its own. -/
def keep? (target : Target) : Line → Option PlainLine
  | .plain line => some line
  | .directive own line => if own = target then some line else none
  | .nested .. => none

/-- The targets of a directive around a directive. -/
def nested? : Line → Option (Target × Target)
  | .nested outer inner _ => some (outer, inner)
  | _ => none

/-- The fault for the first directive around a directive, if there is one. -/
def nestedFault? (lines : List Line) : Option Fault :=
  lines.zipIdx.findSome? fun (line, i) =>
    line.nested?.map fun (outer, inner) => .nestedDirective (i + 1) outer inner

/-- The lines that a target sees, each with its position. A directive around a directive is a fault
for every target. -/
def keptFor (target : Target) (lines : List Line) : Except Fault (List (PlainLine × Nat)) :=
  match nestedFault? lines with
  | some fault => .error fault
  | none => .ok (lines.zipIdx.filterMap fun (line, i) => (line.keep? target).map (·, i))

end Line

end Weave
