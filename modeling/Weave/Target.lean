import Weave.Text.Blank

/-!
# Targets

The three artifacts that one annotated script is turned into: their names, the token that
restricts a line to one of them, and the extension of the file that is written.
-/

namespace Weave

/-- The artifact that a run produces. -/
inductive Target where
  | markdown
  | notebook
  | script
  deriving DecidableEq, Repr

namespace Target

/-- All targets, in the order in which their tokens are tried. -/
def all : List Target := [.markdown, .notebook, .script]

theorem mem_all (t : Target) : t ∈ all := by
  cases t <;> simp [all]

/-- The name under which a target appears in messages. -/
def name : Target → String
  | .markdown => "markdown"
  | .notebook => "notebook"
  | .script => "script"

/-- The extension, without its dot, of the file written for a target. -/
def extension : Target → String
  | .markdown => "md"
  | .notebook => "ipynb"
  | .script => "jl"

/-- The token at the start of a line that keeps the line for one target only. -/
def token : Target → String
  | .markdown => "#md"
  | .notebook => "#nb"
  | .script => "#jl"

/-- The spellings under which a target may be asked for. -/
def spellings : Target → List String
  | .markdown => ["markdown", "md"]
  | .notebook => ["notebook", "nb", "ipynb"]
  | .script => ["script", "jl"]

/-- The target that a user asks for by name. Blanks around the name and the case of ASCII letters do
not count. -/
def ofName? (name : String) : Option Target :=
  let wanted := (Text.trim name).toList.map Char.toLower
  all.find? fun t => t.spellings.any fun spelling => spelling.toList == wanted

end Target

end Weave
