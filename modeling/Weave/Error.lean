import Weave.Path
import Weave.Target
import Weave.Text.Escapes

/-!
# Errors

What can go wrong in a generation, and at which step. An error is a fault together with the step
that met it, if one has been named; `Error.message` is the text a user sees.
-/

namespace Weave

/-- The steps of a generation. -/
inductive Step where
  | read
  | preprocess
  | filter
  | postprocess
  | execute
  | write
  deriving DecidableEq, Repr

/-- The name of a step in messages. -/
def Step.name : Step → String
  | .read => "read"
  | .preprocess => "preprocess"
  | .filter => "filter"
  | .postprocess => "postprocess"
  | .execute => "execute"
  | .write => "write"

/-- The two moments at which a user's hook runs. -/
inductive HookMoment where
  | before
  | after
  deriving DecidableEq, Repr

/-- The name of a moment in messages. -/
def HookMoment.name : HookMoment → String
  | .before => "preprocess"
  | .after => "postprocess"

/-- Why a file or directory could not be used. -/
inductive FileError where
  | notFound
  | alreadyExists
  | notDirectory
  | isDirectory
  | nameTooLong
  | notText
  | emptyPath
  | nulInName
  /-- A whole chain of directories was asked for below nothing. -/
  | noParent
  /-- Any other cause, in the words of whoever reports it. -/
  | other (text : String)
  deriving DecidableEq, Repr

/-- The text of a cause. -/
def FileError.message : FileError → String
  | .notFound => "No such file or directory (os error 2)"
  | .alreadyExists => "File exists (os error 17)"
  | .notDirectory => "Not a directory (os error 20)"
  | .isDirectory => "Is a directory (os error 21)"
  | .nameTooLong => "File name too long (os error 36)"
  | .notText => "stream did not contain valid UTF-8"
  | .emptyPath => "cannot make an empty path absolute"
  | .nulInName => "file name contained an unexpected NUL byte"
  | .noParent => "failed to create whole tree"
  | .other text => text

/-- What went wrong. -/
inductive Fault where
  /-- No target has this name. -/
  | invalidTarget (name : String)
  /-- A user's hook refused its input. -/
  | hook (moment : HookMoment) (message : String)
  /-- In line `line`, counted from one, a directive wraps a directive. -/
  | nestedDirective (line : Nat) (outer inner : Target)
  | config (message : String)
  | file (path : Path) (cause : FileError)
  | serialization (message : String)
  | execution (message : String)
  deriving DecidableEq, Repr

/-- The text of a fault. -/
def Fault.message : Fault → String
  | .invalidTarget name => s!"invalid target '{name}': expected markdown, notebook, or script"
  | .hook moment message => s!"{moment.name} hook failed: {message}"
  | .nestedDirective line outer inner =>
    "line " ++ toString line ++ ": `" ++ outer.token ++ "` wraps `" ++ inner.token ++
      "`, nested directives are not supported"
  | .config message => s!"config error: {message}"
  | .file path cause => s!"I/O error at {Text.quote path.text}: {cause.message}"
  | .serialization message => s!"serialization error: {message}"
  | .execution message => s!"execution error: {message}"

/-- A fault and the step that met it. -/
structure Error where
  fault : Fault
  step? : Option Step := none
  deriving DecidableEq, Repr

namespace Error

/-- Names the step that met an error. The step that was named first stays. -/
def atStep (e : Error) (step : Step) : Error :=
  { e with step? := e.step?.or (some step) }

/-- The text of an error: its step, if it has one, and its fault. -/
def message (e : Error) : String :=
  match e.step? with
  | some step => s!"{step.name} step failed: {e.fault.message}"
  | none => e.fault.message

@[simp]
theorem fault_atStep (e : Error) (step : Step) : (e.atStep step).fault = e.fault := rfl

theorem step?_atStep (e : Error) (step : Step) :
    (e.atStep step).step? = some (e.step?.getD step) := by
  cases h : e.step? <;> simp [atStep, h]

end Error

/-- The target that a user asks for by name, or the fault that says there is none. -/
def Target.ofName (name : String) : Except Fault Target :=
  match Target.ofName? name with
  | some target => .ok target
  | none => .error (.invalidTarget name)

end Weave
