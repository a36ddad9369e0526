import Weave.Command.Run

/-!
# The program

The outermost layer: files are those of the system, settings may be named by the environment, and
the outcome of a command is printed. This program starts no other programs, so that notebooks are
executed only where they have no code.
-/

namespace Weave

/-- Why the system refused a file operation. -/
def FileError.ofSystem : IO.Error → FileError
  | .noFileOrDirectory .. => .notFound
  | .alreadyExists .. => .alreadyExists
  | .inappropriateType _ code _ => if code = 21 then .isDirectory else .notDirectory
  | .invalidArgument _ code details => if code = 36 then .nameTooLong else .other details
  | e => .other (toString e)

/-- A file operation of the system. -/
def onSystem {α : Type} (path : Path) (operation : IO α) : IO (Except FileError α) := do
  if path.text.toList.contains '\x00' then return .error .nulInName
  try return .ok (← operation) catch e => return .error (.ofSystem e)

/-- Whether a path can be opened. -/
def opens (path : Path) : IO Bool := do
  match ← onSystem path (IO.FS.Handle.mk path.text .read) with
  | .ok _ => return true
  | .error _ => return false

instance : Files IO where
  currentDirectory := do
    try return .ok ((Path.mk (toString (← IO.currentDir))).names [])
    catch e => return .error (.ofSystem e)
  isPresent := opens
  isDirectory path := opens (path.join ".")
  readText path := do
    match ← onSystem path (IO.FS.readBinFile path.text) with
    | .error cause => return .error cause
    | .ok content =>
      match String.fromUTF8? content with
      | some text => return .ok text
      | none => return .error .notText
  makeDirectory path := onSystem path (IO.FS.createDir path.text)
  writeText path text := onSystem path (IO.FS.writeFile path.text text)
  moveFile source goal := onSystem goal (IO.FS.rename source.text goal.text)

instance : Bridges IO where
  launch _ := return .error (.other "Operation not supported (os error 95)")

/-- A time in milliseconds as seconds with two places. -/
def seconds (milliseconds : Nat) : String :=
  let hundredths := (milliseconds + 5) / 10
  toString (hundredths / 100) ++ "." ++ toString (hundredths / 10 % 10) ++
    toString (hundredths % 10) ++ "s"

/-- The commands, for whoever asks or goes wrong. -/
def usage : String :=
  "Usage: literate [OPTIONS] <COMMAND>\n\nCommands:\n" ++
  "  markdown  Generate a markdown page\n" ++
  "  notebook  Generate a Jupyter notebook\n" ++
  "  script    Generate a plain script with all prose removed\n" ++
  "  config    Configuration management\n"

end Weave

open Weave in
def main (args : List String) : IO UInt32 := do
  let start ← IO.monoMsNow
  match Invocation.read args (← IO.getEnv "LITERATE_CONFIG") with
  | .error .display =>
    IO.print usage
    return 0
  | .error (.usage bad?) =>
    IO.eprint (bad?.elim usage (·.message))
    return 2
  | .ok invocation =>
    let home := Weave.Path.mk ((← IO.getEnv "HOME").getD "/")
    match ← (invocation.run home fun phase => IO.eprintln phase.name).run with
    | .ok report =>
      IO.print (report.text (seconds ((← IO.monoMsNow) - start)))
      return 0
    | .error failure =>
      IO.eprintln s!"Error: {failure.message}"
      return 1
