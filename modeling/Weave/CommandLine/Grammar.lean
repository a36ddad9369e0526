import Weave.Text.ControlSequence

/-!
# Command line grammars

What a command accepts: options, which may stand anywhere, positional arguments, which are told
apart by their order, and commands below it, each with a grammar of its own.
-/

namespace Weave.CommandLine

/-- How an argument is given. -/
inductive Use where
  /-- An option without value, given at most once. -/
  | flag
  /-- An option without value, given any number of times. -/
  | counter
  /-- An argument with one value, given at most once. -/
  | single
  /-- An option with so many values each time, given any number of times. -/
  | repeated (values : Nat)
  /-- An option that asks for a text about the program instead of a run. -/
  | display
  deriving DecidableEq, Repr

/-- How many values an argument has each time it is given. -/
def Use.values : Use → Nat
  | .flag | .counter | .display => 0
  | .single => 1
  | .repeated n => n

/-- Whether an argument may be given once only. -/
def Use.once : Use → Bool
  | .flag | .single => true
  | _ => false

/-- An option or a positional argument. -/
structure Argument where
  /-- The name behind the two dashes of an option, or the name of a positional argument. -/
  name : String
  short? : Option Char := none
  use : Use
  /-- Accepts a value, or refuses it, with or without a reason. -/
  accept : String → Except (Option String) Unit := fun _ => .ok ()
  /-- The argument as it is shown in a message. -/
  shown : String := ""
  /-- The value that the environment gives if the command line does not. -/
  fallback? : Option String := none
  /-- Whether a command without the argument is refused. -/
  required : Bool := false

/-- What a command accepts. -/
inductive Grammar where
  | mk (options positionals : List Argument) (commands : List (String × Grammar))

namespace Grammar

/-- The options of a command. -/
def options : Grammar → List Argument
  | mk options _ _ => options

/-- The positional arguments of a command, in order. -/
def positionals : Grammar → List Argument
  | mk _ positionals _ => positionals

/-- The commands below a command. -/
def commands : Grammar → List (String × Grammar)
  | mk _ _ commands => commands

/-- The command `help`, which every command with commands below it has as well. -/
def helpCommand : String := "help"

/-- The command of this name below a command. -/
def command? (grammar : Grammar) (name : String) : Option Grammar :=
  match grammar.commands with
  | [] => none
  | commands => if name = helpCommand then some (mk [] [] []) else commands.lookup name

end Grammar

/-- A value that was refused with a reason. -/
structure BadValue where
  value : String
  /-- The argument as it is shown. -/
  argument : String
  reason : String
  deriving DecidableEq, Repr

namespace BadValue

/-- What the message about a bad value ends with, before the option that it names. -/
def hint : String := "\n\nFor more information, try '"

/-- The option that the message about a bad value names, up to its end. -/
def hintOption : String := "--help'.\n"

/-- The message about a bad value, as plain text. The value and the option of the hint are set off
from what stands around them. So nothing that the quoted value begins goes on behind it, and what
the reason begins goes on through the hint up to the option. -/
def message (bad : BadValue) : String :=
  "error: invalid value '" ++ Text.withoutControls bad.value ++ "' for '" ++ bad.argument ++
    "': " ++ Text.withoutControls (bad.reason ++ hint) ++ hintOption

end BadValue

/-- Why a command line is not run. -/
inductive Refusal where
  /-- It asks for a text about the program. -/
  | display
  /-- It does not fit the grammar. What is known of a value that was refused with a reason is
  kept. -/
  | usage (bad? : Option BadValue)
  deriving DecidableEq, Repr

/-- The arguments of one command in the order in which they were given, each with its values. -/
abbrev Given := List (String × List String)

/-- A command line that fits a grammar: the names of the commands, outermost first, and for each
level of commands, the one without a name included, what was given there. -/
structure Matches where
  commands : List String := []
  levels : List Given
  deriving DecidableEq, Repr

end Weave.CommandLine
