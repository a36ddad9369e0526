import Weave.CommandLine.Grammar

/-!
# Reading command lines

The words of a command line are read one by one. An option or positional argument stays pending,
with the values that have come, until the next one begins; only then are its values counted and
checked. This fixes which of several mistakes in one line is met first.
-/

namespace Weave.CommandLine

/-- What is known between two words of one command. -/
structure Progress where
  given : Given := []
  /-- The argument that came last, with the values that it has so far. -/
  pending? : Option (Argument × List String) := none
  /-- Whether the next word is a value of the pending option, unless it begins with a dash. -/
  awaiting : Bool := false
  /-- How many positional arguments have come. -/
  position : Nat := 0
  /-- Whether a `--` has come, behind which there are no options. -/
  trailing : Bool := false

/-- The refusal of a value. -/
def Argument.refuse (argument : Argument) (value : String) (reason? : Option String) : Refusal :=
  .usage (reason?.map fun reason => { value, argument := argument.shown, reason })

/-- Checks the values of an argument and adds it to what has been given. -/
def Given.add (given : Given) (argument : Argument) (values : List String) :
    Except Refusal Given :=
  if values.length ≠ argument.use.values then .error (.usage none)
  else if argument.use.once && (given.lookup argument.name).isSome then .error (.usage none)
  else do
    values.forM fun value => (argument.accept value).mapError (argument.refuse value)
    return given ++ [(argument.name, values)]

namespace Progress

/-- Checks the argument that is pending. -/
def settle (p : Progress) : Except Refusal Progress :=
  match p.pending? with
  | none => .ok p
  | some (argument, values) => do
    let given ← Given.add p.given argument values
    return { p with given, pending? := none, awaiting := false }

/-- Takes an option that needs no further word. -/
def complete (p : Progress) (argument : Argument) (values : List String) :
    Except Refusal Progress := do
  let p ← p.settle
  let given ← Given.add p.given argument values
  if argument.use = .display then throw .display
  else return { p with given, awaiting := false }

/-- Takes an option with the value that is attached to it, if there is one. -/
def takeOption (p : Progress) (argument : Argument) (attached? : Option String) :
    Except Refusal Progress :=
  match attached? with
  | some value =>
    if argument.use.values = 0 then .error (.usage none) else p.complete argument [value]
  | none =>
    if argument.use.values = 0 then p.complete argument []
    else do
      let p ← p.settle
      return { p with pending? := some (argument, []), awaiting := true }

/-- Takes an option by its long name. A value may be attached behind an equals sign. -/
def takeLong (p : Progress) (options : List Argument) (word : List Char) :
    Except Refusal Progress :=
  let name := String.ofList (word.takeWhile (· != '='))
  let attached? := match word.dropWhile (· != '=') with
    | _ :: value => some (String.ofList value)
    | [] => none
  match options.find? (·.name = name) with
  | some argument => p.takeOption argument attached?
  | none => .error (.usage none)

/-- Takes options by their short names, which may follow one behind a single dash. What follows the
name of an option with a value is its value, with or without an equals sign between them. -/
def takeShort (p : Progress) (options : List Argument) : List Char → Except Refusal Progress
  | [] => .ok p
  | c :: rest =>
    match options.find? (·.short? = some c) with
    | none => .error (.usage none)
    | some argument =>
      if argument.use.values = 0 then do
        let p ← p.complete argument []
        p.takeShort options rest
      else
        match rest with
        | [] => p.takeOption argument none
        | '=' :: value => p.takeOption argument (some (String.ofList value))
        | value => p.takeOption argument (some (String.ofList value))

/-- Takes a word as a value of the pending option. -/
def takeValue (p : Progress) (word : String) : Progress :=
  match p.pending? with
  | none => p
  | some (argument, values) =>
    let values := values ++ [word]
    { p with pending? := some (argument, values), awaiting := values.length < argument.use.values }

/-- Takes a word as the next positional argument. -/
def takePositional (p : Progress) (positionals : List Argument) (word : String) :
    Except Refusal Progress :=
  match positionals[p.position]? with
  | none => .error (.usage none)
  | some argument => do
    let p ← p.settle
    return { p with
      pending? := some (argument, [word]), awaiting := false, position := p.position + 1 }

/-- Takes a word that names no command. -/
def take (p : Progress) (grammar : Grammar) (word : String) : Except Refusal Progress :=
  if p.trailing then p.takePositional grammar.positionals word
  else
    match word.toList with
    | ['-', '-'] => .ok { p with trailing := true }
    | '-' :: '-' :: option => p.takeLong grammar.options option
    | '-' :: c :: rest => p.takeShort grammar.options (c :: rest)
    | _ =>
      if p.awaiting then .ok (p.takeValue word)
      else p.takePositional grammar.positionals word

/-- Ends a command. Where an option was not given, the value that the environment has for it is
checked as well, and what is required has to be there. -/
def finish (p : Progress) (grammar : Grammar) : Except Refusal Given := do
  let p ← p.settle
  grammar.options.forM fun option =>
    match option.fallback? with
    | some value =>
      if (p.given.lookup option.name).isSome then .ok ()
      else (Given.add p.given option [value]).map fun _ => ()
    | none => .ok ()
  if grammar.positionals.any fun argument =>
      argument.required && (p.given.lookup argument.name).isNone then
    throw (.usage none)
  else return p.given

end Progress

/-- What `help` and the words behind it come to: a text about the command that they name. -/
def helpAbout (grammar : Grammar) : List String → Refusal
  | [] => .display
  | word :: rest =>
    match grammar.command? word with
    | some inner => helpAbout inner rest
    | none => .usage none

/-- Reads the words of one command, of which `p` is already known. -/
def readFrom (grammar : Grammar) (p : Progress) : List String → Except Refusal Matches
  | [] => do
    let given ← p.finish grammar
    if grammar.commands.isEmpty then return { levels := [given] } else throw (.usage none)
  | word :: rest =>
    match if p.trailing || p.awaiting then none else grammar.command? word with
    | some inner =>
      if word = Grammar.helpCommand then .error (helpAbout grammar rest)
      else do
        let found ← readFrom inner {} rest
        let given ← p.finish grammar
        return ⟨word :: found.commands, given :: found.levels⟩
    | none => do
      let p ← p.take grammar word
      readFrom grammar p rest

/-- Reads a command line. -/
def read (grammar : Grammar) (words : List String) : Except Refusal Matches :=
  readFrom grammar {} words

namespace Matches

/-- The values of an argument each time it was given, outer commands first. -/
def all (found : Matches) (name : String) : List (List String) :=
  (found.levels.flatten.filter (·.1 = name)).map (·.2)

/-- Whether an option was given. -/
def has (found : Matches) (name : String) : Bool :=
  !(found.all name).isEmpty

/-- The value of an argument. The innermost command where it was given counts. -/
def value? (found : Matches) (name : String) : Option String :=
  (found.all name).getLast?.bind (·.head?)

end Matches

end Weave.CommandLine
