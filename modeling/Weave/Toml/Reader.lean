import Weave.Toml.Document
import Weave.Toml.Numbers
import Weave.Toml.Strings

/-!
# Reading TOML

From the text of a document to its table. Keys have fewer than eighty parts, and lists and inline
tables stand in one another fewer than eighty deep.
-/

namespace Weave.Toml

/-- How many parts a key may have, and how deep lists and inline tables may stand in one another. -/
def nestingLimit : Nat := 79

/-- The text without the blanks at its front. -/
def skipBlanks (s : List Char) : List Char :=
  s.dropWhile fun c => c == ' ' || c == '\t'

/-- The characters of a key without quotes. -/
def isBareChar (c : Char) : Bool :=
  c.isAlphanum || c == '-' || c == '_'

/-- One part of a key. -/
def readName (s : List Char) : Option (String × List Char) :=
  match s with
  | '"' :: rest => (readBasic rest).map fun (name, rest) => (String.ofList name, rest)
  | '\'' :: rest => (readLiteral rest).map fun (name, rest) => (String.ofList name, rest)
  | s =>
    match s.takeWhile isBareChar with
    | [] => none
    | name => some (String.ofList name, s.dropWhile isBareChar)

/-- A key with at most `room` parts: all of them but the last, the last, and what follows the blanks
behind the key. -/
def readKey : (room : Nat) → List Char → Option (List String × String × List Char)
  | 0, _ => none
  | room + 1, s => do
    let (name, rest) ← readName (skipBlanks s)
    match skipBlanks rest with
    | '.' :: rest =>
      let (path, last, rest) ← readKey room rest
      return (name :: path, last, rest)
    | rest => return ([], name, rest)

/-- The text without the blanks, newlines and comments at its front. The flag tells whether it
starts inside a comment. -/
def skipFill : (inComment : Bool) → List Char → List Char
  | _, [] => []
  | _, '\n' :: s => skipFill false s
  | _, '\r' :: '\n' :: s => skipFill false s
  | true, c :: s => if isTextChar c then skipFill true s else c :: s
  | false, ' ' :: s => skipFill false s
  | false, '\t' :: s => skipFill false s
  | false, '#' :: s => skipFill true s
  | false, s => s

mutual

/-- The value at the front of a text. Every step takes at least one character, so that `fuel`
characters can be read with that much fuel. -/
def readValue (fuel depth : Nat) (s : List Char) : Option (Toml × List Char) :=
  match fuel with
  | 0 => none
  | fuel + 1 =>
    match s with
    | '"' :: _ => (readString s).map fun (text, rest) => (.string text, rest)
    | '\'' :: _ => (readString s).map fun (text, rest) => (.string text, rest)
    | '[' :: rest =>
      match depth with
      | 0 => none
      | depth + 1 => (readItems fuel depth rest).map fun (items, rest) => (.array items, rest)
    | '\x7b' :: rest =>
      match depth with
      | 0 => none
      | depth + 1 =>
        match skipBlanks rest with
        | '\x7d' :: rest => some (.table [], rest)
        | _ => do
          let (pairs, rest) ← readPairs fuel depth rest
          return (← ofPairs? pairs, rest)
    | 't' :: 'r' :: 'u' :: 'e' :: rest => some (.bool true, rest)
    | 'f' :: 'a' :: 'l' :: 's' :: 'e' :: rest => some (.bool false, rest)
    | s => readNumber s

/-- The items of a list up to its closing bracket. A comma may stand behind the last one. -/
def readItems (fuel depth : Nat) (s : List Char) : Option (List Toml × List Char) :=
  match fuel with
  | 0 => none
  | fuel + 1 =>
    match skipFill false s with
    | ']' :: rest => some ([], rest)
    | s => do
      let (item, rest) ← readValue fuel depth s
      match skipFill false rest with
      | ']' :: rest => return ([item], rest)
      | ',' :: rest =>
        let (items, rest) ← readItems fuel depth rest
        return (item :: items, rest)
      | _ => none

/-- The pairs of an inline table that is not empty, up to its closing brace. -/
def readPairs (fuel depth : Nat) (s : List Char) :
    Option (List (List String × String × Toml) × List Char) :=
  match fuel with
  | 0 => none
  | fuel + 1 => do
    let (path, name, rest) ← readKey nestingLimit s
    let rest ← expect '=' rest
    let (value, rest) ← readValue fuel depth (skipBlanks rest)
    match skipBlanks rest with
    | '\x7d' :: rest => return ([(path, name, value)], rest)
    | ',' :: rest =>
      let (pairs, rest) ← readPairs fuel depth rest
      return ((path, name, value) :: pairs, rest)
    | _ => none

end

/-- What follows the end of a line, read behind all that counts on it. -/
def afterLine? (s : List Char) : Option (List Char) :=
  let rest := match skipBlanks s with
    | '#' :: comment => comment.dropWhile isTextChar
    | rest => rest
  match rest with
  | [] => some []
  | '\n' :: rest => some rest
  | '\r' :: '\n' :: rest => some rest
  | _ => none

/-- The entries of a document. Every line takes at least one character. -/
def readEntries (fuel : Nat) (s : List Char) : Option (List Entry) :=
  match fuel with
  | 0 => none
  | fuel + 1 =>
    match skipBlanks s with
    | [] => some []
    | '[' :: '[' :: rest => do
      let (path, name, rest) ← readKey nestingLimit rest
      let rest ← afterLine? (← expect ']' (← expect ']' rest))
      let entries ← readEntries fuel rest
      return .element path name :: entries
    | '[' :: rest => do
      let (path, name, rest) ← readKey nestingLimit rest
      let rest ← afterLine? (← expect ']' rest)
      let entries ← readEntries fuel rest
      return .header path name :: entries
    | s =>
      match afterLine? s with
      | some rest => readEntries fuel rest
      | none => do
        let (path, name, rest) ← readKey nestingLimit s
        let (value, rest) ← readValue rest.length nestingLimit (skipBlanks (← expect '=' rest))
        let rest ← afterLine? rest
        let entries ← readEntries fuel rest
        return .value path name value :: entries

/-- The text without a byte order mark at its front. -/
def dropMark : List Char → List Char
  | '\ufeff' :: s => s
  | s => s

/-- The table that a document spells. -/
def read? (text : String) : Option (List (String × Toml)) := do
  let s := dropMark text.toList
  let entries ← readEntries (s.length + 1) s
  ofEntries? entries

end Weave.Toml
