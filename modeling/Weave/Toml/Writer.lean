import Weave.Text.Escapes

/-!
# Writing TOML

The text of strings and lists in a document. A string takes the plainest notation that can hold it:
double quotes, then single quotes, then the two triple ones, and escapes only if nothing else is
left.
-/

namespace Weave.Toml

/-- Whether no notation but an escape can hold `c`. -/
def isControl (c : Char) : Bool :=
  (c.toNat < 0x20 && c != '\t' && c != '\n') || c.toNat == 0x7f

/-- Whether a text has `n` characters `c` in a row, of which `seen` stand directly before it. -/
def hasRun (c : Char) (n : Nat) : (seen : Nat) → List Char → Bool
  | seen, [] => n ≤ seen
  | seen, d :: s => n ≤ seen || hasRun c n (if d = c then seen + 1 else 0) s

/-- A code below 256 as an escape. -/
def escapeCode (n : Nat) : List Char :=
  '\\' :: 'u' :: Text.padZeros 4 ((Text.hexDigits n).map Char.toUpper)

/-- A character between double quotes; a quote stays as it is. -/
def escapeChar (c : Char) : List Char :=
  match c with
  | '\x08' => ['\\', 'b']
  | '\t' => ['\\', 't']
  | '\x0c' => ['\\', 'f']
  | '\r' => ['\\', 'r']
  | '\\' => ['\\', '\\']
  | c => if isControl c then escapeCode c.toNat else [c]

/-- A text between double quotes. -/
def escapeBasic (s : List Char) : List Char :=
  s.flatMap fun c => if c = '"' then ['\\', '"'] else escapeChar c

/-- A text between triple double quotes: of quotes in a row, of which `seen` have come, every third
is escaped. -/
def escapeMulti : (seen : Nat) → List Char → List Char
  | _, [] => []
  | seen, c :: s =>
    if c = '"' then
      if seen = 2 then '\\' :: '"' :: escapeMulti 0 s else '"' :: escapeMulti (seen + 1) s
    else escapeChar c ++ escapeMulti 0 s

/-- A string in the plainest notation that can hold it. In triple quotes a text of several lines
starts on a line of its own. -/
def writeString (text : String) : List Char :=
  let s := text.toList
  let control := s.any isControl
  let newline := s.contains '\n'
  let start := if newline then ['\n'] else []
  let double := ['"', '"', '"']
  let single := ['\'', '\'', '\'']
  if !control && !s.contains '\\' && !s.contains '"' && !newline then
    '"' :: escapeBasic s ++ ['"']
  else if !control && !s.contains '\'' && !newline then '\'' :: s ++ ['\'']
  else if !control && !s.contains '\\' && !hasRun '"' 3 0 s then
    double ++ start ++ escapeMulti 0 s ++ double
  else if !control && !hasRun '\'' 3 0 s then single ++ start ++ s ++ single
  else if newline then double ++ start ++ escapeMulti 0 s ++ double
  else '"' :: escapeBasic s ++ ['"']

/-- A list of strings. One of several stands on lines of their own. -/
def writeStrings : List String → List Char
  | [] => ['[', ']']
  | [item] => '[' :: writeString item ++ [']']
  | items =>
    '[' :: '\n' ::
      items.flatMap (fun item => ' ' :: ' ' :: ' ' :: ' ' :: writeString item ++ [',', '\n']) ++
      [']']

/-- A truth value. -/
def writeBool (b : Bool) : List Char :=
  if b then "true".toList else "false".toList

/-- A line that gives a name a value. -/
def writePair (name : String) (value : List Char) : List Char :=
  name.toList ++ " = ".toList ++ value ++ ['\n']

/-- A table with its header. -/
def writeTable (name : String) (pairs : List (String × List Char)) : List Char :=
  '[' :: name.toList ++ [']', '\n'] ++ pairs.flatMap fun pair => writePair pair.1 pair.2

end Weave.Toml
