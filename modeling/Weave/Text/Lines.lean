import Weave.Text.Blank

/-!
# Lines

A text is cut into pieces at its newlines. Two readings of the pieces live here: `lines`, which
drops the newlines together with a carriage return directly before each, and `linesWithEnds`, which
keeps them and so loses nothing. `unlines` puts ends back. `unifyNewlines` turns the two-character
line ends of a text into single newlines.
-/

namespace Weave.Text

/-- The pieces of a text between its newlines; there is one more of them than of newlines. -/
def pieces (s : String) : List (List Char) :=
  s.toList.splitOn '\n'

/-- A piece without the carriage return that ends it, if one does. -/
def dropReturn (piece : List Char) : List Char :=
  if piece.getLast? = some '\r' then piece.dropLast else piece

/-- Reads every piece but the last with `ended`; the last one, which no newline follows, stays as
it is and counts only if it holds something. -/
def readPieces (ended : List Char → List Char) : List (List Char) → List String
  | [] => []
  | [last] => if last.isEmpty then [] else [String.ofList last]
  | piece :: rest => String.ofList (ended piece) :: readPieces ended rest

/-- The lines of a text without their ends. A carriage return goes only together with the newline
that follows it. -/
def lines (s : String) : List String :=
  readPieces dropReturn (pieces s)

/-- The lines of a text, each but possibly the last with the newline that ends it. -/
def linesWithEnds (s : String) : List String :=
  readPieces (· ++ ['\n']) (pieces s)

/-- A text of lines, each with this ending. -/
def unlines (ending : String) (lines : List String) : String :=
  String.join (lines.map (· ++ ending))

/-- Every carriage return and newline in a row become one newline. -/
def unifyNewlineChars : List Char → List Char
  | '\r' :: '\n' :: rest => '\n' :: unifyNewlineChars rest
  | c :: rest => c :: unifyNewlineChars rest
  | [] => []

@[inherit_doc unifyNewlineChars]
def unifyNewlines (s : String) : String :=
  String.ofList (unifyNewlineChars s.toList)

/-- A text with exactly one newline at its end. -/
def endWithNewline (s : String) : String :=
  String.ofList (dropTrailing (· == '\n') s.toList ++ ['\n'])

end Weave.Text
