import Weave.Json.Number
import Weave.Text.Escapes

/-!
# JSON text

Writing values, either without any space or with one item to a line, indented by one space per
level. Fields are written in the order in which the value holds them.
-/

namespace Weave.Json

/-- A character as it stands in a JSON string. -/
def escapeChar (c : Char) : List Char :=
  match c with
  | '"' => ['\\', '"']
  | '\\' => ['\\', '\\']
  | '\x08' => ['\\', 'b']
  | '\x0c' => ['\\', 'f']
  | '\n' => ['\\', 'n']
  | '\r' => ['\\', 'r']
  | '\t' => ['\\', 't']
  | c => if c.toNat < 0x20 then '\\' :: 'u' :: Text.padZeros 4 (Text.hexDigits c.toNat) else [c]

/-- A JSON string with its quotes. -/
def writeString (s : String) : List Char :=
  '"' :: s.toList.flatMap escapeChar ++ ['"']

/-- How the items of arrays and objects are set apart. -/
structure Layout where
  /-- What stands before an item, or a closing bracket, at a depth. -/
  before : Nat → List Char
  /-- What stands between a key and its value. -/
  colon : List Char

/-- No space at all. -/
def Layout.compact : Layout := ⟨fun _ => [], [':']⟩

/-- One item to a line, indented by one space per level. -/
def Layout.indented : Layout := ⟨fun depth => '\n' :: List.replicate depth ' ', [':', ' ']⟩

mutual

/-- A value at a depth. -/
def writeAt (layout : Layout) (depth : Nat) : Json → List Char
  | .null => "null".toList
  | .bool true => "true".toList
  | .bool false => "false".toList
  | .int n => writeInt n
  | .float x => writeFloat x
  | .string s => writeString s
  | .array [] => ['[', ']']
  | .array (item :: items) =>
    '[' :: layout.before (depth + 1) ++ writeAt layout (depth + 1) item ++
      writeItems layout (depth + 1) items ++ layout.before depth ++ [']']
  | .object [] => ['\x7b', '\x7d']
  | .object ((key, value) :: fields) =>
    '\x7b' :: layout.before (depth + 1) ++ writeString key ++ layout.colon ++
      writeAt layout (depth + 1) value ++
      writeFields layout (depth + 1) fields ++ layout.before depth ++ ['\x7d']

/-- The items of an array behind the first one. -/
def writeItems (layout : Layout) (depth : Nat) : List Json → List Char
  | [] => []
  | item :: items =>
    ',' :: layout.before depth ++ writeAt layout depth item ++ writeItems layout depth items

/-- The fields of an object behind the first one. -/
def writeFields (layout : Layout) (depth : Nat) : List (String × Json) → List Char
  | [] => []
  | (key, value) :: fields =>
    ',' :: layout.before depth ++ writeString key ++ layout.colon ++ writeAt layout depth value ++
      writeFields layout depth fields

end

/-- The text of a value. -/
def write (layout : Layout) (value : Json) : String :=
  String.ofList (writeAt layout 0 value)

end Weave.Json
