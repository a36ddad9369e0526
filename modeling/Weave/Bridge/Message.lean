import Weave.Json.Record
import Weave.Json.Writer
import Weave.Text.Escapes

/-!
# Messages of a bridge

The lines that pass between a generation and the process that executes its cells. Each is one JSON
record with a `type`, on a line of its own.
-/

namespace Weave

/-- What is sent to a bridge. -/
inductive Request where
  | execute (sources : List String)
  | shutdown
  deriving DecidableEq, Repr

namespace Request

/-- A request as a record. -/
def toJson : Request → Json
  | .execute sources =>
    .object [("type", .string "execute"), ("cells", .array (sources.map .string))]
  | .shutdown => .object [("type", .string "shutdown")]

/-- A request as it is sent: one line. -/
def line (request : Request) : String :=
  request.toJson.write .compact ++ "\n"

end Request

/-- What a bridge answers. -/
inductive Reply where
  | ready
  | result (outputs : List (List Json))
  | error (message : String)

namespace Reply

open Json (Tree)

/-- The answer that a tree spells. Nothing is expected of the fields of `ready`, but in a list
nothing may follow it. -/
def ofTree? (tree : Tree) : Option Reply := do
  let _ ← tree.value? Json.depthLimit
  let (tag, body) ← tree.tagged? "type"
  match tag with
  | "ready" =>
    match body with
    | .array (_ :: _) => none
    | _ => some .ready
  | "result" =>
    let [some outputs] ← body.record? ["outputs"] | none
    let lists ← outputs.items?
    return .result (← lists.mapM fun list => do
      let items ← list.items?
      items.mapM (Tree.value? Json.depthLimit))
  | "error" =>
    let [some message] ← body.record? ["error"] | none
    return .error (← message.text?)
  | _ => none

/-- Reads an answer. -/
def read? (line : String) : Option Reply := do
  let tree ← Tree.read? line.toList
  ofTree? tree

end Reply

/-! ## Answers in messages -/

/-- Items between two brackets, with commas between them. -/
def listed (opening closing : String) (items : List String) : String :=
  opening ++ ", ".intercalate items ++ closing

mutual

/-- A value as it is shown in a message. -/
def Json.describe : Json → String
  | .null => "Null"
  | .bool true => "Bool(true)"
  | .bool false => "Bool(false)"
  | .int n => "Number(" ++ String.ofList (Json.writeInt n) ++ ")"
  | .float x => "Number(" ++ String.ofList (Json.writeFloat x) ++ ")"
  | .string s => "String(" ++ Text.quote s ++ ")"
  | .array items => "Array " ++ listed "[" "]" (Json.describeItems items)
  | .object fields => "Object " ++ listed "\x7b" "\x7d" (Json.describeFields fields)

/-- The items of an array as they are shown. -/
def Json.describeItems : List Json → List String
  | [] => []
  | item :: items => item.describe :: Json.describeItems items

/-- The fields of an object as they are shown. -/
def Json.describeFields : List (String × Json) → List String
  | [] => []
  | (key, value) :: fields =>
    (Text.quote key ++ ": " ++ value.describe) :: Json.describeFields fields

end

/-- An answer as it is shown in a message. -/
def Reply.describe : Reply → String
  | .ready => "Ready"
  | .result outputs =>
    "Result \x7b outputs: " ++
      listed "[" "]" (outputs.map fun items => listed "[" "]" (Json.describeItems items)) ++ " \x7d"
  | .error message => "Error \x7b error: " ++ Text.quote message ++ " \x7d"

end Weave
