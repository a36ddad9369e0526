import Weave.Json.Tree

/-!
# Reading JSON values

The second step of reading: the value of a tree. All its strings have to be text and all its
numbers in range, objects are put in order, and containers may stand in one another only as deep as
the given budget.
-/

namespace Weave.Json

/-- How deep containers may stand in one another in a text that is read. -/
def depthLimit : Nat := 127

namespace Tree

mutual

/-- The value of a tree whose containers are at most `depth` deep. -/
def value? (depth : Nat) : Tree → Option Json
  | .null => some .null
  | .bool b => some (.bool b)
  | .number n => n.value?
  | .string value? => value?.map .string
  | .array items =>
    match depth with
    | 0 => none
    | depth + 1 => (values? depth items).map .array
  | .object fields =>
    match depth with
    | 0 => none
    | depth + 1 => (fieldValues? depth fields).map fun fields => .object (sortFields fields)

/-- The values of trees. -/
def values? (depth : Nat) : List Tree → Option (List Json)
  | [] => some []
  | item :: items => do
    let item ← value? depth item
    let items ← values? depth items
    return item :: items

/-- The fields of an object in the order of the text. -/
def fieldValues? (depth : Nat) : List (Option String × Tree) → Option (List (String × Json))
  | [] => some []
  | (key?, value) :: fields => do
    let key ← key?
    let value ← value? depth value
    let fields ← fieldValues? depth fields
    return (key, value) :: fields

end

end Tree

/-- The value that a text spells. -/
def read? (s : String) : Option Json := do
  let tree ← Tree.read? s.toList
  tree.value? depthLimit

end Weave.Json
