import Weave.Json.Reader

/-!
# Records in JSON text

Reading the fields of a record out of a tree. Fields may come in any order and unknown ones are
ignored, whatever they hold, but no known field may come twice. A list of all values in order is
taken for the record as well, and a tagged record is known by one of its fields or, as a list, by
its first value.
-/

namespace Weave.Json.Tree

/-- The fields of a record by name: for each name its value, if the record has it. A record is an
object whose keys are all text and in which no name repeats, or the list of all its values in
order. -/
def record? (names : List String) : Tree → Option (List (Option Tree))
  | .object fields => do
    let fields ← fields.mapM fun (key?, value) => key?.map (·, value)
    names.mapM fun name =>
      match fields.filter (·.1 = name) with
      | [] => some none
      | [field] => some (some field.2)
      | _ => none
  | .array items => if items.length = names.length then some (items.map some) else none
  | _ => none

/-- A string that is text. -/
def text? : Tree → Option String
  | .string value? => value?
  | _ => none

/-- An integer of 32 bits without sign. -/
def uint32? : Tree → Option UInt32
  | .number numeral =>
    match numeral.value? with
    | some (.int n) => if 0 ≤ n ∧ n < Int.pow 2 32 then some (UInt32.ofNat n.toNat) else none
    | _ => none
  | _ => none

/-- A list. -/
def items? : Tree → Option (List Tree)
  | .array items => some items
  | _ => none

/-- An object of free form. -/
def freeFields? (tree : Tree) : Option (List (String × Json)) :=
  match tree.value? depthLimit with
  | some (.object fields) => some fields
  | _ => none

/-- The tag of a tagged record, and the record without it. The tag is the field with this name,
which may not repeat, or the first value of a list. -/
def tagged? (name : String) : Tree → Option (String × Tree)
  | .object fields =>
    match fields.partition (·.1 = some name) with
    | ([(_, .string (some tag))], rest) => some (tag, .object rest)
    | _ => none
  | .array (.string (some tag) :: rest) => some (tag, .array rest)
  | _ => none

end Weave.Json.Tree
