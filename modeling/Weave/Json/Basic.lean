/-!
# JSON values

Values as they are held after reading. The fields of an object stand in the order in which they are
written; objects whose content is free are kept with their keys in increasing order, which
`Json.insertField` maintains, and the last of several equal keys wins.
-/

namespace Weave

/-- A JSON value. -/
inductive Json where
  | null
  | bool (value : Bool)
  | int (value : Int)
  | float (value : Float)
  | string (value : String)
  | array (items : List Json)
  | object (fields : List (String × Json))
  deriving Inhabited

namespace Json

/-- Sets a field among fields that are in increasing order of their keys. -/
def insertField (key : String) (value : Json) : List (String × Json) → List (String × Json)
  | [] => [(key, value)]
  | field :: rest =>
    if key < field.1 then (key, value) :: field :: rest
    else if key = field.1 then (key, value) :: rest
    else field :: insertField key value rest

/-- Puts fields in increasing order of their keys. The last of several fields with one key stays. -/
def sortFields (fields : List (String × Json)) : List (String × Json) :=
  fields.foldl (fun sorted field => insertField field.1 field.2 sorted) []

end Json

end Weave
