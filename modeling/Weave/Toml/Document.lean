/-!
# TOML documents

The values of a document, and how its entries build one table of them. A table may be spelled in
three ways, and the rules about which table may be extended how depend on the way: a header opens a
table once, a table that headers below it imply may still be opened, and a table that dotted keys
made may be extended by dotted keys only. `Document.add` takes one entry; it fails where a name is
already taken.
-/

namespace Weave

/-- A value in a TOML document. Floats, dates and times are kept as they are spelled. -/
inductive Toml where
  | string (value : String)
  | int (value : Int)
  | float (spelling : String)
  | bool (value : Bool)
  | datetime (spelling : String)
  | array (items : List Toml)
  | table (fields : List (String × Toml))
  deriving Inhabited

namespace Toml

/-- How a table came to be. -/
inductive Origin where
  /-- It has a header, or is the document itself. -/
  | header
  /-- A header of a table inside it implies it. -/
  | implied
  /-- A dotted key made it. -/
  | dotted
  deriving DecidableEq, Repr

/-- What a name stands for while a document is read. -/
inductive Node where
  | value (value : Toml)
  | table (origin : Origin) (fields : List (String × Node))
  /-- A list of tables, of which only the last one can be extended. -/
  | tables (elements : List (List (String × Node)))
  deriving Inhabited

/-- The fields of a table that is being built. -/
abbrev Fields := List (String × Node)

/-- Sets a field. -/
def setField (name : String) (node : Node) : Fields → Fields
  | [] => [(name, node)]
  | field :: rest =>
    if field.1 = name then (name, node) :: rest else field :: setField name node rest

/-- Changes the table at the end of a path and makes the tables on the way to it where they are
missing. A value has no names inside, and dotted keys do not lead through tables with headers. -/
def within (dotted : Bool) (change : Origin → Fields → Option Fields) :
    List String → Origin → Fields → Option Fields
  | [], origin, fields => change origin fields
  | name :: path, _, fields =>
    match fields.lookup name with
    | none => do
      let origin := if dotted then .dotted else .implied
      let inner ← within dotted change path origin []
      return setField name (.table origin inner) fields
    | some (.value _) => none
    | some (.table origin inner) =>
      if dotted ∧ origin = .header then none
      else do
        let inner ← within dotted change path origin inner
        return setField name (.table origin inner) fields
    | some (.tables elements) =>
      match elements.getLast? with
      | none => none
      | some last => do
        let last ← within dotted change path .header last
        return setField name (.tables (elements.dropLast ++ [last])) fields

/-- Adds a value under a dotted key, whose last part is `name`. The name must be free, and a table
that dotted keys lead to must come from dotted keys. -/
def addValue (path : List String) (name : String) (value : Toml) (origin : Origin)
    (fields : Fields) : Option Fields :=
  within true (fun origin fields =>
    if decide (origin = .dotted) = path.isEmpty then none
    else match fields.lookup name with
      | none => some (setField name (.value value) fields)
      | some _ => none) path origin fields

/-- One entry of a document. A path is given by all its parts but the last, and the last. -/
inductive Entry where
  | value (path : List String) (name : String) (value : Toml)
  | header (path : List String) (name : String)
  /-- The header of one more element of a list of tables. -/
  | element (path : List String) (name : String)

/-- What has been read of a document. -/
structure Document where
  fields : Fields := []
  /-- The way to the table that values are added to. -/
  current : List String := []

namespace Document

/-- Takes one entry. -/
def add (document : Document) : Entry → Option Document
  | .value path name value => do
    let fields ← within false (addValue path name value) document.current .header document.fields
    return { document with fields }
  | .header path name => do
    let fields ← within false (fun _ fields =>
      match fields.lookup name with
      | none => some (setField name (.table .header []) fields)
      | some (.table .implied inner) => some (setField name (.table .header inner) fields)
      | some _ => none) path .header document.fields
    return ⟨fields, path ++ [name]⟩
  | .element path name => do
    let fields ← within false (fun _ fields =>
      match fields.lookup name with
      | none => some (setField name (.tables [[]]) fields)
      | some (.tables elements) => some (setField name (.tables (elements ++ [[]])) fields)
      | some _ => none) path .header document.fields
    return ⟨fields, path ++ [name]⟩

end Document

mutual

/-- The value that a node stands for. -/
def Node.toToml : Node → Toml
  | .value value => value
  | .table _ fields => .table (fieldsToToml fields)
  | .tables elements => .array (elementsToToml elements)

/-- The fields of a table as values. -/
def fieldsToToml : List (String × Node) → List (String × Toml)
  | [] => []
  | (name, node) :: fields => (name, node.toToml) :: fieldsToToml fields

/-- The tables of a list as values. -/
def elementsToToml : List (List (String × Node)) → List Toml
  | [] => []
  | fields :: elements => .table (fieldsToToml fields) :: elementsToToml elements

end

/-- The table that entries make. -/
def ofEntries? (entries : List Entry) : Option (List (String × Toml)) := do
  let document ← entries.foldlM Document.add {}
  return fieldsToToml document.fields

/-- The table that the pairs of an inline table make. -/
def ofPairs? (pairs : List (List String × String × Toml)) : Option Toml := do
  let fields ← pairs.foldlM (fun fields (path, name, value) =>
    addValue path name value .header fields) []
  return .table (fieldsToToml fields)

end Toml

end Weave
