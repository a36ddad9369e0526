import Weave.Json.Record
import Weave.Json.Writer
import Weave.Notebook.Basic
import Weave.Text.Lines

/-!
# Notebook files

A notebook as JSON text. Writing gives every record its fields in one fixed order and a cell's
source as a list of lines. Reading takes fields in any order and ignores those it does not know,
accepts a list in place of a record, and a source as one string or as any list of strings.
-/

namespace Weave

/-! ## Writing -/

/-- The lines of a source, each with the newline that ends it. -/
def Cell.sourceLines (source : String) : Json :=
  .array ((Text.linesWithEnds source).map .string)

/-- The number of a cell, null if it has none. -/
def Cell.countJson : Option UInt32 → Json
  | some count => .int count.toNat
  | none => .null

/-- A cell as it is written. -/
def Cell.toJson : Cell → Json
  | .markdown metadata source =>
    .object [("cell_type", .string "markdown"), ("metadata", .object metadata),
      ("source", sourceLines source)]
  | .code metadata source count? outputs =>
    .object [("cell_type", .string "code"),
      ("execution_count", countJson count?),
      ("metadata", .object metadata), ("outputs", .array outputs), ("source", sourceLines source)]

/-- The kernel as it is written. -/
def KernelSpec.toJson (kernel : KernelSpec) : Json :=
  .object [("display_name", .string kernel.displayName), ("language", .string kernel.language),
    ("name", .string kernel.name)]

/-- The language as it is written. -/
def LanguageInfo.toJson (language : LanguageInfo) : Json :=
  .object [("file_extension", .string language.fileExtension),
    ("mimetype", .string language.mimetype), ("name", .string language.name)]

namespace Notebook

/-- A notebook as it is written. -/
def toJson (notebook : Notebook) : Json :=
  .object [
    ("cells", .array (notebook.cells.map Cell.toJson)),
    ("metadata", .object [("kernelspec", notebook.kernel.toJson),
      ("language_info", notebook.language.toJson)]),
    ("nbformat", .int notebook.format.toNat),
    ("nbformat_minor", .int notebook.formatMinor.toNat)]

/-- The text of a notebook file: one item to a line, and a newline at the end. -/
def write (notebook : Notebook) : String :=
  notebook.toJson.write .indented ++ "\n"

end Notebook

/-! ## Reading -/

open Json (Tree)

namespace Cell

/-- A source: one string, or the strings that make it. -/
def readSource? : Tree → Option String
  | .string value? => value?
  | .array items => (items.mapM Tree.text?).map String.join
  | _ => none

/-- Metadata, empty if left out. -/
def readMetadata? : Option Tree → Option (List (String × Json))
  | none => some []
  | some tree => tree.freeFields?

/-- The number of a cell; left out and null are the same. -/
def readCount? : Option Tree → Option (Option UInt32)
  | none | some .null => some none
  | some tree => tree.uint32?.map some

/-- Outputs, empty if left out. -/
def readOutputs? : Option Tree → Option (List Json)
  | none => some []
  | some tree => do
    let items ← tree.items?
    items.mapM (Tree.value? Json.depthLimit)

/-- The fields of a markdown cell. -/
def readMarkdown? (body : Tree) : Option Cell := do
  let [metadata?, some source] ← body.record? ["metadata", "source"] | none
  return .markdown (← readMetadata? metadata?) (← readSource? source)

/-- The fields of a code cell. A list has to give the count, be it null. -/
def readCode? (body : Tree) : Option Cell := do
  let [count?, metadata?, outputs?, some source] ←
    body.record? ["execution_count", "metadata", "outputs", "source"] | none
  return .code (← readMetadata? metadata?) (← readSource? source) (← readCount? count?)
    (← readOutputs? outputs?)

/-- A cell. All of it, what is ignored included, has to be a value at most `depth` deep. -/
def read? (depth : Nat) (tree : Tree) : Option Cell := do
  let _ ← tree.value? depth
  let (tag, body) ← tree.tagged? "cell_type"
  match tag with
  | "markdown" => readMarkdown? body
  | "code" => readCode? body
  | _ => none

end Cell

/-- The kernel that a notebook asks for. -/
def KernelSpec.read? (tree : Tree) : Option KernelSpec := do
  let [some displayName, some language, some name] ←
    tree.record? ["display_name", "language", "name"] | none
  return ⟨← displayName.text?, ← language.text?, ← name.text?⟩

/-- The language of a notebook. -/
def LanguageInfo.read? (tree : Tree) : Option LanguageInfo := do
  let [some fileExtension, some mimetype, some name] ←
    tree.record? ["file_extension", "mimetype", "name"] | none
  return ⟨← fileExtension.text?, ← mimetype.text?, ← name.text?⟩

namespace Notebook

/-- The notebook that a tree spells. The cells stand two containers deep. -/
def ofTree? (tree : Tree) : Option Notebook := do
  let [some cells, some metadata, some format, some formatMinor] ←
    tree.record? ["cells", "metadata", "nbformat", "nbformat_minor"] | none
  let [some kernel, some language] ← metadata.record? ["kernelspec", "language_info"] | none
  let cells ← cells.items?
  return {
    cells := ← cells.mapM (Cell.read? (Json.depthLimit - 2))
    kernel := ← KernelSpec.read? kernel
    language := ← LanguageInfo.read? language
    format := ← format.uint32?
    formatMinor := ← formatMinor.uint32? }

/-- Reads the text of a notebook file. -/
def read? (text : String) : Option Notebook := do
  let tree ← Tree.read? text.toList
  ofTree? tree

end Notebook

end Weave
