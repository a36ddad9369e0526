import Weave.Chunk
import Weave.Json.Basic
import Weave.Settings.Options
import Weave.Prose.CrossReference
import Weave.Prose.MathBlock

/-!
# Notebooks

Cells of prose and code with the metadata that a notebook viewer wants, and the notebook that chunks
make: one cell for each chunk.
-/

namespace Weave

/-- A cell of a notebook. Metadata and outputs are free-form. -/
inductive Cell where
  | markdown (metadata : List (String × Json)) (source : String)
  /-- A code cell with its number, if it has been executed. -/
  | code (metadata : List (String × Json)) (source : String)
      (count? : Option UInt32) (outputs : List Json)

namespace Cell

/-- What a cell holds. -/
def kind : Cell → Kind
  | .markdown .. => .markdown
  | .code .. => .code

/-- The text of a cell. -/
def source : Cell → String
  | .markdown _ source => source
  | .code _ source _ _ => source

/-- A cell of this kind that has just been written. -/
def ofKind (kind : Kind) (source : String) : Cell :=
  match kind with
  | .markdown => .markdown [] source
  | .code => .code [] source none []

@[simp]
theorem kind_ofKind (kind : Kind) (source : String) : (ofKind kind source).kind = kind := by
  cases kind <;> rfl

@[simp]
theorem source_ofKind (kind : Kind) (source : String) : (ofKind kind source).source = source := by
  cases kind <;> rfl

end Cell

/-- The kernel that a notebook asks for. -/
structure KernelSpec where
  displayName : String
  language : String
  name : String
  deriving DecidableEq, Repr

/-- The language of a notebook's code. -/
structure LanguageInfo where
  fileExtension : String
  mimetype : String
  name : String
  deriving DecidableEq, Repr

/-- A notebook in version 4 of the notebook format. -/
structure Notebook where
  cells : List Cell
  kernel : KernelSpec
  language : LanguageInfo
  format : UInt32 := 4
  formatMinor : UInt32 := 2

namespace Notebook

/-- Prose as a notebook shows it: for Documenter, references are reduced to their text and math
blocks become equations. -/
def prose (options : Options) (text : String) : String :=
  if options.documenter then MathBlock.convert (CrossReference.strip text) else text

/-- The cell that a chunk makes. -/
def cellOf (options : Options) (chunk : Chunk) : Cell :=
  match chunk.kind with
  | .markdown => .ofKind .markdown (prose options chunk.content)
  | .code => .ofKind .code chunk.content

/-- The notebook that chunks make. -/
def render (options : Options) (chunks : List Chunk) : Notebook where
  cells := chunks.map (cellOf options)
  kernel := ⟨options.kernelDisplayName, options.language, options.kernelName⟩
  language := ⟨options.fileExtension, "application/" ++ options.language, options.language⟩

/-- The sources of the code cells, in order. -/
def codeSources (notebook : Notebook) : List String :=
  (notebook.cells.filter (·.kind = .code)).map Cell.source

end Notebook

end Weave
