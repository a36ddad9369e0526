import Mathlib.Logic.Function.Iterate
import Weave.Notebook.Format
import Weave.Proofs.Json.Record
import Weave.Proofs.Text.Lines

/-!
# Notebooks read back from their files

What a cell is written as holds its free-form parts two containers deeper, and a notebook holds its
cells two containers deeper again (`kept_toJson`). So a notebook is read back from its file if the
free-form parts of its cells are values that reading keeps, at least four containers less deep than
reading allows (`read?_write_eq_some`).
-/

namespace Weave

open Json (tree depthLimit)

/-! ## Cells -/

namespace Cell

/-- A cell that a file gives back as it is: its metadata and its outputs are kept, and the values in
them are at most `depth` deep. -/
inductive Kept (depth : ℕ) : Cell → Prop
  | markdown {metadata : List (String × Json)} (source : String)
      (hmetadata : Json.Kept (depth + 1) (.object metadata)) :
      Kept depth (.markdown metadata source)
  | code {metadata : List (String × Json)} (source : String) (count? : Option UInt32)
      {outputs : List Json} (hmetadata : Json.Kept (depth + 1) (.object metadata))
      (houtputs : Json.Kept (depth + 1) (.array outputs)) :
      Kept depth (.code metadata source count? outputs)

variable {depth : ℕ} {cell : Cell}

/-- A source is written as strings, which are kept. -/
theorem kept_sourceLines (source : String) : Json.Kept (depth + 1) (sourceLines source) := by
  refine .array fun line hline => ?_
  obtain ⟨s, -, rfl⟩ := List.mem_map.1 hline
  exact .string depth s

theorem kept_count (count : UInt32) : Json.Kept depth (.int count.toNat) := by
  have hlt := count.toNat_lt
  exact .int depth (by omega) (by omega)

theorem kept_countJson (count? : Option UInt32) : Json.Kept depth (countJson count?) := by
  cases count? with
  | none => exact .null depth
  | some count => exact kept_count count

/-- The record of a cell is two containers deeper than the values in it. -/
theorem Kept.toJson (h : cell.Kept depth) : Json.Kept (depth + 2) cell.toJson := by
  cases h with
  | markdown source hmetadata =>
    exact .record ["cell_type", "metadata", "source"] rfl (by decide)
      ⟨.string _ _, hmetadata, kept_sourceLines source⟩
  | code source count? hmetadata houtputs =>
    exact .record ["cell_type", "execution_count", "metadata", "outputs", "source"] rfl (by decide)
      ⟨.string _ _, kept_countJson count?, hmetadata, houtputs, kept_sourceLines source⟩

/-- A source is read from the lines that it is written as. -/
theorem readSource?_tree (source : String) :
    readSource? (tree (sourceLines source)) = some source := by
  have hlines : (Json.trees ((Text.linesWithEnds source).map .string)).mapM Json.Tree.text?
      = some (Text.linesWithEnds source) := Json.mapM_trees fun _ _ => rfl
  rw [sourceLines, tree, readSource?, hlines, Option.map_some, Text.join_linesWithEnds]

theorem readMetadata?_tree {metadata : List (String × Json)}
    (h : Json.Kept depthLimit (.object metadata)) :
    readMetadata? (some (tree (.object metadata))) = some metadata :=
  Json.freeFields?_tree h

theorem readOutputs?_tree {outputs : List Json}
    (h : ∀ output ∈ outputs, Json.Kept depthLimit output) :
    readOutputs? (some (tree (.array outputs))) = some outputs := by
  have hread : (Json.trees (outputs.map id)).mapM (Json.Tree.value? depthLimit) = some outputs :=
    Json.mapM_trees fun output houtput => Json.value?_tree (h output houtput)
  rw [List.map_id] at hread
  exact hread

theorem readCount?_tree (count? : Option UInt32) :
    readCount? (some (tree (countJson count?))) = some count? := by
  cases count? with
  | none => rfl
  | some count =>
    show (tree (.int count.toNat)).uint32?.map some = some (some count)
    rw [Json.uint32?_tree, Option.map_some]

/-- A cell of prose is read from the fields that it is written with. -/
theorem readMarkdown?_tree {metadata : List (String × Json)} (source : String)
    (hmetadata : Json.Kept depthLimit (.object metadata)) :
    readMarkdown? (tree (.object [("metadata", .object metadata), ("source", sourceLines source)]))
      = some (.markdown metadata source) := by
  have hrecord : (tree (.object [("metadata", .object metadata),
        ("source", sourceLines source)])).record? ["metadata", "source"]
      = some [some (tree (.object metadata)), some (tree (sourceLines source))] :=
    Json.record?_tree (Json.pairwise_of_keys ["metadata", "source"] rfl (by decide))
  rw [readMarkdown?, hrecord]
  show (readMetadata? (some (tree (.object metadata)))).bind _ = _
  rw [readMetadata?_tree hmetadata, Option.bind_some, readSource?_tree]
  rfl

/-- A code cell is read from the fields that it is written with. -/
theorem readCode?_tree {metadata : List (String × Json)} {outputs : List Json} (source : String)
    (count? : Option UInt32) (hmetadata : Json.Kept depthLimit (.object metadata))
    (houtputs : ∀ output ∈ outputs, Json.Kept depthLimit output) :
    readCode? (tree (.object [("execution_count", countJson count?),
        ("metadata", .object metadata), ("outputs", .array outputs),
        ("source", sourceLines source)]))
      = some (.code metadata source count? outputs) := by
  have hrecord : (tree (.object [("execution_count", countJson count?),
        ("metadata", .object metadata), ("outputs", .array outputs),
        ("source", sourceLines source)])).record?
          ["execution_count", "metadata", "outputs", "source"]
      = some [some (tree (countJson count?)), some (tree (.object metadata)),
          some (tree (.array outputs)), some (tree (sourceLines source))] :=
    Json.record?_tree (Json.pairwise_of_keys
      ["execution_count", "metadata", "outputs", "source"] rfl (by decide))
  rw [readCode?, hrecord]
  show (readMetadata? (some (tree (.object metadata)))).bind _ = _
  rw [readMetadata?_tree hmetadata, Option.bind_some, readSource?_tree]
  show (readCount? (some (tree (countJson count?)))).bind _ = _
  rw [readCount?_tree, Option.bind_some, readOutputs?_tree houtputs]
  rfl

/-- A cell is read back from its tree. -/
theorem read?_tree (h : cell.Kept depth) (hdepth : depth + 4 ≤ depthLimit) :
    read? (depthLimit - 2) (tree cell.toJson) = some cell := by
  have hkept : Json.Kept (depthLimit - 2) cell.toJson := h.toJson.mono (by omega)
  rw [read?, Json.value?_tree hkept]
  cases h with
  | @markdown metadata source hmetadata =>
    have htag : (tree (markdown metadata source).toJson).tagged? "cell_type"
        = some ("markdown", tree (.object [("metadata", .object metadata),
          ("source", sourceLines source)])) := Json.tagged?_tree hkept.keys
    rw [htag]
    exact readMarkdown?_tree source (hmetadata.mono (by omega))
  | @code metadata source count? outputs hmetadata houtputs =>
    have htag : (tree (code metadata source count? outputs).toJson).tagged? "cell_type"
        = some ("code", tree (.object [("execution_count", countJson count?),
          ("metadata", .object metadata), ("outputs", .array outputs),
          ("source", sourceLines source)])) := Json.tagged?_tree hkept.keys
    rw [htag]
    exact readCode?_tree source count? (hmetadata.mono (by omega))
      fun output houtput => (houtputs.items output houtput).mono (by omega)

end Cell

/-! ## Kernel and language -/

theorem KernelSpec.kept_toJson {depth : ℕ} (kernel : KernelSpec) :
    Json.Kept (depth + 1) kernel.toJson :=
  .record ["display_name", "language", "name"] rfl (by decide)
    ⟨.string _ _, .string _ _, .string _ _⟩

theorem LanguageInfo.kept_toJson {depth : ℕ} (language : LanguageInfo) :
    Json.Kept (depth + 1) language.toJson :=
  .record ["file_extension", "mimetype", "name"] rfl (by decide)
    ⟨.string _ _, .string _ _, .string _ _⟩

theorem KernelSpec.read?_tree (kernel : KernelSpec) :
    KernelSpec.read? (tree kernel.toJson) = some kernel := by
  have hrecord : (tree kernel.toJson).record? ["display_name", "language", "name"]
      = some [some (tree (.string kernel.displayName)), some (tree (.string kernel.language)),
          some (tree (.string kernel.name))] :=
    Json.record?_tree (kernel.kept_toJson : Json.Kept 1 kernel.toJson).keys
  rw [KernelSpec.read?, hrecord]
  rfl

theorem LanguageInfo.read?_tree (language : LanguageInfo) :
    LanguageInfo.read? (tree language.toJson) = some language := by
  have hrecord : (tree language.toJson).record? ["file_extension", "mimetype", "name"]
      = some [some (tree (.string language.fileExtension)),
          some (tree (.string language.mimetype)), some (tree (.string language.name))] :=
    Json.record?_tree (language.kept_toJson : Json.Kept 1 language.toJson).keys
  rw [LanguageInfo.read?, hrecord]
  rfl

/-! ## Notebooks -/

namespace Notebook

variable {depth : ℕ} {book : Notebook}

/-- The record of a notebook is four containers deeper than the values in its cells. -/
theorem kept_toJson (h : ∀ cell ∈ book.cells, cell.Kept depth) :
    Json.Kept (depth + 4) book.toJson := by
  have hcells : Json.Kept (depth + 3) (.array (book.cells.map Cell.toJson)) := by
    refine .array fun value hvalue => ?_
    obtain ⟨cell, hcell, rfl⟩ := List.mem_map.1 hvalue
    exact (h cell hcell).toJson
  have hmetadata : Json.Kept (depth + 3) (.object [("kernelspec", book.kernel.toJson),
      ("language_info", book.language.toJson)]) :=
    .record ["kernelspec", "language_info"] rfl (by decide)
      ⟨book.kernel.kept_toJson, book.language.kept_toJson⟩
  exact .record ["cells", "metadata", "nbformat", "nbformat_minor"] rfl (by decide)
    ⟨hcells, hmetadata, Cell.kept_count book.format, Cell.kept_count book.formatMinor⟩

/-- A notebook is read from its tree, if its values are not too deep for that. -/
theorem ofTree?_tree (h : ∀ cell ∈ book.cells, cell.Kept depth) (hdepth : depth + 4 ≤ depthLimit) :
    ofTree? (tree book.toJson) = some book := by
  have hkept := kept_toJson h
  have hrecord : (tree book.toJson).record? ["cells", "metadata", "nbformat", "nbformat_minor"]
      = some [some (tree (.array (book.cells.map Cell.toJson))),
          some (tree (.object [("kernelspec", book.kernel.toJson),
            ("language_info", book.language.toJson)])),
          some (tree (.int book.format.toNat)), some (tree (.int book.formatMinor.toNat))] :=
    Json.record?_tree hkept.keys
  have hmetadata : (tree (.object [("kernelspec", book.kernel.toJson),
        ("language_info", book.language.toJson)])).record? ["kernelspec", "language_info"]
      = some [some (tree book.kernel.toJson), some (tree book.language.toJson)] :=
    Json.record?_tree (Json.pairwise_of_keys ["kernelspec", "language_info"] rfl (by decide))
  have hcells : (Json.trees (book.cells.map Cell.toJson)).mapM (Cell.read? (depthLimit - 2))
      = some book.cells :=
    Json.mapM_trees fun cell hcell => Cell.read?_tree (h cell hcell) hdepth
  rw [ofTree?, hrecord, Option.bind_eq_bind, Option.bind_some]
  dsimp only
  rw [hmetadata]
  show ((Json.trees (book.cells.map Cell.toJson)).mapM (Cell.read? (depthLimit - 2))).bind _ = _
  rw [hcells, Option.bind_some, KernelSpec.read?_tree, LanguageInfo.read?_tree, Json.uint32?_tree,
    Json.uint32?_tree]
  rfl

/-- A notebook is read back from the file that it is written as, provided that all values in the
metadata and the outputs of its cells are kept, and are four containers less deep than reading
allows. -/
theorem read?_write_eq_some (hdepth : depth + 4 ≤ depthLimit)
    (h : ∀ cell ∈ book.cells, cell.Kept depth) : read? book.write = some book := by
  have htext : book.write.toList = (book.toJson.write .indented).toList ++ ['\n'] :=
    String.toList_append
  have hread : Json.Tree.read? book.write.toList = some (tree book.toJson) := by
    rw [htext]
    exact Json.Tree.read?_write Json.Layout.spaced_indented (kept_toJson h)
      (List.forall_mem_singleton.2 rfl)
  rw [read?, hread]
  exact ofTree?_tree h hdepth

/-- Arrays a hundred deep, the ends of the 64-bit integers, texts that need escapes and sources with
and without a newline at the end. -/
theorem read?_write_eq_some_hundred :
    let deep : Json := (fun value => .array [value])^[100] .null
    let output : Json := .object [("data", .object [("text/plain", .string "\x01\"\\é")]),
      ("limits", .array [.int (-2 ^ 63), .int (2 ^ 64 - 1)])]
    let book : Notebook :=
      { cells := [.markdown [("a", deep), ("b", .bool true)] "# Title\n\nProse\n",
          .code [] "" none [], .code [("c", .null)] "x = 1\nx" (some 4294967295) [output, deep]]
        kernel := ⟨"Julia", "julia", "julia"⟩, language := ⟨".jl", "application/julia", "julia"⟩ }
    100 + 4 ≤ depthLimit ∧ (∀ cell ∈ book.cells, cell.Kept 100) ∧ read? book.write = some book := by
  intro deep output book
  have hdepth : 100 + 4 ≤ depthLimit := by decide
  have hdeep : Json.Kept 100 deep := by
    have hkept : ∀ n : ℕ, Json.Kept n ((fun value => .array [value])^[n] .null) := by
      intro n
      induction n with
      | zero => exact .null 0
      | succ n ih =>
        rw [Function.iterate_succ_apply']
        exact .array (List.forall_mem_singleton.2 ih)
    exact hkept 100
  have houtput : Json.Kept 100 output := by
    have hlimits : Json.Kept 99 (.array [.int (-2 ^ 63), .int (2 ^ 64 - 1)]) :=
      .array (List.forall_iff_forall_mem.1
        ⟨.int _ (by decide) (by decide), .int _ (by decide) (by decide)⟩)
    exact .record ["data", "limits"] rfl (by decide)
      ⟨.record ["text/plain"] rfl (by decide) (.string _ _), hlimits⟩
  have hcells : ∀ cell ∈ book.cells, cell.Kept 100 := by
    have hfirst : Json.Kept 101 (.object [("a", deep), ("b", .bool true)]) :=
      .record ["a", "b"] rfl (by decide) ⟨hdeep, .bool _ true⟩
    have hlast : Json.Kept 101 (.object [("c", .null)]) :=
      .record ["c"] rfl (by decide) (.null _)
    have hnone : Json.Kept 101 (.object []) := .record [] rfl (by decide) trivial
    have houtputs : Json.Kept 101 (.array [output, deep]) :=
      .array (List.forall_iff_forall_mem.1 ⟨houtput, hdeep⟩)
    exact List.forall_iff_forall_mem.1 ⟨.markdown _ hfirst,
      .code _ _ hnone (.array (List.forall_mem_nil _)), .code _ _ hlast houtputs⟩
  exact ⟨hdepth, hcells, read?_write_eq_some hdepth hcells⟩

end Notebook

end Weave
