import Weave.Document
import Weave.Proofs.Chunk.Content
import Weave.Proofs.Line.Reading
import Weave.Proofs.Text.Lines

/-!
# What the documents of one source share

A source without directives reads the same for every target, so that its page, its notebook and its
script are three renderings of the same chunks. The page and the script can be read off the cells of
the notebook (`weave_agree`): the script is the code cells with an empty line between each two of
them, and the page, unless it is meant for Documenter, is one block for each cell
(`Page.renderCell`).
-/

namespace Weave

open Text

/-- A text without directives holds plain lines only. -/
theorem Line.readAll_of_not_directive {text : String}
    (h : ∀ line ∈ lines text, ¬ Directive line) :
    readAll text = ((lines text).map fun line => PlainLine.read line.toList).map .plain := by
  rw [readAll, List.map_map]
  refine List.map_congr_left fun line hline => ?_
  exact read_of_directive?_eq_none (directive?_eq_none_iff_not_directive.2 (h line hline))

/-! ## One chunk in three renderings -/

namespace Page

/-- A cell of a notebook as a block of a page. -/
def renderCell (fence : Fence) (cell : Cell) : String :=
  match cell.kind with
  | .markdown => cell.source ++ "\n\n"
  | .code => fence.opening ++ "\n" ++ cell.source ++ "\n" ++ fence.closing ++ "\n\n"

/-- The lines of a chunk that holds something are its text and one newline. -/
theorem unlines_lines {chunk : Chunk} (h : chunk.lines ≠ []) :
    unlines "\n" chunk.lines = chunk.content ++ "\n" :=
  unlines_eq_intercalate_append "\n" h

/-- A chunk and the cell that it makes are the same block of a page. -/
theorem renderCell_cellOf {options : Options} (hoptions : options.documenter = false)
    (fence : Fence) {chunk : Chunk} (h : chunk.lines ≠ []) :
    renderCell fence (Notebook.cellOf options chunk) = renderChunk fence chunk := by
  have hlines : unlines "\n" chunk.lines = chunk.content ++ "\n" := unlines_lines h
  have hend : "\n" ++ "\n" = "\n\n" := rfl
  obtain ⟨kind, lines⟩ := chunk
  cases kind with
  | markdown =>
    -- prose is rewritten for Documenter only
    have hprose : Notebook.prose options (Chunk.content ⟨.markdown, lines⟩)
        = Chunk.content ⟨.markdown, lines⟩ := by
      rw [Notebook.prose, hoptions]
      rfl
    show Notebook.prose options (Chunk.content ⟨.markdown, lines⟩) ++ "\n\n"
      = unlines "\n" lines ++ "\n"
    rw [hprose, hlines, String.append_assoc, hend]
  | code =>
    show fence.opening ++ "\n" ++ Chunk.content ⟨.code, lines⟩ ++ "\n" ++ fence.closing ++ "\n\n"
      = fence.opening ++ "\n" ++ unlines "\n" lines ++ fence.closing ++ "\n\n"
    rw [hlines, ← String.append_assoc]

end Page

namespace Notebook

/-- A cell has the kind of its chunk. -/
@[simp]
theorem kind_cellOf (options : Options) (chunk : Chunk) :
    (cellOf options chunk).kind = chunk.kind := by
  rw [cellOf]
  split
  · next h => rw [Cell.kind_ofKind, h]
  · next h => rw [Cell.kind_ofKind, h]

/-- Code is shown in a notebook as it is. -/
theorem source_cellOf_of_code (options : Options) {chunk : Chunk} (h : chunk.kind = .code) :
    (cellOf options chunk).source = chunk.content := by
  rw [cellOf, h]
  rfl

/-- The sources of the code cells are the contents of the chunks of code, in order. -/
theorem codeSources_render (options : Options) (chunks : List Chunk) :
    (render options chunks).codeSources
      = (chunks.filter (·.kind = .code)).map Chunk.content := by
  have hkinds : ((fun cell : Cell => decide (cell.kind = .code)) ∘ cellOf options)
      = fun chunk => decide (chunk.kind = .code) := by
    funext chunk
    rw [Function.comp_apply, kind_cellOf]
  rw [codeSources, render, List.filter_map, List.map_map, hkinds]
  refine List.map_congr_left fun chunk hchunk => ?_
  have hcode : chunk.kind = .code := of_decide_eq_true (List.mem_filter.1 hchunk).2
  exact source_cellOf_of_code options hcode

end Notebook

/-! ## The three documents -/

namespace Document

/-- A source without directives makes a document for every target. All are made of the same chunks:
the notebook has a cell for each, the script is the code of the notebook, and the page shows the
cells of the notebook one after another. -/
theorem weave_agree (source : String) (options : Options)
    (h : ∀ line ∈ lines (unifyNewlines source), ¬ Line.Directive line) :
    ∃ chunks notebook page script,
      (∀ target, Chunk.parse (unifyNewlines source) target = .ok chunks) ∧
      weave source .notebook options {} = .ok (.notebook notebook) ∧
      weave source .markdown options {} = .ok (.text page) ∧
      weave source .script options {} = .ok (.text script) ∧
      notebook.cells.map Cell.kind = chunks.map Chunk.kind ∧
      script = "\n\n".intercalate notebook.codeSources ∧
      (options.documenter = false →
        page = String.join (notebook.cells.map (Page.renderCell options.fence))) := by
  obtain ⟨plain, hplain⟩ : ∃ plain : List PlainLine,
      Line.readAll (unifyNewlines source) = plain.map .plain :=
    ⟨_, Line.readAll_of_not_directive h⟩
  -- the target is not looked at where no line is for one target only
  have hparse := Chunk.parse_of_plain hplain
  have hweave : ∀ target, weave source target options {}
      = .ok (render target options (Chunk.group plain)) := by
    intro target
    rw [weave_of_no_hooks, hparse target]
    rfl
  refine ⟨Chunk.group plain, Notebook.render options (Chunk.group plain),
    Page.render options (Chunk.group plain), Script.render (Chunk.group plain), hparse,
    hweave .notebook, hweave .markdown, hweave .script, ?_, ?_, ?_⟩
  · rw [Notebook.render, List.map_map]
    exact List.map_congr_left fun chunk _ => Notebook.kind_cellOf options chunk
  · rw [Notebook.codeSources_render, Script.render]
  · intro hoptions
    have hcells : ((Chunk.group plain).map (Notebook.cellOf options)).map
        (Page.renderCell options.fence)
          = (Chunk.group plain).map (Page.renderChunk options.fence) := by
      rw [List.map_map]
      refine List.map_congr_left fun chunk hchunk => ?_
      -- no chunk is empty, so that the blank line behind its text is where the page has it
      have hlines : chunk.lines ≠ [] := (Chunk.trimmed_of_mem_group hchunk).nonempty
      exact Page.renderCell_cellOf hoptions options.fence hlines
    rw [Page.render, hoptions, Notebook.render, hcells]
    exact String.empty_append

/-- Prose around code in two chunks, with line ends of two characters. -/
theorem weave_agree_two_chunks :
    let source := "#' # Title\r\nx = 1\r\n#-\r\ny = 2\r\n"
    let options : Options :=
      { Options.ofSettings {} "example" with documenter := false }
    (∀ line ∈ lines (unifyNewlines source), ¬ Line.Directive line) ∧
      ∃ notebook page script,
        weave source .notebook options {} = .ok (.notebook notebook) ∧
        weave source .markdown options {} = .ok (.text page) ∧
        weave source .script options {} = .ok (.text script) ∧
        notebook.cells.map Cell.kind = [.markdown, .code, .code] ∧
        script = "\n\n".intercalate notebook.codeSources ∧
        page = String.join (notebook.cells.map (Page.renderCell options.fence)) := by
  intro source options
  have hplain : ∀ line ∈ lines (unifyNewlines source), ¬ Line.Directive line := by decide
  obtain ⟨chunks, notebook, page, script, hparse, hnotebook, hpage, hscript, hkinds, hcode, hcells⟩ :=
    weave_agree source options hplain
  have hchunks : Chunk.parse (unifyNewlines source) .notebook
      = .ok [⟨.markdown, ["# Title"]⟩, ⟨.code, ["x = 1"]⟩, ⟨.code, ["y = 2"]⟩] := by decide
  rw [hparse .notebook, Except.ok.injEq] at hchunks
  rw [hchunks] at hkinds
  exact ⟨hplain, notebook, page, script, hnotebook, hpage, hscript, hkinds, hcode, hcells rfl⟩

end Document

end Weave
