import Mathlib.Data.List.Forall2
import Weave.Notebook.Format
import Weave.Proofs.Chunk.Printer
import Weave.Proofs.Document.Agreement
import Weave.Proofs.Error.Results
import Weave.Proofs.Prose.Equations
import Weave.Proofs.Prose.References
import Weave.Proofs.Text.Margins

/-!
# The margins of cells

Chunks have no margins, and code cells are chunks. Prose cells are as well, unless they are made for
Documenter. Then converting math blocks adds no margins and takes none away, row by row
(`map_isBlankLine_convertRows`). Only a reference can leave some, where the text that it is reduced to
has some (`Cut.tight_shown`).
-/

namespace Weave

open Text

/-! ## Chunks -/

/-- A chunk has no blank lines at its ends, so its text has no margins. -/
theorem Chunk.WellFormed.tight_content {chunk : Chunk} (h : chunk.WellFormed) : Tight chunk.content :=
  tight_intercalate h.nonempty h.newline_not_mem h.first h.last

/-! ## Math blocks -/

namespace MathBlock

/-- The line that opens a block has the fence in it. -/
theorem not_isBlankLine_of_opens {row : String} (h : Opens row) : isBlankLine row = false := by
  obtain ⟨blanks, hblanks, -⟩ := h
  rw [isBlankLine, hblanks]
  rfl

/-- A row that is not blank takes the place of one that is not blank. -/
theorem map_isBlankLine_convertRows (ls : List String) :
    (convertRows ls).map isBlankLine = ls.map isBlankLine := by
  fun_induction convertRows ls with
  | case1 => rfl
  | case2 row rows hopens body behind hcut ih =>
    have hbegin : isBlankLine "\\begin\x7bequation\x7d" = false := by decide
    have hend : isBlankLine "\\end\x7bequation\x7d" = isBlankLine closingFence := by decide
    rw [(cutAt?_eq_some_iff.1 hcut).1]
    simp only [List.cons_append, List.map_cons, List.map_append]
    rw [ih, hbegin, hend, not_isBlankLine_of_opens hopens]
  | case3 row rows _ _ ih => rw [List.map_cons, ih, List.map_cons]
  | case4 row rows _ ih => rw [List.map_cons, ih, List.map_cons]

/-- Converting a text converts its rows. -/
theorem rows_convert (s : String) : rows (convert s) = convertRows (rows s) := by
  have hne : convertRows (rows s) ≠ [] := by
    rw [← List.length_pos_iff, length_convertRows, List.length_pos_iff]
    exact rows_ne_nil s
  rw [(convert_eq_intercalate s).1, rows_intercalate hne]
  exact newline_not_mem_convertRows fun row => newline_not_mem_of_mem_rows

/-- Converting blocks neither makes margins nor takes them away. -/
theorem tight_convert_iff {s : String} : Tight (convert s) ↔ Tight s := by
  apply tight_congr
  rw [rows_convert, map_isBlankLine_convertRows]

end MathBlock

/-! ## References -/

namespace CrossReference.Cut

/-- The references of a cut, in order. -/
def references : Cut → List CrossReference
  | last _ => []
  | cons _ r rest => r :: rest.references

/-- The text of a reference is part of its spelling. -/
theorem subset_spelling (r : CrossReference) : r.text.toList ⊆ r.spelling.toList := by
  intro c hc
  rw [toList_spelling]
  simp [hc]

/-- What is shown has been in the text. -/
theorem shown_subset (cut : Cut) : cut.shown.toList ⊆ cut.source.toList := by
  induction cut with
  | last text => exact List.Subset.refl _
  | cons text r rest ih =>
    intro c hc
    rw [shown, String.toList_append, String.toList_append, List.mem_append, List.mem_append] at hc
    rw [source, String.toList_append, String.toList_append, List.mem_append, List.mem_append]
    exact hc.imp (Or.imp_right (subset_spelling r ·)) (ih ·)

/-- Before the first newline there is something left, unless the text of the first reference leaves
nothing there. -/
theorem shows_shown {cut : Cut} (h : Shows cut.source.toList)
    (hrefs : ∀ r ∈ cut.references, Shows r.text.toList) : Shows cut.shown.toList := by
  cases cut with
  | last text => exact h
  | cons text r rest =>
    rw [source, String.toList_append, String.toList_append, List.append_assoc, shows_append] at h
    rw [shown, String.toList_append, String.toList_append, List.append_assoc, shows_append]
    -- what is behind the first reference does not matter: its text is shown and has no blank first row
    refine h.imp_right fun hbehind => ⟨hbehind.1, ?_⟩
    exact (hrefs r List.mem_cons_self).append_left _

/-- The same from behind. -/
theorem shows_reverse_shown {cut : Cut} (h : Shows cut.source.toList.reverse)
    (hrefs : ∀ r ∈ cut.references, Shows r.text.toList.reverse) :
    Shows cut.shown.toList.reverse := by
  induction cut with
  | last text => exact h
  | cons text r rest ih =>
    rw [source, String.toList_append, List.reverse_append, shows_append] at h
    rw [shown, String.toList_append, List.reverse_append, shows_append]
    obtain ⟨hr, hrest⟩ := List.forall_mem_cons.1 hrefs
    -- from behind the last reference comes first, so that the rest of the cut has to be passed
    refine h.imp (fun hshows => ih hshows hrest) fun hbefore => ⟨?_, ?_⟩
    · intro hmem
      rw [List.mem_reverse] at hmem
      exact hbefore.1 (List.mem_reverse.2 (rest.shown_subset hmem))
    · rw [String.toList_append, List.reverse_append]
      exact hr.append_left _

/-- A tight text stays tight if its references are reduced to tight texts. -/
theorem tight_shown {cut : Cut} (h : Tight cut.source) (hrefs : ∀ r ∈ cut.references, Tight r.text) :
    Tight cut.shown := by
  obtain ⟨hfirst, hlast⟩ := tight_iff.1 h
  exact tight_iff.2 ⟨shows_shown hfirst fun r hr => (tight_iff.1 (hrefs r hr)).1,
    shows_reverse_shown hlast fun r hr => (tight_iff.1 (hrefs r hr)).2⟩

end CrossReference.Cut

/-! ## Cells -/

namespace Notebook

/-- When the cell of a chunk has no margins. -/
theorem tight_cellOf_iff {chunk : Chunk} (h : chunk.WellFormed) (options : Options) :
    Tight (cellOf options chunk).source ↔
      (options.documenter = true → chunk.kind = .markdown →
        Tight (CrossReference.strip chunk.content)) := by
  cases hkind : chunk.kind with
  | code =>
    rw [source_cellOf_of_code options hkind]
    simp [h.tight_content]
  | markdown =>
    have hsource : (cellOf options chunk).source = prose options chunk.content := by
      rw [cellOf, hkind]
      rfl
    rw [hsource, prose]
    split
    · next hdocumenter => simp [hdocumenter, MathBlock.tight_convert_iff]
    · next hdocumenter => simp [hdocumenter, h.tight_content]

/-- Prose for Documenter that closes no math block is only reduced to what its cut shows. -/
theorem prose_source {options : Options} (hdocumenter : options.documenter = true)
    {cut : CrossReference.Cut} (hcut : cut.Leftmost)
    (hfence : MathBlock.closingFence ∉ rows cut.shown) : prose options cut.source = cut.shown := by
  rw [prose, if_pos hdocumenter, CrossReference.strip_source hcut,
    (MathBlock.convert_eq_intercalate _).1, MathBlock.convertRows_eq_self hfence, intercalate_rows]

end Notebook

namespace Document

/-- Without hooks a notebook is the rendering of the chunks. -/
theorem weave_notebook_of_parse {source : String} {chunks : List Chunk}
    (h : Chunk.parse (unifyNewlines source) .notebook = .ok chunks) (options : Options) :
    weave source .notebook options {} = .ok (.notebook (Notebook.render options chunks)) := by
  rw [weave_of_no_hooks, h]
  rfl

/-- A cell has no margins, unless it is prose for Documenter whose text has some once its references are
reduced; it cannot have any then either if none of the texts has that the references are reduced to.
A cell without margins is not empty, and the last line of its source is written without an end. -/
theorem weave_notebook_tight {source : String} {options : Options} {document : Document}
    (h : weave source .notebook options {} = .ok document) :
    ∃ chunks book, Chunk.parse (unifyNewlines source) .notebook = .ok chunks ∧
      document = .notebook book ∧
      List.Forall₂ (fun (chunk : Chunk) (cell : Cell) =>
          cell.kind = chunk.kind ∧
          (Tight cell.source ↔ (options.documenter = true → cell.kind = .markdown →
            Tight (CrossReference.strip chunk.content))) ∧
          ∀ cut : CrossReference.Cut, cut.source = chunk.content → cut.Leftmost →
            (∀ r ∈ cut.references, Tight r.text) → Tight cell.source)
        chunks book.cells ∧
      ∀ cell ∈ book.cells, Tight cell.source → cell.source ≠ "" ∧
        ∃ (fields : List (String × Json)) (lines : List String), cell.toJson = .object fields ∧
          fields.lookup "source" = some (.array (lines.map .string)) ∧
          ∀ line ∈ lines.getLast?, line.toList.getLast? ≠ some '\n' := by
  rw [weave_of_no_hooks] at h
  obtain ⟨chunks, hchunks, hrender⟩ := Except.map_eq_ok_iff.1 h
  rw [Except.mapError_eq_ok_iff] at hchunks
  refine ⟨chunks, Notebook.render options chunks, hchunks, hrender.symm, ?_, ?_⟩
  · rw [Notebook.render, List.forall₂_map_right_iff, List.forall₂_same]
    intro chunk hchunk
    have hwell := Chunk.wellFormed_of_parse hchunks chunk hchunk
    rw [Notebook.kind_cellOf, Notebook.tight_cellOf_iff hwell]
    refine ⟨rfl, Iff.rfl, fun cut hsource hcut hrefs _ _ => ?_⟩
    rw [← hsource, CrossReference.strip_source hcut]
    exact CrossReference.Cut.tight_shown (hsource ▸ hwell.tight_content) hrefs
  · intro cell _ htight
    refine ⟨htight.ne_empty, ?_⟩
    cases cell with
    | markdown metadata source => exact ⟨_, linesWithEnds source, rfl, rfl, htight.getLast?_linesWithEnds⟩
    | code metadata source count? outputs =>
      exact ⟨_, linesWithEnds source, rfl, rfl, htight.getLast?_linesWithEnds⟩

/-- A reference with a text is reduced to it. -/
theorem weave_notebook_tight_reference :
    ∃ book, weave "#' See\n#' [f](@ref)\n" .notebook (.ofSettings {} "a") {}
        = .ok (.notebook book) ∧ ∀ cell ∈ book.cells, Tight cell.source := by
  have hparse : Chunk.parse (unifyNewlines "#' See\n#' [f](@ref)\n") .notebook
      = .ok [⟨.markdown, ["See", "[f](@ref)"]⟩] := rfl
  have hweave := weave_notebook_of_parse hparse (.ofSettings {} "a")
  obtain ⟨chunks, book, hchunks, hbook, hcells, -⟩ := weave_notebook_tight hweave
  rw [hparse, Except.ok.injEq] at hchunks
  subst hchunks
  refine ⟨book, hbook ▸ hweave, ?_⟩
  obtain ⟨cell, rest, ⟨-, -, htight⟩, hrest, hbookCells⟩ := List.forall₂_cons_left_iff.1 hcells
  rw [hbookCells, List.forall₂_nil_left_iff.1 hrest, List.forall_mem_singleton]
  refine htight (.cons "See\n" ⟨"f", .ref, "", by decide, rfl, by decide⟩ (.last "")) rfl ?_ ?_
  · decide
  · exact List.forall_mem_singleton.2 (by decide)

/-- A reference is reduced to nothing. -/
theorem weave_notebook_margins :
    (∃ book, weave "#' [](@ref)\n" .notebook (.ofSettings {} "a") {} = .ok (.notebook book) ∧
      book.cells.map Cell.source = [""]) ∧
    ∃ book, weave "#' Prose\n#' [](@id top)\n" .notebook (.ofSettings {} "a") {}
        = .ok (.notebook book) ∧
      book.cells.map Cell.source = ["Prose\n"] ∧ ¬ Tight "Prose\n" ∧
      linesWithEnds "Prose\n" = ["Prose\n"] := by
  have hempty : Chunk.parse (unifyNewlines "#' [](@ref)\n") .notebook
      = .ok [⟨.markdown, ["[](@ref)"]⟩] := rfl
  have hanchor : Chunk.parse (unifyNewlines "#' Prose\n#' [](@id top)\n") .notebook
      = .ok [⟨.markdown, ["Prose", "[](@id top)"]⟩] := rfl
  have hshown (cut : CrossReference.Cut) (hcut : cut.Leftmost)
      (hfence : MathBlock.closingFence ∉ rows cut.shown) :
      Notebook.prose (.ofSettings {} "a") cut.source = cut.shown :=
    Notebook.prose_source rfl hcut hfence
  refine ⟨⟨_, weave_notebook_of_parse hempty _, ?_⟩,
    ⟨_, weave_notebook_of_parse hanchor _, ?_, by decide, rfl⟩⟩
  · have hprose := hshown (.cons "" ⟨"", .ref, "", by decide, rfl, by decide⟩ (.last ""))
      (by decide) (by decide)
    exact congrArg (fun text => [text]) hprose
  · have hprose := hshown (.cons "Prose\n" ⟨"", .id, " top", by decide, rfl, by decide⟩ (.last ""))
      (by decide) (by decide)
    exact congrArg (fun text => [text]) hprose

end Document

end Weave
