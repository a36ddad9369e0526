import Mathlib.Data.List.Basic
import Weave.Document
import Weave.Proofs.Line.Reading
import Weave.Proofs.Text.Lines

/-!
# Resolving directives

A source can be resolved for a target: lines for other targets go, and directives for this one are
replaced by what they wrap. The text that is left has no directives, reads the same for every target
and makes the document that the source makes for this one; so lines for other targets have no
influence on it (`parse_resolve`).
-/

namespace Weave

open Text

/-- The text that a source is for one target. -/
def resolve (target : Target) (source : String) : String :=
  unlines "\n" ((lines source).filterMap (Line.resolve? target))

variable {source source' : String} {target : Target}

/-! ## The lines of a resolved text -/

/-- What the lines of a source say to a target are lines of their own, if there are no carriage
returns. -/
theorem lines_resolve (h : '\r' ∉ source.toList) :
    lines (resolve target source) = (lines source).filterMap (Line.resolve? target) := by
  have hsub : ∀ text ∈ (lines source).filterMap (Line.resolve? target),
      ∃ line ∈ lines source, text.toList <:+ line.toList := by
    intro text htext
    obtain ⟨line, hline, hresolve⟩ := List.mem_filterMap.1 htext
    exact ⟨line, hline, Line.isSuffix_of_resolve? hresolve⟩
  refine lines_unlines_newline (fun text htext => ?_) fun text htext => ?_
  · obtain ⟨line, hline, hsuffix⟩ := hsub text htext
    exact fun hmem => newline_not_mem_of_mem_lines hline (hsuffix.subset hmem)
  · obtain ⟨line, hline, hsuffix⟩ := hsub text htext
    exact fun hmem => h (mem_of_mem_lines hline (hsuffix.subset hmem))

/-- Resolving brings no carriage returns into a text. -/
theorem return_not_mem_resolve (h : '\r' ∉ source.toList) :
    '\r' ∉ (resolve target source).toList := by
  rw [resolve, toList_unlines]
  intro hmem
  obtain ⟨text, htext, hreturn⟩ := List.mem_flatMap.1 hmem
  obtain ⟨line, hline, hresolve⟩ := List.mem_filterMap.1 htext
  rcases List.mem_append.1 hreturn with hreturn | hreturn
  · exact h (mem_of_mem_lines hline ((Line.isSuffix_of_resolve? hresolve).subset hreturn))
  · simp at hreturn

/-- No line of a resolved text is a directive, so that it reads as it does by itself. -/
theorem read_of_mem_lines_resolve (hreturn : '\r' ∉ source.toList)
    (hnested : ∀ line ∈ lines source, ¬ Line.Nested line) {text : String}
    (h : text ∈ lines (resolve target source)) : Line.read text = .plain (.read text.toList) := by
  rw [lines_resolve hreturn] at h
  obtain ⟨line, hline, hresolve⟩ := List.mem_filterMap.1 h
  exact Line.read_of_directive?_eq_none (Line.directive?_of_resolve? (hnested line hline) hresolve)

/-- Every target sees of a resolved text what one target sees of the source. -/
theorem seen_resolve (hreturn : '\r' ∉ source.toList)
    (hnested : ∀ line ∈ lines source, ¬ Line.Nested line) (target' : Target) :
    Line.seen target' (resolve target source) = Line.seen target source := by
  have hplain : ∀ text ∈ lines (resolve target source),
      (Line.read text).keep? target' = some (PlainLine.read text.toList) := by
    intro text htext
    rw [read_of_mem_lines_resolve hreturn hnested htext]
    rfl
  calc Line.seen target' (resolve target source)
      = (lines (resolve target source)).map fun text => PlainLine.read text.toList := by
        rw [Line.seen, List.filterMap_congr hplain]
        exact congrFun List.filterMap_eq_map' _
    _ = (lines source).filterMap fun line =>
          (Line.resolve? target line).map fun text => PlainLine.read text.toList := by
        rw [lines_resolve hreturn, List.map_filterMap]
    _ = Line.seen target source :=
        List.filterMap_congr fun line hline => (Line.keep?_read (hnested line hline) target).symm

/-! ## What has no influence -/

/-- A target sees nothing of lines for other targets. -/
theorem seen_eq_filter (hnested : ∀ line ∈ lines source, ¬ Line.Nested line) :
    Line.seen target source
      = ((lines source).filter fun line => ¬ Line.ForOther target line).filterMap fun line =>
          (Line.read line).keep? target := by
  rw [Line.seen, List.filterMap_filter]
  refine List.filterMap_congr fun line hline => ?_
  by_cases hother : Line.ForOther target line
  · rw [Line.keep?_read (hnested line hline), Line.resolve?_eq_none_iff.2 hother]
    simp [hother]
  · simp [hother]

namespace Document

/-- Without carriage returns a document depends on the chunks only. -/
theorem weave_congr (h : '\r' ∉ source.toList) (h' : '\r' ∉ source'.toList)
    (hparse : Chunk.parse source target = Chunk.parse source' target) (options : Options) :
    weave source target options {} = weave source' target options {} := by
  rw [weave_eq, weave_eq, unifyNewlines_of_not_mem h, unifyNewlines_of_not_mem h']
  show ((Chunk.parse source target).mapError _ >>= _) = _
  rw [hparse]
  rfl

/-- The chunks of a source, and so its document, are those of its resolved text, which is read alike
for all targets; and sources that differ in lines for other targets only make the same document. -/
theorem parse_resolve (source : String) (target : Target) (hreturn : '\r' ∉ source.toList)
    (hnested : ∀ line ∈ lines source, ¬ Line.Nested line) :
    (∀ target', Chunk.parse source target = Chunk.parse (resolve target source) target') ∧
    (∀ options, weave source target options {} = weave (resolve target source) target options {}) ∧
    (∀ source', '\r' ∉ source'.toList → (∀ line ∈ lines source', ¬ Line.Nested line) →
      ((lines source').filter fun line => ¬ Line.ForOther target line)
          = ((lines source).filter fun line => ¬ Line.ForOther target line) →
        ∀ options, weave source' target options {} = weave source target options {}) := by
  have hresolve : ∀ target', Chunk.parse source target
      = Chunk.parse (resolve target source) target' := by
    intro target'
    have hnested' : ∀ text ∈ lines (resolve target source), ¬ Line.Nested text := by
      intro text htext
      rw [← Line.nested?_read_eq_none_iff, read_of_mem_lines_resolve hreturn hnested htext]
      rfl
    rw [Chunk.parse_eq_ok_iff.2 ⟨hnested, rfl⟩, Chunk.parse_eq_ok_iff.2 ⟨hnested', rfl⟩,
      seen_resolve hreturn hnested]
  refine ⟨hresolve, weave_congr hreturn (return_not_mem_resolve hreturn) (hresolve target), ?_⟩
  intro source' hreturn' hnested' hfilter
  -- what is left when lines for other targets are taken out is all that the target sees
  refine weave_congr hreturn' hreturn ?_
  rw [Chunk.parse_eq_ok_iff.2 ⟨hnested', rfl⟩, Chunk.parse_eq_ok_iff.2 ⟨hnested, rfl⟩,
    seen_eq_filter hnested', hfilter, ← seen_eq_filter hnested]

/-- A notebook, with lines of its own around a code cell and lines for the page and the script. -/
theorem parse_resolve_notebook :
    let source := "#' # Title\n#md #' A page\n#nb x = 1\n#jl #-\n#nb\ny = 2\n#nb #-\nz\n"
    let source' := "#' # Title\n#nb x = 1\n#nb\ny = 2\n#jl\n#nb #-\nz\n"
    '\r' ∉ source.toList ∧ (∀ line ∈ lines source, ¬ Line.Nested line) ∧
      resolve .notebook source = "#' # Title\nx = 1\n\ny = 2\n#-\nz\n" ∧
      Chunk.parse source .notebook = Chunk.parse (resolve .notebook source) .script ∧
      ∀ options, weave source' .notebook options {} = weave source .notebook options {} := by
  intro source source'
  have hreturn : '\r' ∉ source.toList := by decide
  have hnested : ∀ line ∈ lines source, ¬ Line.Nested line := by decide
  obtain ⟨hparse, -, hothers⟩ := parse_resolve source .notebook hreturn hnested
  exact ⟨hreturn, hnested, by decide, hparse .script,
    hothers source' (by decide) (by decide) (by decide)⟩

end Document

end Weave
