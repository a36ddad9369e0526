import Weave.Proofs.Chunk.Content
import Weave.Proofs.Line.Reading
import Weave.Proofs.Text.Lines

/-!
# Writing chunks as a text

Chunks are written as a text from which they are read again (`print`): every line under the token of
its kind, and a split between neighbours of one kind. This works for the chunks that are read from
some text and for no others (`parse_print`), and these can be told from their lines (`WellFormed`).
-/

namespace Weave

open Text

/-- The line from which a line of prose or code, or a split, is read. -/
def PlainLine.write : PlainLine → String
  | .split => "#-"
  | .text .markdown content => "#' " ++ content
  | .text .code content => content

namespace Chunk

/-- The lines from which chunks are grouped that follow a chunk of the kind `previous?`. -/
def layout (previous? : Option Kind) : List Chunk → List PlainLine
  | [] => []
  | chunk :: rest =>
    (if previous? = some chunk.kind then [.split] else []) ++ chunk.lines.map (.text chunk.kind) ++
      layout (some chunk.kind) rest

/-- The text from which chunks are read. The line ends have two characters, so that a line may
itself end in a carriage return. -/
def print (chunks : List Chunk) : String :=
  unlines "\r\n" ((layout none chunks).map PlainLine.write)

/-- A chunk that is read from some text. -/
structure WellFormed (chunk : Chunk) : Prop extends Trimmed chunk where
  newline_not_mem : ∀ line ∈ chunk.lines, '\n' ∉ line.toList
  /-- Every line of code reads as itself. -/
  read_code : chunk.kind = .code → ∀ line ∈ chunk.lines, Line.read line = .plain (.text .code line)

instance (chunk : Chunk) : Decidable chunk.WellFormed :=
  decidable_of_iff (chunk.Trimmed ∧ (∀ line ∈ chunk.lines, '\n' ∉ line.toList) ∧
      (chunk.kind = .code → ∀ line ∈ chunk.lines, Line.read line = .plain (.text .code line)))
    ⟨fun h => ⟨h.1, h.2.1, h.2.2⟩, fun h => ⟨h.toTrimmed, h.newline_not_mem, h.read_code⟩⟩

/-! ## Chunks of a text are well formed -/

/-- Whatever text chunks are read from, they are well formed. -/
theorem wellFormed_of_parse {source : String} {target : Target} {chunks : List Chunk}
    (h : parse source target = .ok chunks) : ∀ chunk ∈ chunks, chunk.WellFormed := by
  obtain ⟨hnested, rfl⟩ := parse_eq_ok_iff.1 h
  intro chunk hchunk
  have hlines : ∀ line ∈ chunk.lines, '\n' ∉ line.toList ∧
      (chunk.kind = .code → Line.read line = .plain (.text .code line)) := by
    refine forall_lines_group (P := fun kind line => '\n' ∉ line.toList ∧
      (kind = .code → Line.read line = .plain (.text .code line))) (fun kind => ?_) ?_ hchunk
    · exact ⟨by simp, fun _ => rfl⟩
    · intro kind content hmem
      obtain ⟨line, hline, hkeep⟩ := List.mem_filterMap.1 hmem
      obtain ⟨hsuffix, hcode⟩ := Line.of_keep?_read (hnested line hline) hkeep
      refine ⟨fun hnewline => ?_, hcode⟩
      exact newline_not_mem_of_mem_lines hline (hsuffix.subset hnewline)
  exact ⟨trimmed_of_mem_group hchunk, fun line hline => (hlines line hline).1,
    fun hcode line hline => (hlines line hline).2 hcode⟩

/-! ## Grouping the lines of a layout -/

/-- A run of lines of one kind goes on in the newest chunk of that kind, up to its last line with
text. -/
theorem foldl_text (finished : List Chunk) (kind : Kind) (run : List String)
    (hlast : ∀ line ∈ run.getLast?, ¬ isBlankLine line) (lines blanks : List String)
    (hblanks : run = [] → blanks = []) :
    (run.map (.text kind)).foldl Growth.take ⟨finished, some (⟨kind, lines⟩, .blanks blanks)⟩
      = ⟨finished, some (⟨kind, lines ++ blanks ++ run⟩, .blanks [])⟩ := by
  induction run generalizing lines blanks with
  | nil =>
    rw [hblanks rfl]
    simp
  | cons line run ih =>
    have hrest : ∀ l ∈ run.getLast?, ¬ isBlankLine l := by
      intro l hl
      refine hlast l ?_
      rw [List.getLast?_cons, Option.mem_def.1 hl]
      rfl
    rw [List.map_cons, List.foldl_cons]
    by_cases hline : isBlankLine line
    · -- a blank line is not the last one, so that it comes back with a later line
      have hrun : run ≠ [] := by
        rintro rfl
        exact hlast line rfl hline
      rw [Growth.take_blank hline]
      have hskip : Growth.skip ⟨finished, some (⟨kind, lines⟩, .blanks blanks)⟩ kind line
          = ⟨finished, some (⟨kind, lines⟩, .blanks (blanks ++ [line]))⟩ := by
        simp [Growth.skip, Gap.add]
      rw [hskip, ih hrest _ _ fun hnil => absurd hnil hrun]
      simp
    · rw [Growth.take_text hline, Growth.write_of_eq, ih hrest _ _ fun _ => rfl]
      simp [Gap.lines]

/-- The lines of a trimmed chunk make this chunk, if no chunk of its kind can go on. -/
theorem foldl_lines {chunk : Chunk} (h : chunk.Trimmed) {g : Growth}
    (hlive : g.liveKind? ≠ some chunk.kind) :
    (chunk.lines.map (.text chunk.kind)).foldl Growth.take g
      = ⟨g.chunks, some (chunk, .blanks [])⟩ := by
  obtain ⟨kind, lines⟩ := chunk
  obtain ⟨first, run, rfl⟩ := List.exists_cons_of_ne_nil h.nonempty
  have hfirst : ¬ isBlankLine first := h.first first rfl
  have hrun : ∀ line ∈ run.getLast?, ¬ isBlankLine line := by
    intro line hline
    refine h.last line ?_
    rw [List.getLast?_cons, Option.mem_def.1 hline]
    rfl
  have hwrite : g.write kind first = ⟨g.chunks, some (⟨kind, [first]⟩, .blanks [])⟩ := by
    rcases g.write_cases kind first with ⟨finished, lines, gap, rfl, -⟩ | ⟨-, hwrite⟩
    · exact absurd rfl hlive
    · exact hwrite
  -- the first line begins the chunk, and the others go on in it
  rw [List.map_cons, List.foldl_cons, Growth.take_text hfirst, hwrite,
    foldl_text _ _ _ hrun _ _ fun _ => rfl]
  simp

/-- Laid out behind chunks that are there already, trimmed chunks come back as they are. -/
theorem chunks_foldl_layout {chunks : List Chunk} (h : ∀ chunk ∈ chunks, chunk.Trimmed)
    (g : Growth) :
    ((layout g.liveKind? chunks).foldl Growth.take g).chunks = g.chunks ++ chunks := by
  induction chunks generalizing g with
  | nil => simp [layout]
  | cons chunk rest ih =>
    -- the split is there exactly if the chunk would be joined to the one before
    obtain ⟨g', hg', hchunks, hlive⟩ : ∃ g' : Growth,
        (if g.liveKind? = some chunk.kind then [PlainLine.split] else []).foldl Growth.take g = g' ∧
          g'.chunks = g.chunks ∧ g'.liveKind? ≠ some chunk.kind := by
      by_cases hkind : g.liveKind? = some chunk.kind
      · exact ⟨⟨g.chunks, none⟩, by rw [if_pos hkind]; rfl, by simp, by simp [Growth.liveKind?]⟩
      · exact ⟨g, by rw [if_neg hkind]; rfl, rfl, hkind⟩
    have hnext : (⟨g'.chunks, some (chunk, .blanks [])⟩ : Growth).liveKind? = some chunk.kind := rfl
    rw [layout, List.foldl_append, List.foldl_append, hg',
      foldl_lines (h chunk List.mem_cons_self) hlive, ← hnext,
      ih (fun c hc => h c (List.mem_cons_of_mem _ hc)), Growth.chunks_of_some, hchunks]
    simp

/-- Trimmed chunks are what their layout is grouped into. -/
theorem group_layout {chunks : List Chunk} (h : ∀ chunk ∈ chunks, chunk.Trimmed) :
    group (layout none chunks) = chunks := by
  rw [group_eq_chunks]
  exact chunks_foldl_layout h {}

/-! ## Reading the text of a layout -/

/-- A layout holds the lines of the chunks and splits, and nothing else. -/
theorem mem_layout {chunks : List Chunk} {previous? : Option Kind} {line : PlainLine}
    (h : line ∈ layout previous? chunks) :
    line = .split ∨ ∃ chunk ∈ chunks, ∃ content ∈ chunk.lines, line = .text chunk.kind content := by
  induction chunks generalizing previous? with
  | nil => cases h
  | cons chunk rest ih =>
    rw [layout, List.mem_append, List.mem_append] at h
    rcases h with (h | h) | h
    · split at h
      · exact .inl (List.mem_singleton.1 h)
      · cases h
    · obtain ⟨content, hcontent, rfl⟩ := List.mem_map.1 h
      exact .inr ⟨chunk, List.mem_cons_self, content, hcontent, rfl⟩
    · rcases ih h with h | ⟨c, hc, hline⟩
      · exact .inl h
      · exact .inr ⟨c, List.mem_cons_of_mem _ hc, hline⟩

/-- Prose reads back whatever it says, since its token is no token of a target. -/
theorem read_write_markdown (content : String) :
    Line.read (PlainLine.write (.text .markdown content)) = .plain (.text .markdown content) := by
  have htoken : (PlainLine.write (.text .markdown content)).toList
      = '#' :: '\'' :: ' ' :: content.toList := by
    rw [PlainLine.write, String.toList_append]
    rfl
  have hnone : Line.directive? ('#' :: '\'' :: ' ' :: content.toList) = none := rfl
  rw [Line.read_of_directive?_eq_none (by rw [htoken, hnone]), htoken, PlainLine.read,
    String.ofList_toList]

/-- The lines of a layout of well-formed chunks are written so that they read back, on one line
each. -/
theorem read_write {chunks : List Chunk} (h : ∀ chunk ∈ chunks, chunk.WellFormed)
    {previous? : Option Kind} {line : PlainLine} (hline : line ∈ layout previous? chunks) :
    '\n' ∉ line.write.toList ∧ Line.read line.write = .plain line := by
  rcases mem_layout hline with rfl | ⟨⟨kind, lines⟩, hchunk, content, hcontent, rfl⟩
  · exact ⟨by decide, rfl⟩
  · have hnewline := (h _ hchunk).newline_not_mem content hcontent
    cases kind with
    | markdown =>
      refine ⟨?_, read_write_markdown content⟩
      rw [PlainLine.write, String.toList_append, List.mem_append, not_or]
      exact ⟨by decide, hnewline⟩
    | code => exact ⟨hnewline, (h _ hchunk).read_code rfl content hcontent⟩

/-- The chunks that are read from texts are the well-formed ones, and each list of these is read
from the text that it is written as. -/
theorem parse_print (chunks : List Chunk) (target : Target) :
    ((∃ source, parse source target = .ok chunks) ↔ ∀ chunk ∈ chunks, chunk.WellFormed) ∧
      ((∀ chunk ∈ chunks, chunk.WellFormed) → parse (print chunks) target = .ok chunks) := by
  have hprint : (∀ chunk ∈ chunks, chunk.WellFormed) →
      parse (print chunks) target = .ok chunks := by
    intro h
    have hlines : Text.lines (print chunks) = (layout none chunks).map PlainLine.write := by
      refine lines_unlines_return (List.forall_mem_map.2 fun line hline => ?_)
      exact (read_write h hline).1
    rw [parse_eq_ok_iff, Line.seen, hlines, List.filterMap_map]
    constructor
    · refine List.forall_mem_map.2 fun line hline => ?_
      rw [← Line.nested?_read_eq_none_iff, (read_write h hline).2]
      rfl
    · have hkeep : ∀ line ∈ layout none chunks,
          (Line.keep? target ∘ Line.read ∘ PlainLine.write) line = some line := by
        intro line hline
        rw [Function.comp_apply, Function.comp_apply, (read_write h hline).2]
        rfl
      have hall : (layout none chunks).filterMap (Line.keep? target ∘ Line.read ∘ PlainLine.write)
          = layout none chunks := by
        rw [List.filterMap_congr hkeep, List.filterMap_some]
      have hgroup : group (layout none chunks) = chunks :=
        group_layout fun chunk hchunk => (h chunk hchunk).toTrimmed
      exact ((congrArg group hall).trans hgroup).symm
  refine ⟨⟨?_, fun h => ⟨print chunks, hprint h⟩⟩, hprint⟩
  rintro ⟨source, hsource⟩
  exact wellFormed_of_parse hsource

/-- Two chunks of code in a row, the first with a carriage return at the end of a line. -/
theorem parse_print_code_code :
    let chunks : List Chunk :=
      [⟨.markdown, ["# Title"]⟩, ⟨.code, ["x = 1\r", "", "y"]⟩, ⟨.code, ["z"]⟩]
    (∀ chunk ∈ chunks, chunk.WellFormed) ∧
      print chunks = "#' # Title\r\nx = 1\r\r\n\r\ny\r\n#-\r\nz\r\n" ∧
      parse (print chunks) .notebook = .ok chunks :=
  ⟨by decide, by decide, (parse_print _ .notebook).2 (by decide)⟩

end Chunk

end Weave
