import Weave.Proofs.Chunk.Growth

/-!
# What chunks hold

Grouping keeps the lines with text: read off the chunks one after another they are the lines that
were grouped, each once, in order and under its own kind (`nonblank_parse`). A chunk has no blank
lines at its ends (`trimmed_of_mem_group`), and what holds of the lines that come in holds of those
in the chunks, if it holds of the empty lines at seams (`forall_lines_group`).
-/

namespace Weave

open Text

/-- The kind and the content of a line with text. -/
def PlainLine.nonblank? : PlainLine → Option (Kind × String)
  | .split => none
  | .text kind content => if isBlankLine content then none else some (kind, content)

/-- What is left of lines when blank lines and splits are passed over. -/
def PlainLine.nonblank (lines : List PlainLine) : List (Kind × String) :=
  lines.filterMap nonblank?

theorem PlainLine.nonblank_append (lines rest : List PlainLine) :
    nonblank (lines ++ rest) = nonblank lines ++ nonblank rest :=
  List.filterMap_append

theorem PlainLine.nonblank_singleton (line : PlainLine) :
    nonblank [line] = line.nonblank?.toList := by
  cases h : line.nonblank? <;> simp [nonblank, h]

namespace Chunk

/-- The lines of a chunk with text, under the kind of the chunk. -/
def nonblank (chunk : Chunk) : List (Kind × String) :=
  (chunk.lines.filter fun line => !isBlankLine line).map (chunk.kind, ·)

/-- A chunk that holds something and has no blank lines at its ends. -/
structure Trimmed (chunk : Chunk) : Prop where
  nonempty : chunk.lines ≠ []
  first : ∀ line ∈ chunk.lines.head?, ¬ isBlankLine line
  last : ∀ line ∈ chunk.lines.getLast?, ¬ isBlankLine line

instance (chunk : Chunk) : Decidable chunk.Trimmed :=
  decidable_of_iff (chunk.lines ≠ [] ∧ (∀ line ∈ chunk.lines.head?, ¬ isBlankLine line) ∧
      ∀ line ∈ chunk.lines.getLast?, ¬ isBlankLine line)
    ⟨fun h => ⟨h.1, h.2.1, h.2.2⟩, fun h => ⟨h.nonempty, h.first, h.last⟩⟩

variable {kind : Kind} {content : String} {lines : List String}

/-- A chunk of one line with text has nothing to be trimmed. -/
theorem trimmed_singleton (h : ¬ isBlankLine content) : Trimmed ⟨kind, [content]⟩ :=
  ⟨by simp, by simpa using h, by simpa using h⟩

/-- Only the last of the lines that a trimmed chunk gains has to have text. -/
theorem Trimmed.concat (h : Trimmed ⟨kind, lines⟩) (blanks : List String)
    (hcontent : ¬ isBlankLine content) : Trimmed ⟨kind, lines ++ blanks ++ [content]⟩ := by
  refine ⟨by simp, fun line hline => h.first line ?_, by simpa using hcontent⟩
  rwa [List.append_assoc, List.head?_append_of_ne_nil _ h.nonempty] at hline

/-- Blank lines before one more line with text do not count among the lines with text. -/
theorem nonblank_concat (blanks : List String) (hblanks : ∀ line ∈ blanks, isBlankLine line)
    (hcontent : ¬ isBlankLine content) :
    nonblank ⟨kind, lines ++ blanks ++ [content]⟩
      = nonblank ⟨kind, lines⟩ ++ [(kind, content)] := by
  have hnone : blanks.filter (fun line => !isBlankLine line) = [] := by
    rw [List.filter_eq_nil_iff]
    intro line hline
    simp [hblanks line hline]
  simp [nonblank, hnone, hcontent]

/-! ## The invariant of growth -/

/-- Chunks are trimmed at every moment, and what stands between the newest one and the next line is
blank. -/
structure Growth.Sound (g : Growth) : Prop where
  trimmed : ∀ chunk ∈ g.chunks, chunk.Trimmed
  blank : ∀ chunk gap, g.newest? = some (chunk, gap) → ∀ line ∈ gap.lines, isBlankLine line

namespace Growth

variable {g : Growth}

theorem Sound.skip (hg : g.Sound) (kind : Kind) (hcontent : isBlankLine content) :
    (g.skip kind content).Sound := by
  constructor
  · rw [chunks_skip]
    exact hg.trimmed
  · intro chunk gap hnewest line hline
    rcases mem_lines_skip hnewest hline with rfl | ⟨gap', hnewest', hline⟩ | ⟨-, rfl⟩
    · rfl
    · exact hg.blank chunk gap' hnewest' line hline
    · exact hcontent

theorem Sound.write (hg : g.Sound) (kind : Kind) (hcontent : ¬ isBlankLine content) :
    (g.write kind content).Sound := by
  constructor
  · intro chunk hchunk
    rcases mem_chunks_write hchunk with hold | rfl | ⟨lines, gap, hnewest, rfl⟩
    · exact hg.trimmed chunk hold
    · exact trimmed_singleton hcontent
    · exact (hg.trimmed _ (mem_chunks_of_newest? hnewest)).concat gap.lines hcontent
  · intro chunk gap hnewest line hline
    rw [lines_write hnewest] at hline
    cases hline

/-- Every line preserves soundness. -/
theorem Sound.take (hg : g.Sound) (line : PlainLine) : (g.take line).Sound := by
  cases line with
  | split => exact ⟨by simpa using hg.trimmed, by simp⟩
  | text kind content =>
    by_cases hcontent : isBlankLine content
    · rw [take_blank hcontent]
      exact hg.skip kind hcontent
    · rw [take_text hcontent]
      exact hg.write kind hcontent

/-- A line with text is put behind those that are there, whichever chunk it goes to. -/
theorem nonblank_write (hg : g.Sound) (kind : Kind) (hcontent : ¬ isBlankLine content) :
    (g.write kind content).chunks.flatMap nonblank
      = g.chunks.flatMap nonblank ++ [(kind, content)] := by
  rcases write_cases g kind content with ⟨finished, lines, gap, rfl, hwrite⟩ | ⟨-, hwrite⟩
  · rw [hwrite, chunks_of_some, chunks_of_some, List.flatMap_append, List.flatMap_append,
      List.flatMap_singleton, List.flatMap_singleton,
      nonblank_concat gap.lines (hg.blank _ gap rfl) hcontent, List.append_assoc]
  · simp [hwrite, nonblank, hcontent]

/-- The chunks gain the line if it has text, and lose nothing. -/
theorem nonblank_take (hg : g.Sound) (line : PlainLine) :
    (g.take line).chunks.flatMap nonblank
      = g.chunks.flatMap nonblank ++ line.nonblank?.toList := by
  cases line with
  | split => simp [PlainLine.nonblank?]
  | text kind content =>
    by_cases hcontent : isBlankLine content
    · rw [take_blank hcontent, chunks_skip]
      simp [PlainLine.nonblank?, hcontent]
    · rw [take_text hcontent, nonblank_write hg kind hcontent]
      simp [PlainLine.nonblank?, hcontent]

end Growth

/-- Whatever lines are taken, chunks are trimmed and gaps are blank. -/
theorem sound_grow (lines : List PlainLine) : (grow lines).Sound := by
  induction lines using List.reverseRecOn with
  | nil => exact ⟨by simp [grow, Growth.chunks], by simp [grow]⟩
  | append_singleton lines line ih =>
    rw [grow_concat]
    exact ih.take line

/-! ## What holds of every line -/

/-- Every line that stands in a chunk, or would if its chunk went on, satisfies `P`. -/
structure Growth.Holds (P : Kind → String → Prop) (g : Growth) : Prop where
  chunks : ∀ chunk ∈ g.chunks, ∀ line ∈ chunk.lines, P chunk.kind line
  gap : ∀ chunk gap, g.newest? = some (chunk, gap) → ∀ line ∈ gap.lines, P chunk.kind line

namespace Growth

variable {P : Kind → String → Prop} {g : Growth}

theorem Holds.skip (hg : g.Holds P) (hempty : ∀ kind, P kind "") (hcontent : P kind content) :
    (g.skip kind content).Holds P := by
  constructor
  · rw [chunks_skip]
    exact hg.chunks
  · intro chunk gap hnewest line hline
    rcases mem_lines_skip hnewest hline with rfl | ⟨gap', hnewest', hline⟩ | ⟨rfl, rfl⟩
    · exact hempty chunk.kind
    · exact hg.gap chunk gap' hnewest' line hline
    · exact hcontent

theorem Holds.write (hg : g.Holds P) (hcontent : P kind content) :
    (g.write kind content).Holds P := by
  constructor
  · intro chunk hchunk line hline
    rcases mem_chunks_write hchunk with hold | rfl | ⟨lines, gap, hnewest, rfl⟩
    · exact hg.chunks chunk hold line hline
    · rw [List.mem_singleton.1 hline]
      exact hcontent
    · simp only [List.mem_append, List.mem_singleton] at hline
      rcases hline with (hline | hline) | rfl
      · exact hg.chunks _ (mem_chunks_of_newest? hnewest) line hline
      · exact hg.gap _ gap hnewest line hline
      · exact hcontent
  · intro chunk gap hnewest line hline
    rw [lines_write hnewest] at hline
    cases hline

/-- What holds of a line, and of the empty lines that stand between others, goes on to hold of all
lines of the chunks. -/
theorem Holds.take (hg : g.Holds P) (hempty : ∀ kind, P kind "") {line : PlainLine}
    (hline : ∀ kind content, line = .text kind content → P kind content) : (g.take line).Holds P := by
  cases line with
  | split => exact ⟨by simpa using hg.chunks, by simp⟩
  | text kind content =>
    by_cases hcontent : isBlankLine content
    · rw [take_blank hcontent]
      exact hg.skip hempty (hline kind content rfl)
    · rw [take_text hcontent]
      exact hg.write (hline kind content rfl)

end Growth

/-- What holds of all lines, and of an empty one, holds of all lines of the chunks. -/
theorem holds_grow {P : Kind → String → Prop} (hempty : ∀ kind, P kind "") {lines : List PlainLine}
    (hlines : ∀ kind content, .text kind content ∈ lines → P kind content) :
    (grow lines).Holds P := by
  induction lines using List.reverseRecOn with
  | nil => exact ⟨by simp [grow, Growth.chunks], by simp [grow]⟩
  | append_singleton lines line ih =>
    rw [grow_concat]
    have hbefore := ih fun kind content hmem => hlines kind content (List.mem_append_left _ hmem)
    refine hbefore.take hempty ?_
    rintro kind content rfl
    exact hlines kind content (List.mem_append_right _ (List.mem_singleton_self _))

/-! ## What grouping makes of lines -/

/-- What holds of the lines that are grouped, and of the empty line, holds of all lines in
chunks. -/
theorem forall_lines_group {P : Kind → String → Prop} (hempty : ∀ kind, P kind "")
    {lines : List PlainLine} (hlines : ∀ kind content, .text kind content ∈ lines → P kind content)
    {chunk : Chunk} (hchunk : chunk ∈ group lines) : ∀ line ∈ chunk.lines, P chunk.kind line := by
  rw [group_eq_chunks] at hchunk
  exact (holds_grow hempty hlines).chunks chunk hchunk

/-- Every chunk holds something and has no blank lines at its ends. -/
theorem trimmed_of_mem_group {lines : List PlainLine} {chunk : Chunk} (h : chunk ∈ group lines) :
    chunk.Trimmed := by
  rw [group_eq_chunks] at h
  exact (sound_grow lines).trimmed chunk h

/-- The lines with text, read off the chunks, are those that were grouped. -/
theorem nonblank_group (lines : List PlainLine) :
    (group lines).flatMap nonblank = PlainLine.nonblank lines := by
  rw [group_eq_chunks]
  induction lines using List.reverseRecOn with
  | nil => rfl
  | append_singleton lines line ih =>
    rw [grow_concat, Growth.nonblank_take (sound_grow lines), ih, PlainLine.nonblank_append,
      PlainLine.nonblank_singleton]

/-- Reading a text into chunks fails as selecting its lines does, and otherwise keeps every line
with text exactly once, in order and under its own kind. -/
theorem nonblank_parse (source : String) (target : Target) :
    (parse source target).map (·.flatMap nonblank)
      = (Line.keptFor target (Line.readAll source)).map fun kept =>
          PlainLine.nonblank (kept.map (·.1)) := by
  unfold parse
  cases Line.keptFor target (Line.readAll source) with
  | error fault => rfl
  | ok kept =>
    show Except.ok ((group (kept.map (·.1))).flatMap nonblank) = _
    rw [nonblank_group]
    rfl

end Chunk

end Weave
