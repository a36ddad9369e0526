import Weave.Generation.Output
import Weave.Proofs.Chunk.Printer

/-!
# Reading a script again

A script holds code only, and none of its lines can be taken for anything else: what a target sees
of a source as code is code by itself. So a script is read again as one chunk that spans all of it
(`Chunk.merge`), whatever the target, and making a script of it once more changes nothing
(`weave_script_output`).
-/

namespace Weave

open Text

namespace Chunk

/-! ## Chunks of code as one -/

/-- The chunks of a script as the one chunk that its text reads as: an empty line stands between
each two of them. -/
def merge (chunks : List Chunk) : Chunk :=
  ⟨.code, [""].intercalate (chunks.map lines)⟩

section Merge

variable {chunks : List Chunk} {chunk : Chunk}

/-- Between the lines of two chunks an empty one is put. -/
theorem lines_merge_cons (chunk : Chunk) (h : chunks ≠ []) :
    (merge (chunk :: chunks)).lines = chunk.lines ++ "" :: (merge chunks).lines := by
  have hmap : chunks.map lines ≠ [] := by simpa using h
  rw [merge, List.map_cons, List.intercalate_cons_of_ne_nil hmap, List.append_assoc]
  rfl

theorem lines_merge_singleton (chunk : Chunk) : (merge [chunk]).lines = chunk.lines := by
  rw [merge, List.map_singleton, List.intercalate_singleton]

/-- Every line of the one chunk is an empty one or stands in some chunk. -/
theorem mem_lines_merge {line : String} (h : line ∈ (merge chunks).lines) :
    line = "" ∨ ∃ chunk ∈ chunks, line ∈ chunk.lines := by
  induction chunks with
  | nil => exact absurd h List.not_mem_nil
  | cons chunk chunks ih =>
    by_cases hrest : chunks = []
    · rw [hrest, lines_merge_singleton] at h
      exact .inr ⟨chunk, List.mem_cons_self, h⟩
    · rw [lines_merge_cons chunk hrest, List.mem_append, List.mem_cons] at h
      -- the line is in the first chunk, between the chunks, or further on
      rcases h with h | h | h
      · exact .inr ⟨chunk, List.mem_cons_self, h⟩
      · exact .inl h
      · obtain hempty | ⟨c, hc, hline⟩ := ih h
        · exact .inl hempty
        · exact .inr ⟨c, List.mem_cons_of_mem _ hc, hline⟩

/-- Only the ends of the first and the last chunk are ends of the one chunk. -/
theorem trimmed_merge (hne : chunks ≠ []) (h : ∀ chunk ∈ chunks, chunk.Trimmed) :
    (merge chunks).Trimmed := by
  induction chunks with
  | nil => exact absurd rfl hne
  | cons chunk chunks ih =>
    have hchunk : chunk.Trimmed := h chunk List.mem_cons_self
    by_cases hrest : chunks = []
    · have hlines := lines_merge_singleton chunk
      rw [hrest]
      exact ⟨hlines ▸ hchunk.nonempty, hlines ▸ hchunk.first, hlines ▸ hchunk.last⟩
    · have hmerge : (merge chunks).Trimmed :=
        ih hrest fun c hc => h c (List.mem_cons_of_mem _ hc)
      have hlines := lines_merge_cons chunk hrest
      -- the first line is that of this chunk, the last line that of the others
      constructor
      · rw [hlines]
        exact List.append_ne_nil_of_left_ne_nil hchunk.nonempty _
      · rw [hlines, List.head?_append_of_ne_nil _ hchunk.nonempty]
        exact hchunk.first
      · rw [hlines, ← List.singleton_append, ← List.append_assoc,
          List.getLast?_append_of_ne_nil _ hmerge.nonempty]
        exact hmerge.last

/-- The text of the one chunk is the script. -/
theorem content_merge (h : ∀ chunk ∈ chunks, chunk.Trimmed) :
    (merge chunks).content = "\n\n".intercalate (chunks.map content) := by
  induction chunks with
  | nil => rfl
  | cons chunk chunks ih =>
    have hrest : ∀ c ∈ chunks, c.Trimmed := fun c hc => h c (List.mem_cons_of_mem _ hc)
    by_cases hnil : chunks = []
    · rw [hnil, content, lines_merge_singleton, List.map_singleton, String.intercalate_singleton]
      rfl
    · -- one newline ends the last line of the chunk, the other one is the empty line
      have hseam : "\n" ++ ("" ++ "\n") = "\n\n" := rfl
      have hmap : chunks.map content ≠ [] := by simpa using hnil
      have hmerge : (merge chunks).lines ≠ [] := (trimmed_merge hnil hrest).nonempty
      have hchunk : chunk.lines ≠ [] := (h chunk List.mem_cons_self).nonempty
      rw [content, lines_merge_cons chunk hnil,
        String.intercalate_append_of_ne_nil hchunk (List.cons_ne_nil _ _),
        String.intercalate_cons_of_ne_nil hmerge, List.map_cons,
        String.intercalate_cons_of_ne_nil hmap, ← ih hrest, ← hseam, String.append_assoc,
        String.append_assoc, String.append_assoc]
      rfl

end Merge

/-! ## Reading the one chunk -/

/-- A line of a chunk holds only characters of the text that it is read from. -/
theorem mem_of_mem_lines_parse {source : String} {target : Target} {chunks : List Chunk}
    (h : parse source target = .ok chunks) {chunk : Chunk} (hchunk : chunk ∈ chunks)
    {line : String} (hline : line ∈ chunk.lines) {c : Char} (hc : c ∈ line.toList) :
    c ∈ source.toList := by
  obtain ⟨hnested, rfl⟩ := parse_eq_ok_iff.1 h
  refine forall_lines_group (P := fun _ line => ∀ c ∈ line.toList, c ∈ source.toList)
    (fun _ => ?_) ?_ hchunk line hline c hc
  · exact fun c hc => absurd hc (by simp)
  · intro kind content hmem c hc
    obtain ⟨line, hline, hkeep⟩ := List.mem_filterMap.1 hmem
    -- what is kept of a line is the end of it
    have hsuffix := (Line.of_keep?_read (hnested line hline) hkeep).1
    exact mem_of_mem_lines hline (hsuffix.subset hc)

/-- A text whose lines are those of a chunk of code is read as this chunk. -/
theorem parse_of_lines_eq {text : String} {chunk : Chunk} (hkind : chunk.kind = .code)
    (hchunk : chunk.WellFormed) (htext : Text.lines text = chunk.lines) (target : Target) :
    parse text target = .ok [chunk] := by
  have hread : Line.readAll text = (chunk.lines.map (.text .code)).map .plain := by
    rw [Line.readAll, htext, List.map_map]
    exact List.map_congr_left fun line hline => hchunk.read_code hkind line hline
  have hlayout : layout none [chunk] = chunk.lines.map (.text .code) := by
    simp [layout, hkind]
  have hgroup : group (chunk.lines.map (.text .code)) = [chunk] := by
    rw [← hlayout]
    exact group_layout fun c hc => List.mem_singleton.1 hc ▸ hchunk.toTrimmed
  rw [parse_of_plain hread, hgroup]

/-- A chunk of code whose text reads as the chunk. -/
structure Rereadable (chunk : Chunk) : Prop extends WellFormed chunk where
  kind_eq : chunk.kind = .code
  return_not_mem : ∀ line ∈ chunk.lines, '\r' ∉ line.toList

/-- Chunks that can be read again can be as one chunk. -/
theorem rereadable_merge {chunks : List Chunk} (hne : chunks ≠ [])
    (h : ∀ chunk ∈ chunks, chunk.Rereadable) : (merge chunks).Rereadable := by
  have htrimmed : (merge chunks).Trimmed :=
    trimmed_merge hne fun chunk hchunk => (h chunk hchunk).toTrimmed
  have hlines : ∀ line ∈ (merge chunks).lines, '\n' ∉ line.toList ∧ '\r' ∉ line.toList ∧
      Line.read line = .plain (.text .code line) := by
    intro line hline
    obtain rfl | ⟨chunk, hchunk, hmem⟩ := mem_lines_merge hline
    · -- an empty line between two chunks is plain code itself
      exact ⟨by decide, by decide, rfl⟩
    · have hplain := h chunk hchunk
      exact ⟨hplain.newline_not_mem line hmem, hplain.return_not_mem line hmem,
        hplain.read_code hplain.kind_eq line hmem⟩
  exact ⟨⟨htrimmed, fun line hline => (hlines line hline).1,
    fun _ line hline => (hlines line hline).2.2⟩, rfl, fun line hline => (hlines line hline).2.1⟩

/-- The chunks of code of a text without carriage returns. -/
theorem rereadable_of_parse {source : String} {target : Target} {chunks : List Chunk}
    (h : parse source target = .ok chunks) (hreturn : '\r' ∉ source.toList) :
    ∀ chunk ∈ chunks.filter (·.kind = .code), chunk.Rereadable := by
  intro chunk hmem
  obtain ⟨hchunk, hkind⟩ := List.mem_filter.1 hmem
  refine ⟨wellFormed_of_parse h chunk hchunk, of_decide_eq_true hkind, fun line hline hc => ?_⟩
  exact hreturn (mem_of_mem_lines_parse h hchunk hline hc)

variable {chunk : Chunk}

/-- No line of such a chunk has a carriage return, so its text has none. -/
theorem Rereadable.return_not_mem_content (h : chunk.Rereadable) :
    '\r' ∉ chunk.content.toList := by
  intro hmem
  -- with one more newline the text is its lines, each with its end
  have hended : '\r' ∈ (chunk.content ++ "\n").toList := by
    rw [String.toList_append]
    exact List.mem_append_left _ hmem
  rw [content, ← unlines_eq_intercalate_append "\n" h.nonempty, toList_unlines] at hended
  obtain ⟨line, hline, hc⟩ := List.mem_flatMap.1 hended
  rcases List.mem_append.1 hc with hc | hc
  · exact h.return_not_mem line hline hc
  · exact absurd hc (by decide)

/-- The text of such a chunk ends with its last line, which holds something and no newline. -/
theorem Rereadable.getLast?_content (h : chunk.Rereadable) :
    chunk.content.toList ≠ [] ∧ chunk.content.toList.getLast? ≠ some '\n' := by
  -- the last line is not blank, so that the text ends where this line does
  obtain ⟨lines, last, hlines⟩ := (List.eq_nil_or_concat' chunk.lines).resolve_left h.nonempty
  have hlast : ¬ isBlankLine last := h.last last (by rw [hlines, List.getLast?_concat]; rfl)
  have hne : last.toList ≠ [] := by
    intro hnil
    exact hlast (by rw [isBlankLine, hnil]; rfl)
  obtain ⟨front, hfront⟩ := isSuffix_intercalate_concat "\n" lines last
  have hcontent : chunk.content.toList = front ++ last.toList := by
    rw [content, hlines, hfront]
  rw [hcontent, List.getLast?_append_of_ne_nil _ hne]
  refine ⟨List.append_ne_nil_of_right_ne_nil _ hne, fun hnewline => ?_⟩
  have hmem : last ∈ chunk.lines := by
    rw [hlines]
    exact List.mem_concat_self
  exact h.newline_not_mem last hmem (List.mem_of_getLast? hnewline)

/-- A script is read as these chunks, whatever the target, with a newline at its end or without. -/
def ReadFrom (script : String) (chunks : List Chunk) : Prop :=
  ∀ text ∈ [script, script ++ "\n"], '\r' ∉ text.toList ∧
    ∀ target, parse text target = .ok chunks

theorem readFrom_empty : ReadFrom "" [] := by
  -- two texts and three targets
  have hread : ∀ text ∈ ["", "" ++ "\n"], '\r' ∉ text.toList ∧
      ∀ target ∈ Target.all, parse text target = .ok [] := by decide
  intro text htext
  exact ⟨(hread text htext).1, fun target => (hread text htext).2 target (Target.mem_all target)⟩

/-- The text of such a chunk is read as the chunk, for every target. -/
theorem Rereadable.readFrom_content (h : chunk.Rereadable) : ReadFrom chunk.content [chunk] := by
  have hreturn := h.return_not_mem_content
  have hlast : ∀ line ∈ chunk.lines.getLast?, line ≠ "" := by
    intro line hline hempty
    exact h.last line hline (by rw [hempty]; rfl)
  intro text htext
  obtain rfl | htext := List.mem_cons.1 htext
  · have hlines : Text.lines chunk.content = chunk.lines :=
      lines_intercalate h.newline_not_mem h.return_not_mem hlast
    exact ⟨hreturn, parse_of_lines_eq h.kind_eq h.toWellFormed hlines⟩
  · obtain rfl := List.mem_singleton.1 htext
    have hlines : Text.lines (chunk.content ++ "\n") = chunk.lines := by
      rw [content, ← unlines_eq_intercalate_append "\n" h.nonempty]
      exact lines_unlines_newline h.newline_not_mem h.return_not_mem
    refine ⟨?_, parse_of_lines_eq h.kind_eq h.toWellFormed hlines⟩
    rw [String.toList_append, List.mem_append, not_or]
    exact ⟨hreturn, by decide⟩

end Chunk

/-- A text that does not end with a newline gets one. -/
theorem Text.endWithNewline_of_getLast? {s : String} (h : s.toList.getLast? ≠ some '\n') :
    endWithNewline s = s ++ "\n" := by
  have hlast : ∀ c ∈ s.toList.getLast?, ¬ (c == '\n') = true := by
    intro c hc hnewline
    rw [eq_of_beq hnewline] at hc
    exact h hc
  rw [endWithNewline, dropTrailing_eq_self hlast, ← String.toList_inj, String.toList_ofList,
    String.toList_append]
  rfl

/-- A script is the text of no chunk or of one, from which this chunk is read again. -/
theorem Script.render_cases {source : String} {target : Target} {chunks : List Chunk}
    (h : Chunk.parse source target = .ok chunks) (hreturn : '\r' ∉ source.toList) :
    render chunks = "" ∨ ∃ chunk : Chunk, chunk.Rereadable ∧ render chunks = chunk.content := by
  by_cases hcode : chunks.filter (·.kind = .code) = []
  · left
    rw [render, hcode]
    rfl
  · right
    have hall := Chunk.rereadable_of_parse h hreturn
    refine ⟨Chunk.merge (chunks.filter (·.kind = .code)), Chunk.rereadable_merge hcode hall, ?_⟩
    rw [Chunk.content_merge fun chunk hchunk => (hall chunk hchunk).toTrimmed, render]

namespace Document

/-- What a script is read as is all that making a script of it depends on. -/
theorem weave_of_readFrom {script : String} {chunks : List Chunk}
    (h : Chunk.ReadFrom script chunks) (hrender : Script.render chunks = script) {text : String}
    (htext : text ∈ [script, script ++ "\n"]) (options : Options) :
    weave text .script options {} = .ok (.text script) := by
  obtain ⟨hreturn, hparse⟩ := h text htext
  rw [weave_of_no_hooks, unifyNewlines_of_not_mem hreturn, hparse .script, ← hrender]
  rfl

/-- A script is read again as one chunk, which is all of it, or as none, if it is empty; whatever
the target, and with the newline that a file of it ends with or without. So the script of a script
is the same script. -/
theorem weave_script_output (source : String) (options : Options) (hsource : ReturnsPaired source)
    (script : String) (h : weave source .script options {} = .ok (.text script)) :
    ∃ chunks : List Chunk,
      (script = "" → chunks = []) ∧
      (script ≠ "" → ∃ chunk, chunks = [chunk] ∧ chunk.kind = .code ∧ chunk.content = script) ∧
      fileText (.text script) = script ++ "\n" ∧
      ∀ text ∈ [script, script ++ "\n"],
        (∀ target, Chunk.parse text target = .ok chunks) ∧
        ∀ options', weave text .script options' {} = .ok (.text script) := by
  have hreturn : '\r' ∉ (unifyNewlines source).toList := return_not_mem_unifyNewlines hsource
  rw [weave_of_no_hooks] at h
  cases hparse : Chunk.parse (unifyNewlines source) .script with
  | error fault =>
    rw [hparse] at h
    cases h
  | ok found =>
    have hscript : Script.render found = script := by
      rw [hparse] at h
      cases h
      rfl
    obtain hempty | ⟨chunk, hchunk, hcontent⟩ := Script.render_cases hparse hreturn
    · -- there was no code
      obtain rfl : script = "" := hscript.symm.trans hempty
      have hread := Chunk.readFrom_empty
      refine ⟨[], fun _ => rfl, fun hne => absurd rfl hne, rfl, fun text htext => ?_⟩
      exact ⟨(hread text htext).2, weave_of_readFrom hread rfl htext⟩
    · -- there was some, and all of it is one chunk now
      obtain rfl : chunk.content = script := hcontent.symm.trans hscript
      obtain ⟨hne, hlast⟩ := hchunk.getLast?_content
      have hread := hchunk.readFrom_content
      have hrender : Script.render [chunk] = chunk.content := by
        rw [Script.render, List.filter_singleton, hchunk.kind_eq]
        rfl
      refine ⟨[chunk], fun hnil => absurd (by rw [hnil]; rfl) hne,
        fun _ => ⟨chunk, rfl, hchunk.kind_eq, rfl⟩, endWithNewline_of_getLast? hlast,
        fun text htext => ?_⟩
      exact ⟨(hread text htext).2, weave_of_readFrom hread hrender htext⟩

/-- Code that a target keeps for itself, in two chunks around prose. -/
theorem weave_script_output_two_chunks :
    let source := "#' # Title\r\nx = 1\r\n\r\n#jl y = 2\n#' Prose\n#jl #' More\nz\n"
    ReturnsPaired source ∧
      ∀ options : Options,
        weave source .script options {} = .ok (.text "x = 1\n\ny = 2\n\nz") ∧
        weave "x = 1\n\ny = 2\n\nz\n" .script options {} = .ok (.text "x = 1\n\ny = 2\n\nz") := by
  intro source
  have hsource : ReturnsPaired source := by decide
  refine ⟨hsource, fun options => ?_⟩
  have hweave : weave source .script options {} = .ok (.text "x = 1\n\ny = 2\n\nz") := by
    have hparse : Chunk.parse (unifyNewlines source) .script
        = .ok [⟨.markdown, ["# Title"]⟩, ⟨.code, ["x = 1", "", "y = 2"]⟩,
          ⟨.markdown, ["Prose", "More"]⟩, ⟨.code, ["z"]⟩] := by decide
    rw [weave_of_no_hooks, hparse]
    rfl
  obtain ⟨chunks, -, -, -, hread⟩ := weave_script_output source options hsource _ hweave
  have hfile := (hread "x = 1\n\ny = 2\n\nz\n" (by decide)).2 options
  exact ⟨hweave, hfile⟩

end Document

end Weave
