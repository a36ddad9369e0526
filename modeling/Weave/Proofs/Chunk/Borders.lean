import Weave.Proofs.Chunk.Growth
import Weave.Proofs.Line.Reading
import Weave.Proofs.Text.Lines

/-!
# Borders

What grouping has made before a split only stands in front of what it makes behind it
(`grow_split`), so that texts which are put together with a split between them make their chunks
one after the other (`parse_join_split`). At a split, at the ends and where the kind of the lines
changes, one more blank line makes no difference (`group_insert_blank`): it is trimmed or dropped,
and it cannot bring two chunks together or keep them apart.
-/

namespace Weave.Chunk

open Text

/-! ## Behind a split -/

namespace Growth

/-- What has grown, with more chunks in front of it. -/
def behind (front : List Chunk) (g : Growth) : Growth :=
  { g with finished := front ++ g.finished }

variable {front : List Chunk} {g : Growth}

@[simp]
theorem chunks_behind : (g.behind front).chunks = front ++ g.chunks := by
  simp [behind, chunks]

/-- No line looks at the finished chunks. -/
theorem take_behind (line : PlainLine) : (g.behind front).take line = (g.take line).behind front := by
  cases line with
  | split =>
    rw [take_split, take_split, chunks_behind]
    rfl
  | text kind content =>
    by_cases hblank : isBlankLine content
    · rw [take_blank hblank, take_blank hblank]
      rfl
    · rw [take_text hblank, take_text hblank]
      -- both have the same newest chunk, so the line goes to it on both sides or on neither
      rcases write_cases g kind content with ⟨finished, lines, gap, rfl, hwrite⟩ | ⟨hlive, hwrite⟩
      · rw [hwrite]
        exact write_of_eq (front ++ finished) lines gap
      · rcases write_cases (g.behind front) kind content with
          ⟨finished, lines, gap, heq, -⟩ | ⟨-, hwrite'⟩
        · have hlive' : g.liveKind? = some kind := congrArg liveKind? heq
          exact absurd hlive' hlive
        · rw [hwrite, hwrite', chunks_behind]
          rfl

/-- Lines do the same to chunks whatever finished chunks stand before them. -/
theorem foldl_take_behind (lines : List PlainLine) :
    lines.foldl take (g.behind front) = (lines.foldl take g).behind front := by
  induction lines generalizing g with
  | nil => rfl
  | cons line lines ih => rw [List.foldl_cons, List.foldl_cons, take_behind, ih]

end Growth

/-- Behind a split everything grows as from the start. -/
theorem grow_split (lines rest : List PlainLine) :
    grow (lines ++ .split :: rest) = (grow rest).behind (group lines) := by
  have hstart : (grow lines).take .split = Growth.behind (group lines) {} := by
    rw [Growth.take_split, group_eq_chunks]
    simp [Growth.behind]
  rw [grow_append, List.foldl_cons, hstart, Growth.foldl_take_behind]
  rfl

/-- Nothing reaches over a split: what stands before it and what stands behind it are grouped apart. -/
theorem group_append_split (lines rest : List PlainLine) :
    group (lines ++ .split :: rest) = group lines ++ group rest := by
  rw [group_eq_chunks, grow_split, Growth.chunks_behind, ← group_eq_chunks]

/-! ## Blank lines at borders -/

/-- A blank line at the end changes nothing. -/
theorem group_concat_blank (lines : List PlainLine) (kind : Kind) {content : String}
    (h : isBlankLine content) : group (lines ++ [.text kind content]) = group lines := by
  rw [group_eq_chunks, grow_concat, Growth.take_blank h, Growth.chunks_skip, ← group_eq_chunks]

/-- A place between lines that no run of lines goes across: an end, a split, or a change of kind. -/
inductive Border : List PlainLine → List PlainLine → Prop where
  | start (rest : List PlainLine) : Border [] rest
  | finish (lines : List PlainLine) : Border lines []
  | afterSplit (lines rest : List PlainLine) : Border (lines ++ [.split]) rest
  | beforeSplit (lines rest : List PlainLine) : Border lines (.split :: rest)
  | change (lines rest : List PlainLine) {kind other : Kind} (content next : String)
      (h : kind ≠ other) : Border (lines ++ [.text kind content]) (.text other next :: rest)

namespace Growth

variable {g : Growth} {kind other : Kind} {content : String}

/-- Without an open chunk a blank line does nothing. -/
theorem skip_of_none (h : g.newest? = none) : g.skip kind content = g := by
  obtain ⟨finished, newest?⟩ := g
  obtain rfl : newest? = none := h
  rfl

/-- Once a gap is broken, another blank line does nothing to it. -/
theorem skip_of_broken (finished : List Chunk) (chunk : Chunk) :
    skip ⟨finished, some (chunk, .broken)⟩ kind content = ⟨finished, some (chunk, .broken)⟩ := by
  simp [skip, Gap.add]

/-- After a line the newest chunk has the kind of this line, or the line is a blank one that has
broken the gap behind it. -/
theorem newest?_take_text (g : Growth) (kind : Kind) (content : String) :
    (g.take (.text kind content)).newest? = none ∨
      (∃ chunk, (g.take (.text kind content)).newest? = some (chunk, .broken)) ∨
      ∃ chunk gap, (g.take (.text kind content)).newest? = some (chunk, gap) ∧
        chunk.kind = kind := by
  by_cases hblank : isBlankLine content
  · rw [take_blank hblank]
    obtain ⟨finished, _ | ⟨chunk, gap⟩⟩ := g
    · exact .inl rfl
    · by_cases hkind : chunk.kind = kind
      · exact .inr (.inr ⟨chunk, _, rfl, hkind⟩)
      · exact .inr (.inl ⟨chunk, by simp [skip, Gap.add, hkind]⟩)
  · rw [take_text hblank]
    rcases write_cases g kind content with ⟨finished, lines, gap, rfl, hwrite⟩ | ⟨-, hwrite⟩
    · exact .inr (.inr ⟨_, _, by rw [hwrite], rfl⟩)
    · exact .inr (.inr ⟨_, _, by rw [hwrite], rfl⟩)

/-- A blank line between two lines of different kinds leaves no trace once the second one has
come. -/
theorem take_skip_of_change (g : Growth) (own : Kind) (blank next : String) (h : kind ≠ other) :
    ((g.take (.text kind content)).skip own blank).take (.text other next)
      = (g.take (.text kind content)).take (.text other next) := by
  obtain hnone | ⟨chunk, hbroken⟩ | ⟨chunk, gap, hnewest, rfl⟩ := newest?_take_text g kind content
  · rw [skip_of_none hnone]
  · generalize g.take (.text kind content) = g' at hbroken ⊢
    obtain ⟨finished, newest?⟩ := g'
    obtain rfl : newest? = some (chunk, .broken) := hbroken
    rw [skip_of_broken]
  · -- the second line is of another kind than the newest chunk, whatever the gap is by then
    generalize g.take (.text chunk.kind content) = g' at hnewest ⊢
    obtain ⟨finished, newest?⟩ := g'
    obtain rfl : newest? = some (chunk, gap) := hnewest
    exact take_of_kind_ne finished h _ gap

end Growth

theorem grow_insert_blank (lines rest : List PlainLine) (kind : Kind) {blank : String}
    (h : isBlankLine blank) :
    grow (lines ++ .text kind blank :: rest)
      = rest.foldl Growth.take ((grow lines).skip kind blank) := by
  rw [grow_append, List.foldl_cons, Growth.take_blank h]

/-- A blank line more at a border, of whichever kind, leaves the chunks as they are. -/
theorem group_insert_blank {lines rest : List PlainLine} (h : Border lines rest) (kind : Kind)
    {blank : String} (hblank : isBlankLine blank) :
    group (lines ++ .text kind blank :: rest) = group (lines ++ rest) := by
  rw [group_eq_chunks, group_eq_chunks, grow_insert_blank lines rest kind hblank]
  cases h with
  | start => rw [Growth.skip_of_none rfl, grow_append]
  | finish => rw [List.foldl_nil, Growth.chunks_skip, List.append_nil]
  | afterSplit before =>
    have hnone : (grow (before ++ [.split])).newest? = none := by rw [grow_concat, Growth.take_split]
    rw [Growth.skip_of_none hnone, grow_append (before ++ [PlainLine.split])]
  | beforeSplit _ after =>
    rw [grow_append, List.foldl_cons, List.foldl_cons, Growth.take_split, Growth.take_split,
      Growth.chunks_skip]
  | change before after content next hkind =>
    rw [grow_append (before ++ [_]), List.foldl_cons, List.foldl_cons, grow_concat,
      Growth.take_skip_of_change _ _ _ _ hkind]

/-- Between blank lines of different kinds, with paragraphs on both sides that become one chunk. -/
theorem group_insert_blank_paragraphs :
    let lines : List PlainLine := [.text .markdown "a", .text .markdown ""]
    let rest : List PlainLine := [.text .code " ", .text .markdown "b"]
    Border lines rest ∧ isBlankLine "\t" ∧
      group (lines ++ .text .code "\t" :: rest) = group (lines ++ rest) ∧
      group (lines ++ .text .markdown "\t" :: rest) = [⟨.markdown, ["a", "", "b"]⟩] := by
  intro lines rest
  have hborder : Border lines rest := .change [.text .markdown "a"] _ "" " " (by decide)
  have hgroup : group (lines ++ rest) = [⟨.markdown, ["a", "", "b"]⟩] := by decide
  exact ⟨hborder, by decide, group_insert_blank hborder .code (by decide),
    (group_insert_blank hborder .markdown (by decide)).trans hgroup⟩

/-! ## Texts with a split between them -/

section Join

variable {source : String}

/-- The lines of two texts with a split between them. An empty line is there if the newline before
the split does not end a line of the first text. -/
theorem exists_lines_join_split (h : source.toList.getLast? ≠ some '\r') (rest : String) :
    ∃ blank, (blank = [] ∨ blank = [""]) ∧
      Text.lines (source ++ "\n#-\n" ++ rest)
        = Text.lines source ++ blank ++ "#-" :: Text.lines rest := by
  obtain ⟨blank, hblank, hlines⟩ := exists_lines_append_cons h ("#-\n" ++ rest).toList
  refine ⟨blank, hblank, ?_⟩
  have htext : source ++ "\n#-\n" ++ rest
      = String.ofList (source.toList ++ '\n' :: ("#-\n" ++ rest).toList) := by
    rw [← String.toList_inj, String.toList_ofList]
    simp
  have hsplit : ("#-\n" ++ rest).toList = ['#', '-'] ++ '\n' :: rest.toList := by
    rw [String.toList_append]
    rfl
  rw [htext, hlines, String.ofList_toList, hsplit, lines_cons (by decide), String.ofList_toList]
  rfl

/-- Neither the split nor an empty line before it is a directive around a directive. -/
theorem forall_not_nested_join_split_iff (h : source.toList.getLast? ≠ some '\r') (rest : String) :
    (∀ line ∈ Text.lines (source ++ "\n#-\n" ++ rest), ¬ Line.Nested line) ↔
      (∀ line ∈ Text.lines source, ¬ Line.Nested line) ∧
        ∀ line ∈ Text.lines rest, ¬ Line.Nested line := by
  obtain ⟨blank, hblank, hlines⟩ := exists_lines_join_split h rest
  have hempty : ¬ Line.Nested "" := by decide
  have hsplit : ¬ Line.Nested "#-" := by decide
  rw [hlines]
  rcases hblank with rfl | rfl
  · simp [or_imp, forall_and, hsplit]
  · simp [or_imp, forall_and, hempty, hsplit]

/-- The empty line before the split is one of code, which the end of the first text does not
need. -/
theorem group_seen_join_split (h : source.toList.getLast? ≠ some '\r') (rest : String)
    (target : Target) :
    group (Line.seen target (source ++ "\n#-\n" ++ rest))
      = group (Line.seen target source) ++ group (Line.seen target rest) := by
  obtain ⟨blank, hblank, hlines⟩ := exists_lines_join_split h rest
  have hseen : Line.seen target (source ++ "\n#-\n" ++ rest) = Line.seen target source
      ++ blank.filterMap (fun line => (Line.read line).keep? target)
      ++ .split :: Line.seen target rest := by
    rw [Line.seen, hlines, List.filterMap_append, List.filterMap_append]
    rfl
  rw [hseen, group_append_split]
  rcases hblank with rfl | rfl
  · rw [List.filterMap_nil, List.append_nil]
  · exact congrArg (· ++ _) (group_concat_blank (Line.seen target source) .code rfl)

/-- Two texts with a split between them are read into chunks exactly if each of them is, and make
the chunks of the first and then those of the second. The first one may not end in a carriage
return, which would become part of the line end. -/
theorem parse_join_split (h : source.toList.getLast? ≠ some '\r') (rest : String) (target : Target)
    (chunks : List Chunk) :
    parse (source ++ "\n#-\n" ++ rest) target = .ok chunks ↔
      ∃ first second, parse source target = .ok first ∧ parse rest target = .ok second ∧
        chunks = first ++ second := by
  rw [parse_eq_ok_iff, forall_not_nested_join_split_iff h, group_seen_join_split h]
  simp only [parse_eq_ok_iff]
  constructor
  · rintro ⟨⟨hfirst, hsecond⟩, rfl⟩
    exact ⟨_, _, ⟨hfirst, rfl⟩, ⟨hsecond, rfl⟩, rfl⟩
  · rintro ⟨_, _, ⟨hfirst, rfl⟩, ⟨hsecond, rfl⟩, rfl⟩
    exact ⟨⟨hfirst, hsecond⟩, rfl⟩

/-- A paragraph before an empty line and one after a blank one stay apart. If the second text cannot
be read, then neither can the two together. -/
theorem parse_join_split_paragraphs :
    "#' a\n".toList.getLast? ≠ some '\r' ∧
      parse ("#' a\n" ++ "\n#-\n" ++ " \n#' b") .script
        = .ok [⟨.markdown, ["a"]⟩, ⟨.markdown, ["b"]⟩] ∧
      ∀ chunks, parse ("#' a\n" ++ "\n#-\n" ++ "#md #nb") .script ≠ .ok chunks := by
  have hreturn : "#' a\n".toList.getLast? ≠ some '\r' := by decide
  refine ⟨hreturn, ?_, fun chunks hchunks => ?_⟩
  · exact (parse_join_split hreturn _ _ _).2
      ⟨[⟨.markdown, ["a"]⟩], [⟨.markdown, ["b"]⟩], rfl, rfl, rfl⟩
  · obtain ⟨_, second, -, hsecond, -⟩ := (parse_join_split hreturn _ _ _).1 hchunks
    cases hsecond

end Join

end Weave.Chunk
