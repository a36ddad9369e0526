import Mathlib.Data.List.Induction
import Weave.Chunk
import Weave.Proofs.Text.Trimming

/-!
# How chunks grow

`Chunk.group` keeps a run of lines open, trims it when it closes and then joins it to the newest
chunk or not. This file tells the same story without runs: the chunks stand as if the lines ended
here, a line with text either goes on in the newest chunk or begins one, and blank lines only change
what will stand between the newest chunk and the next line (`Gap`).

* `Growth.take` is one step of this story; what a line does can be read off it directly.
* `Progress.growth` is the state of the story that a state of the grouping shows, and
  `growth_take` says that the two take every line alike.
* `group_eq_chunks` and `grow_concat` are what everything else about grouping starts from.
-/

namespace Weave.Chunk

open Text

/-! ## The story -/

/-- What has come since the newest line with text, without a split. -/
inductive Gap where
  /-- Blank lines, all of the kind of the newest chunk. -/
  | blanks (lines : List String)
  /-- A blank line of the other kind, among others. -/
  | broken
  deriving DecidableEq, Repr

/-- What will stand before the next line, if it goes on in the newest chunk. -/
def Gap.lines : Gap → List String
  | .blanks lines => lines
  | .broken => [""]

/-- A gap after one more blank line, which has the kind of the newest chunk or not. -/
def Gap.add (gap : Gap) (alike : Bool) (line : String) : Gap :=
  match gap, alike with
  | .blanks lines, true => .blanks (lines ++ [line])
  | _, _ => .broken

/-- One more blank line either stands in the gap or leaves an empty line in its place. -/
theorem Gap.mem_lines_add {gap : Gap} {alike : Bool} {line content : String}
    (h : line ∈ (gap.add alike content).lines) :
    line = "" ∨ line ∈ gap.lines ∨ alike = true ∧ line = content := by
  cases gap with
  | broken => exact .inl (by simpa [add, lines] using h)
  | blanks blanks =>
    cases alike with
    | false => exact .inl (by simpa [add, lines] using h)
    | true =>
      rcases List.mem_append.1 h with h | h
      · exact .inr (.inl h)
      · exact .inr (.inr ⟨rfl, List.mem_singleton.1 h⟩)

/-- The chunks that some lines make, oldest first. -/
structure Growth where
  /-- The chunks that no line can be added to. -/
  finished : List Chunk := []
  /-- The newest chunk with what has come after it, as long as a line may still be added to it. -/
  newest? : Option (Chunk × Gap) := none

namespace Growth

/-- All chunks, oldest first. -/
def chunks (g : Growth) : List Chunk :=
  g.finished ++ (g.newest?.map (·.1)).toList

/-- A line with text: it goes on in the newest chunk if it may, or begins a new one. -/
def write (g : Growth) (kind : Kind) (content : String) : Growth :=
  match g.newest? with
  | some (chunk, gap) =>
    if chunk.kind = kind then
      { g with newest? := some (⟨kind, chunk.lines ++ gap.lines ++ [content]⟩, .blanks []) }
    else ⟨g.chunks, some (⟨kind, [content]⟩, .blanks [])⟩
  | none => ⟨g.chunks, some (⟨kind, [content]⟩, .blanks [])⟩

/-- A blank line. -/
def skip (g : Growth) (kind : Kind) (content : String) : Growth :=
  { g with
    newest? := g.newest?.map fun (chunk, gap) => (chunk, gap.add (chunk.kind = kind) content) }

/-- Takes one line. -/
def take (g : Growth) : PlainLine → Growth
  | .split => ⟨g.chunks, none⟩
  | .text kind content => if isBlankLine content then g.skip kind content else g.write kind content

variable {g : Growth} {kind : Kind} {content : String}

/-- Behind a split no line goes on in the newest chunk. -/
@[simp]
theorem take_split : g.take .split = ⟨g.chunks, none⟩ := rfl

theorem take_blank (h : isBlankLine content) : g.take (.text kind content) = g.skip kind content :=
  if_pos h

theorem take_text (h : ¬ isBlankLine content) :
    g.take (.text kind content) = g.write kind content :=
  if_neg h

@[simp]
theorem chunks_of_none (finished : List Chunk) : chunks ⟨finished, none⟩ = finished := by
  simp [chunks]

@[simp]
theorem chunks_of_some (finished : List Chunk) (chunk : Chunk) (gap : Gap) :
    chunks ⟨finished, some (chunk, gap)⟩ = finished ++ [chunk] := by
  simp [chunks]

/-- A blank line makes no chunk, and stands in none until a line with text comes. -/
@[simp]
theorem chunks_skip : (g.skip kind content).chunks = g.chunks := by
  simp [chunks, skip, Function.comp_def]

theorem write_of_none (finished : List Chunk) :
    write ⟨finished, none⟩ kind content = ⟨finished, some (⟨kind, [content]⟩, .blanks [])⟩ := by
  simp [write]

theorem write_of_eq (finished : List Chunk) (lines : List String) (gap : Gap) :
    write ⟨finished, some (⟨kind, lines⟩, gap)⟩ kind content
      = ⟨finished, some (⟨kind, lines ++ gap.lines ++ [content]⟩, .blanks [])⟩ := by
  simp [write]

theorem write_of_ne (finished : List Chunk) {other : Kind} (lines : List String) (gap : Gap)
    (h : other ≠ kind) :
    write ⟨finished, some (⟨other, lines⟩, gap)⟩ kind content
      = ⟨finished ++ [⟨other, lines⟩], some (⟨kind, [content]⟩, .blanks [])⟩ := by
  simp [write, h]

/-- A line of the other kind than the newest chunk does not look at the gap behind that chunk. -/
theorem take_of_kind_ne (finished : List Chunk) {chunk : Chunk} (h : chunk.kind ≠ kind)
    (gap gap' : Gap) :
    take ⟨finished, some (chunk, gap)⟩ (.text kind content)
      = take ⟨finished, some (chunk, gap')⟩ (.text kind content) := by
  by_cases hblank : isBlankLine content
  · rw [take_blank hblank, take_blank hblank]
    simp [skip, Gap.add, h]
  · rw [take_text hblank, take_text hblank]
    simp [write, chunks, h]

/-- The kind of the chunk that a line may still be added to. -/
def liveKind? (g : Growth) : Option Kind :=
  g.newest?.map (·.1.kind)

/-- What a line with text does: it goes on in a newest chunk of its kind, across the gap, or it
begins a chunk, because there is no newest chunk to go on in or that one has the other kind. -/
theorem write_cases (g : Growth) (kind : Kind) (content : String) :
    (∃ finished lines gap, g = ⟨finished, some (⟨kind, lines⟩, gap)⟩ ∧
        g.write kind content
          = ⟨finished, some (⟨kind, lines ++ gap.lines ++ [content]⟩, .blanks [])⟩) ∨
      (g.liveKind? ≠ some kind ∧
        g.write kind content = ⟨g.chunks, some (⟨kind, [content]⟩, .blanks [])⟩) := by
  obtain ⟨finished, _ | ⟨⟨other, lines⟩, gap⟩⟩ := g
  · right
    exact ⟨by simp [liveKind?], by rw [write_of_none, chunks_of_none]⟩
  · by_cases hkind : other = kind
    · subst hkind
      exact .inl ⟨finished, lines, gap, rfl, write_of_eq _ _ _⟩
    · right
      exact ⟨by simpa [liveKind?] using hkind, by rw [write_of_ne _ _ _ hkind, chunks_of_some]⟩

/-- A line with text leaves a chunk of its kind open. -/
@[simp]
theorem liveKind?_write : (g.write kind content).liveKind? = some kind := by
  rcases write_cases g kind content with ⟨finished, lines, gap, rfl, hwrite⟩ | ⟨-, hwrite⟩
  · rw [hwrite]
    rfl
  · rw [hwrite]
    rfl

/-- A blank line leaves the open chunk open. -/
@[simp]
theorem liveKind?_skip : (g.skip kind content).liveKind? = g.liveKind? := by
  simp [liveKind?, skip, Function.comp_def]

theorem mem_chunks_of_newest? {chunk : Chunk} {gap : Gap} (h : g.newest? = some (chunk, gap)) :
    chunk ∈ g.chunks := by
  rw [chunks, h]
  simp

/-- A chunk after a line with text is an old one, a new one or a newest one that has gone on. -/
theorem mem_chunks_write {chunk : Chunk} (h : chunk ∈ (g.write kind content).chunks) :
    chunk ∈ g.chunks ∨ chunk = ⟨kind, [content]⟩ ∨
      ∃ lines gap, g.newest? = some (⟨kind, lines⟩, gap) ∧
        chunk = ⟨kind, lines ++ gap.lines ++ [content]⟩ := by
  rcases write_cases g kind content with ⟨finished, lines, gap, rfl, hwrite⟩ | ⟨-, hwrite⟩
  · rw [hwrite, chunks_of_some, List.mem_append, List.mem_singleton] at h
    rcases h with h | h
    · exact .inl (by simp [h])
    · exact .inr (.inr ⟨lines, gap, rfl, h⟩)
  · rw [hwrite, chunks_of_some, List.mem_append, List.mem_singleton] at h
    rcases h with h | h
    · exact .inl h
    · exact .inr (.inl h)

/-- Nothing has come after a line with text. -/
theorem lines_write {chunk : Chunk} {gap : Gap}
    (h : (g.write kind content).newest? = some (chunk, gap)) : gap.lines = [] := by
  rcases write_cases g kind content with ⟨finished, lines, gap', rfl, hwrite⟩ | ⟨-, hwrite⟩
  · rw [hwrite] at h
    cases h
    rfl
  · rw [hwrite] at h
    cases h
    rfl

/-- What will stand before the next line after a blank one: an empty line, something that would have
stood there before, or the blank line, if it has the kind of the newest chunk. -/
theorem mem_lines_skip {chunk : Chunk} {gap : Gap} {line : String}
    (h : (g.skip kind content).newest? = some (chunk, gap)) (hline : line ∈ gap.lines) :
    line = "" ∨ (∃ gap', g.newest? = some (chunk, gap') ∧ line ∈ gap'.lines) ∨
      chunk.kind = kind ∧ line = content := by
  obtain ⟨⟨chunk', gap'⟩, hnewest, heq⟩ := Option.map_eq_some_iff.1 h
  obtain ⟨rfl, rfl⟩ := Prod.mk.inj heq
  rcases Gap.mem_lines_add hline with hline | hline | ⟨halike, hline⟩
  · exact .inl hline
  · exact .inr (.inl ⟨gap', hnewest, hline⟩)
  · exact .inr (.inr ⟨of_decide_eq_true halike, hline⟩)

end Growth

/-! ## The grouping shows the story -/

namespace Progress

/-- What has come after the last line with text of the run that is open; a run of blank lines only
leads to nothing that a later run of its kind could go on from without a seam. -/
def gap (p : Progress) : Gap :=
  match p.current? with
  | some (_, lines) =>
    if lines.all isBlankLine then .broken else .blanks (lines.reverse.rtakeWhile isBlankLine)
  | none => .broken

/-- The story behind the closed chunks, newest first. -/
def growthOf (closed : List Chunk) (joinable : Bool) (gap : Gap) : Growth :=
  match joinable, closed with
  | true, newest :: older => ⟨older.reverse, some (newest, gap)⟩
  | _, _ => ⟨closed.reverse, none⟩

/-- The story that a state of the grouping shows: its chunks are those that closing would leave. -/
def growth (p : Progress) : Growth :=
  growthOf p.close.closed p.close.joinable p.gap

/-- Which of the chunks is open does not matter for what chunks there are. -/
theorem chunks_growthOf (closed : List Chunk) (joinable : Bool) (gap : Gap) :
    (growthOf closed joinable gap).chunks = closed.reverse := by
  unfold growthOf
  split
  · simp
  · simp

/-- The chunks of the story are those that the grouping has once its run is closed. -/
theorem chunks_growth (p : Progress) : p.growth.chunks = p.close.closed.reverse :=
  chunks_growthOf _ _ _

/-! ### Closing a run -/

variable {p : Progress} {kind : Kind} {content : String} {lines : List String}

theorem close_of_none (h : p.current? = none) : p.close = p := by
  rw [close, h]

/-- A run of blank lines closes without a trace. -/
theorem close_of_blank (h : p.current? = some (kind, lines)) (hblank : ∀ l ∈ lines, isBlankLine l) :
    p.close = { p with current? := none } := by
  have htrim : trimBlankLines lines.reverse = [] := trimBoth_eq_nil_iff.2 (by simpa using hblank)
  rw [close, h]
  simp only [htrim]

/-- A run with text closes to its trimmed lines. -/
theorem close_of_text (h : p.current? = some (kind, lines)) (htext : ∃ l ∈ lines, ¬ isBlankLine l) :
    p.close = ⟨p.add ⟨kind, trimBlankLines lines.reverse⟩, none, true⟩ := by
  have htrim : trimBlankLines lines.reverse ≠ [] := by
    rw [trimBlankLines, Ne, trimBoth_eq_nil_iff]
    push Not
    simpa using htext
  rw [close, h]
  cases hrun : trimBlankLines lines.reverse with
  | nil => exact absurd hrun htrim
  | cons l run => simp only [hrun]

theorem current?_close (p : Progress) : p.close.current? = none := by
  unfold close
  split
  · assumption
  · split <;> rfl

/-- Where a run is added, and what it is put behind there, does not hang on its lines. -/
theorem exists_add_eq (p : Progress) (kind : Kind) :
    ∃ lead older, ∀ run, p.add ⟨kind, run⟩ = ⟨kind, lead ++ run⟩ :: older := by
  rcases hp : p.closed with _ | ⟨last, older⟩
  · exact ⟨[], [], fun run => by simp [add, hp]⟩
  · by_cases hjoin : p.joinable = true ∧ last.kind = kind
    · refine ⟨last.lines ++ [""], older, fun run => ?_⟩
      simp [add, hp, hjoin.1, hjoin.2]
    · refine ⟨[], last :: older, fun run => ?_⟩
      simp only [add, hp, Bool.and_eq_true, decide_eq_true_eq, if_neg hjoin, List.nil_append]

/-! ### The story of an open run -/

/-- Between runs there is no more in the gap than an empty line. -/
theorem growth_of_none (h : p.current? = none) :
    p.growth = growthOf p.closed p.joinable .broken := by
  rw [growth, close_of_none h, gap, h]

/-- Nor is there in a run of blank lines, which is dropped when it closes. -/
theorem growth_of_blank (h : p.current? = some (kind, lines))
    (hblank : ∀ l ∈ lines, isBlankLine l) :
    p.growth = growthOf p.closed p.joinable .broken := by
  have hall : lines.all isBlankLine = true := List.all_eq_true.2 hblank
  rw [growth, close_of_blank h hblank, gap, h]
  simp only [hall, if_true]

/-- A run with text counts as if it were closed now, with the blank lines at its end as the gap. -/
theorem growth_of_text (h : p.current? = some (kind, lines))
    (htext : ∃ l ∈ lines, ¬ isBlankLine l) :
    p.growth = growthOf (p.add ⟨kind, trimBlankLines lines.reverse⟩) true
      (.blanks (lines.reverse.rtakeWhile isBlankLine)) := by
  have hall : ¬ lines.all isBlankLine = true := by simpa using htext
  rw [growth, close_of_text h htext, gap, h]
  simp only [if_neg hall]

/-- A broken gap stays as it is, whatever blank line comes. -/
theorem skip_growthOf_broken (closed : List Chunk) (joinable : Bool) :
    (growthOf closed joinable .broken).skip kind content = growthOf closed joinable .broken := by
  unfold growthOf
  split
  · simp [Growth.skip, Gap.add]
  · rfl

/-- Behind a broken gap, a line with text is a run of its own. -/
theorem write_growthOf_broken (p : Progress) :
    (growthOf p.closed p.joinable .broken).write kind content
      = growthOf (p.add ⟨kind, [content]⟩) true (.blanks []) := by
  obtain ⟨closed, current?, joinable⟩ := p
  rcases closed with _ | ⟨last, older⟩
  · simp [growthOf, add, Growth.write_of_none]
  · cases joinable with
    | false => simp [growthOf, add, Growth.write_of_none]
    | true =>
      obtain ⟨other, lines⟩ := last
      by_cases hkind : other = kind
      · -- what a broken gap puts in is the seam that joining puts in
        subst hkind
        simp [growthOf, add, Growth.write_of_eq, Gap.lines]
      · simp [growthOf, add, Growth.write_of_ne _ _ _ hkind, hkind]

/-- A run that begins: the story takes its line behind the runs that are closed. -/
theorem growth_begin (p : Progress) (kind : Kind) (content : String) :
    growth { p with current? := some (kind, [content]) }
      = (growthOf p.closed p.joinable .broken).take (.text kind content) := by
  by_cases hblank : isBlankLine content
  · rw [Growth.take_blank hblank, skip_growthOf_broken]
    exact growth_of_blank rfl (by simpa using hblank)
  · rw [Growth.take_text hblank, write_growthOf_broken]
    rw [growth_of_text rfl ⟨content, List.mem_singleton_self _, hblank⟩]
    have htrim : trimBlankLines ([] ++ [content]) = [content] := trimBoth_concat_of_neg hblank
    have hgap : ([] ++ [content]).rtakeWhile isBlankLine = [] :=
      List.rtakeWhile_concat_neg isBlankLine [] content hblank
    rw [List.nil_append] at htrim hgap
    rw [List.reverse_singleton, htrim, hgap]
    rfl

/-- A run that goes on takes a line as the story does. -/
theorem growth_continue (h : p.current? = some (kind, lines)) (content : String) :
    growth { p with current? := some (kind, content :: lines) }
      = p.growth.take (.text kind content) := by
  have hrun : (content :: lines).reverse = lines.reverse ++ [content] := List.reverse_cons
  by_cases hlines : ∀ l ∈ lines, isBlankLine l
  · rw [growth_of_blank h hlines]
    by_cases hblank : isBlankLine content
    · rw [Growth.take_blank hblank, skip_growthOf_broken]
      exact growth_of_blank rfl (by simpa using ⟨hblank, hlines⟩)
    · -- the blank lines at the front of the run are trimmed
      have hdrop : lines.reverse.dropWhile isBlankLine = [] :=
        List.dropWhile_eq_nil_iff.2 (by simpa using hlines)
      rw [Growth.take_text hblank, write_growthOf_broken,
        growth_of_text rfl ⟨content, List.mem_cons_self, hblank⟩, hrun, trimBlankLines,
        trimBoth_concat_of_neg hblank, List.rtakeWhile_concat_neg _ _ _ hblank, hdrop]
      rfl
  · push Not at hlines
    obtain ⟨lead, older, hadd⟩ := exists_add_eq p kind
    rw [growth_of_text h hlines, hadd]
    by_cases hblank : isBlankLine content
    · have htext : ∃ l ∈ content :: lines, ¬ isBlankLine l := by
        obtain ⟨l, hl, htext⟩ := hlines
        exact ⟨l, List.mem_cons_of_mem _ hl, htext⟩
      rw [Growth.take_blank hblank, growth_of_text rfl htext, hrun, trimBlankLines,
        trimBoth_concat_of_pos hblank, List.rtakeWhile_concat_pos _ _ _ hblank]
      show growthOf (p.add _) _ _ = _
      rw [hadd]
      simp [growthOf, Growth.skip, Gap.add, trimBlankLines]
    · -- the blank lines at the end of the run come back
      rw [Growth.take_text hblank, growth_of_text rfl ⟨content, List.mem_cons_self, hblank⟩, hrun,
        trimBlankLines, trimBoth_concat_of_neg hblank, List.rtakeWhile_concat_neg _ _ _ hblank,
        dropWhile_eq_trimBoth_append (by simpa using hlines)]
      show growthOf (p.add _) _ _ = _
      rw [hadd]
      simp [growthOf, Growth.write_of_eq, Gap.lines, trimBlankLines]

/-- Only the gap of a run is forgotten when a line of the other kind closes it, and such a line does
not look at the gap. -/
theorem growth_close_take {other : Kind} (h : p.current? = some (other, lines))
    (hne : other ≠ kind) :
    (growthOf p.close.closed p.close.joinable .broken).take (.text kind content)
      = p.growth.take (.text kind content) := by
  by_cases hlines : ∀ l ∈ lines, isBlankLine l
  · rw [growth_of_blank h hlines, close_of_blank h hlines]
  · -- the two sides have the same newest chunk, which is of the other kind, and differ in its gap
    push Not at hlines
    obtain ⟨lead, older, hadd⟩ := exists_add_eq p other
    rw [growth_of_text h hlines, close_of_text h hlines, hadd]
    exact Growth.take_of_kind_ne older.reverse hne _ _

/-- The grouping and the story take every line alike. -/
theorem growth_take (p : Progress) (line : PlainLine) :
    (p.take line).growth = p.growth.take line := by
  cases line with
  | split =>
    rw [Growth.take_split, chunks_growth]
    exact growth_of_none (current?_close p)
  | text kind content =>
    cases hp : p.current? with
    | none =>
      rw [growth_of_none hp, ← growth_begin, take, hp]
    | some run =>
      obtain ⟨present, lines⟩ := run
      -- a line of the other kind closes the run and begins one; both are steps of their own
      by_cases hkind : present = kind
      · subst hkind
        rw [← growth_continue hp, take, hp]
        simp
      · rw [← growth_close_take hp hkind, ← growth_begin, take, hp]
        simp [hkind]

/-- The story and the grouping take any number of lines alike. -/
theorem growth_foldl (lines : List PlainLine) (p : Progress) :
    (lines.foldl take p).growth = lines.foldl Growth.take p.growth := by
  induction lines generalizing p with
  | nil => rfl
  | cons line lines ih => rw [List.foldl_cons, List.foldl_cons, ih, growth_take]

end Progress

/-! ## The story of some lines -/

/-- What some lines grow to. -/
def grow (lines : List PlainLine) : Growth :=
  lines.foldl Growth.take {}

theorem grow_append (lines rest : List PlainLine) :
    grow (lines ++ rest) = rest.foldl Growth.take (grow lines) :=
  List.foldl_append

theorem grow_concat (lines : List PlainLine) (line : PlainLine) :
    grow (lines ++ [line]) = (grow lines).take line := by
  rw [grow_append]
  rfl

/-- The chunks that lines make are those that they grow to. -/
theorem group_eq_chunks (lines : List PlainLine) : group lines = (grow lines).chunks := by
  rw [group, ← Progress.chunks_growth, Progress.growth_foldl]
  rfl

end Weave.Chunk
