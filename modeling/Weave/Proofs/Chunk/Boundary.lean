import Mathlib.Order.Monotone.Basic
import Weave.Proofs.Chunk.Content

/-!
# Where chunks begin and end

A line is followed to its chunk through the order of the lines with text, which grouping keeps:
`home?` is the number of the chunk that the line at a position ends up in. The number is how many
chunks there are right after the line (`home?_eq`), so that two lines share a chunk exactly if no
chunk begins after the first of them, up to the second. A chunk begins at a line with text that the
newest chunk does not go on with (`length_chunks_write`), which is because of its kind or because of
a split; `group_boundaries` says this of the positions in the lines that are grouped.
-/

namespace Weave.Chunk

open Text

/-! ## Following a line to its chunk -/

/-- A line with text stands at position `i`. -/
def TextAt (lines : List PlainLine) (i : ℕ) (kind : Kind) (content : String) : Prop :=
  lines[i]? = some (.text kind content) ∧ ¬ isBlankLine content

/-- The lines with text of some chunks, in order, each with the number of its chunk. -/
def placed (chunks : List Chunk) : List (ℕ × Kind × String) :=
  chunks.zipIdx.flatMap fun (chunk, n) => chunk.nonblank.map (n, ·)

/-- The number of the chunk that the line with text at position `i` ends up in: as many lines with
text come before it in the chunks as in the lines that are grouped. -/
def home? (lines : List PlainLine) (i : ℕ) : Option ℕ :=
  (placed (group lines))[(PlainLine.nonblank (lines.take i)).length]?.map (·.1)

/-- The lines of one more chunk are placed under the number of chunks before it. -/
theorem placed_concat (chunks : List Chunk) (chunk : Chunk) :
    placed (chunks ++ [chunk]) = placed chunks ++ chunk.nonblank.map (chunks.length, ·) := by
  simp [placed, List.zipIdx_append]

/-- Without their numbers these are the lines with text of the chunks. -/
theorem map_snd_placed (chunks : List Chunk) :
    (placed chunks).map (·.2) = chunks.flatMap nonblank := by
  induction chunks using List.reverseRecOn with
  | nil => rfl
  | append_singleton chunks chunk ih =>
    rw [placed_concat, List.map_append, ih, List.flatMap_append, List.flatMap_singleton,
      List.map_map]
    congr 1
    exact List.map_id _

/-- A line is placed under the number of a chunk that holds it. -/
theorem exists_of_mem_placed {chunks : List Chunk} {n : ℕ} {line : Kind × String}
    (h : (n, line) ∈ placed chunks) : ∃ chunk, chunks[n]? = some chunk ∧ line ∈ chunk.nonblank := by
  obtain ⟨⟨chunk, m⟩, hchunk, hline⟩ := List.mem_flatMap.1 h
  obtain ⟨line', hline', heq⟩ := List.mem_map.1 hline
  obtain ⟨rfl, rfl⟩ := Prod.mk.inj heq
  exact ⟨chunk, List.mem_zipIdx_iff_getElem?.1 hchunk, hline'⟩

/-- A line with text of a chunk has the kind of the chunk and stands in it. -/
theorem of_mem_nonblank {chunk : Chunk} {kind : Kind} {content : String}
    (h : (kind, content) ∈ chunk.nonblank) : chunk.kind = kind ∧ content ∈ chunk.lines := by
  obtain ⟨line, hline, heq⟩ := List.mem_map.1 h
  obtain ⟨rfl, rfl⟩ := Prod.mk.inj heq
  exact ⟨rfl, (List.mem_filter.1 hline).1⟩

namespace Growth

variable {g : Growth} {kind : Kind} {content : String}

/-- A line with text is placed last, in the newest chunk. -/
theorem placed_write (hg : g.Sound) (kind : Kind) (hcontent : ¬ isBlankLine content) :
    placed (g.write kind content).chunks
      = placed g.chunks ++ [((g.write kind content).chunks.length - 1, kind, content)] := by
  rcases write_cases g kind content with ⟨finished, lines, gap, rfl, hwrite⟩ | ⟨-, hwrite⟩
  · rw [hwrite, chunks_of_some, chunks_of_some, placed_concat, placed_concat,
      nonblank_concat gap.lines (hg.blank _ gap rfl) hcontent]
    simp
  · rw [hwrite, chunks_of_some, placed_concat]
    simp [nonblank, hcontent]

end Growth

/-- What has been placed stays where it is, whatever lines follow. -/
theorem placed_group_isPrefix (lines rest : List PlainLine) :
    placed (group lines) <+: placed (group (lines ++ rest)) := by
  induction rest using List.reverseRecOn with
  | nil => simp
  | append_singleton rest line ih =>
    refine ih.trans ?_
    rw [← List.append_assoc, group_eq_chunks, group_eq_chunks, grow_concat]
    cases line with
    | split => simp
    | text kind content =>
      by_cases hcontent : isBlankLine content
      · simp [Growth.take_blank hcontent]
      · rw [Growth.take_text hcontent, Growth.placed_write (sound_grow _) kind hcontent]
        exact List.prefix_append _ _

section TextAt

variable {lines : List PlainLine} {i : ℕ} {kind : Kind} {content : String}

theorem TextAt.take_succ (h : TextAt lines i kind content) :
    lines.take (i + 1) = lines.take i ++ [.text kind content] := by
  rw [List.take_add_one, h.1]
  rfl

/-- Right after a line with text, it is the last one that has been placed. -/
theorem TextAt.placed_take (h : TextAt lines i kind content) :
    placed (group (lines.take (i + 1)))
      = placed (group (lines.take i))
        ++ [((group (lines.take (i + 1))).length - 1, kind, content)] := by
  rw [h.take_succ, group_eq_chunks, group_eq_chunks, grow_concat, Growth.take_text h.2]
  exact Growth.placed_write (sound_grow _) kind h.2

/-- Grouping places every line with text, and places it once. -/
theorem length_placed_group (lines : List PlainLine) :
    (placed (group lines)).length = (PlainLine.nonblank lines).length := by
  rw [← List.length_map (f := (·.2)), map_snd_placed, nonblank_group]

/-- A line with text is placed in the chunk that is the newest one right after it. -/
theorem TextAt.placed_group (h : TextAt lines i kind content) :
    (placed (group lines))[(PlainLine.nonblank (lines.take i)).length]?
      = some ((group (lines.take (i + 1))).length - 1, kind, content) := by
  -- later lines are placed behind this one
  obtain ⟨later, hlater⟩ := placed_group_isPrefix (lines.take (i + 1)) (lines.drop (i + 1))
  rw [List.take_append_drop] at hlater
  rw [← hlater, h.placed_take, ← length_placed_group, List.append_assoc,
    List.getElem?_append_right (Nat.le_refl _), Nat.sub_self]
  rfl

/-- The line is in the newest of the chunks that there are right behind it. -/
theorem home?_eq (h : TextAt lines i kind content) :
    home? lines i = some ((group (lines.take (i + 1))).length - 1) := by
  rw [home?, h.placed_group]
  rfl

/-- The chunk that a line ends up in has its kind and holds it. -/
theorem exists_chunk_of_textAt (h : TextAt lines i kind content) :
    ∃ n chunk, home? lines i = some n ∧ (group lines)[n]? = some chunk ∧ chunk.kind = kind ∧
      content ∈ chunk.lines := by
  obtain ⟨chunk, hchunk, hline⟩ := exists_of_mem_placed (List.mem_of_getElem? h.placed_group)
  exact ⟨_, chunk, home?_eq h, hchunk, of_mem_nonblank hline⟩

end TextAt

/-! ## When a chunk begins -/

namespace Growth

variable {g : Growth} {kind : Kind} {content : String}

/-- A chunk begins with a line with text that has no chunk of its kind to go on in. -/
theorem length_chunks_write (g : Growth) (kind : Kind) (content : String) :
    (g.write kind content).chunks.length
      = if g.liveKind? = some kind then g.chunks.length else g.chunks.length + 1 := by
  rcases write_cases g kind content with ⟨finished, lines, gap, rfl, hwrite⟩ | ⟨hother, hwrite⟩
  · simp [hwrite, liveKind?]
  · rw [if_neg hother, hwrite, chunks_of_some, List.length_append, List.length_singleton]

/-- A line never takes a chunk away. -/
theorem length_chunks_le_take (g : Growth) (line : PlainLine) :
    g.chunks.length ≤ (g.take line).chunks.length := by
  cases line with
  | split => simp
  | text kind content =>
    by_cases hcontent : isBlankLine content
    · rw [take_blank hcontent, chunks_skip]
    · rw [take_text hcontent, length_chunks_write]
      split <;> omega

/-- Neither do more lines. -/
theorem length_chunks_le_foldl (lines : List PlainLine) (g : Growth) :
    g.chunks.length ≤ (lines.foldl take g).chunks.length := by
  induction lines generalizing g with
  | nil => exact Nat.le_refl _
  | cons line lines ih => exact (length_chunks_le_take g line).trans (ih (g.take line))

/-- No split is among some lines, and no line with text of another kind. -/
def Unbroken (kind : Kind) (lines : List PlainLine) : Prop :=
  ∀ line ∈ lines, ∃ own content, line = .text own content ∧ (¬ isBlankLine content → own = kind)

/-- No chunk has begun by the time a line with text is taken exactly if there was a chunk of its
kind to go on in from the start, and what comes in between is unbroken. -/
theorem length_foldl_take_eq_iff (between : List PlainLine) (g : Growth) (kind : Kind)
    (hcontent : ¬ isBlankLine content) :
    ((between.foldl take g).take (.text kind content)).chunks.length = g.chunks.length ↔
      g.liveKind? = some kind ∧ Unbroken kind between := by
  induction between generalizing g with
  | nil =>
    rw [List.foldl_nil, take_text hcontent, length_chunks_write]
    by_cases hlive : g.liveKind? = some kind
    · simp [hlive, Unbroken]
    · simp [hlive]
  | cons line between ih =>
    rw [List.foldl_cons]
    cases line with
    | split =>
      -- nothing goes on behind a split, so that the last line begins a chunk at the latest
      have hbroken : ¬ Unbroken kind (.split :: between) := by
        intro h
        obtain ⟨own, content, heq, -⟩ := h .split List.mem_cons_self
        cases heq
      have hmore : ¬ ((between.foldl take ⟨g.chunks, none⟩).take (.text kind content)).chunks.length
          = g.chunks.length := by
        intro h
        have hnone := (ih ⟨g.chunks, none⟩).1 (by rw [h, chunks_of_none])
        exact absurd hnone.1 (by simp [liveKind?])
      simp [hbroken, hmore]
    | text own text =>
      have hunbroken : Unbroken kind (.text own text :: between) ↔
          (¬ isBlankLine text → own = kind) ∧ Unbroken kind between := by
        simp [Unbroken]
      rw [hunbroken]
      by_cases htext : isBlankLine text
      · -- a blank line changes neither the chunks nor the kind that can go on
        have hskip := ih (g.skip own text)
        rw [chunks_skip, liveKind?_skip] at hskip
        simp [take_blank htext, hskip, htext]
      · have hwrite := ih (g.write own text)
        rw [liveKind?_write, Option.some_inj] at hwrite
        rw [take_text htext]
        by_cases hlive : g.liveKind? = some own
        · rw [length_chunks_write, if_pos hlive] at hwrite
          simp [hwrite, hlive, htext]
        · -- a chunk begins right here
          have hlength := length_chunks_write g own text
          rw [if_neg hlive] at hlength
          have hmore := length_chunks_le_foldl (between ++ [.text kind content]) (g.write own text)
          rw [List.foldl_append] at hmore
          constructor
          · intro h
            have hle : (g.write own text).chunks.length ≤ g.chunks.length := h ▸ hmore
            omega
          · rintro ⟨hkind, hown, -⟩
            exact absurd (hown htext ▸ hkind) hlive

end Growth

/-! ## Positions -/

section Position

variable {lines : List PlainLine} {i j : ℕ} {kind kind' : Kind} {content content' : String}

theorem mem_drop_take_iff {line : PlainLine} :
    line ∈ (lines.drop (i + 1)).take (j - (i + 1)) ↔
      ∃ m, i < m ∧ m < j ∧ lines[m]? = some line := by
  rw [List.mem_iff_getElem?]
  constructor
  · rintro ⟨m, hm⟩
    rw [List.getElem?_take, List.getElem?_drop] at hm
    split at hm
    · exact ⟨i + 1 + m, by omega, by omega, hm⟩
    · cases hm
  · rintro ⟨m, him, hmj, hm⟩
    refine ⟨m - (i + 1), ?_⟩
    rw [List.getElem?_take_of_lt (by omega), List.getElem?_drop]
    rwa [Nat.add_sub_cancel' (by omega)]

/-- Strictly between two positions there is no split, and no line with text of another kind. -/
def UnbrokenBetween (lines : List PlainLine) (i j : ℕ) (kind : Kind) : Prop :=
  ∀ m, i < m → m < j → lines[m]? ≠ some .split ∧
    ∀ other content, TextAt lines m other content → other = kind

/-- That nothing breaks the lines between two positions can be said of the list of these lines or of
the positions. -/
theorem unbroken_iff :
    Growth.Unbroken kind ((lines.drop (i + 1)).take (j - (i + 1))) ↔
      UnbrokenBetween lines i j kind := by
  constructor
  · intro h m him hmj
    have hlines := fun line hline => h line (mem_drop_take_iff.2 ⟨m, him, hmj, hline⟩)
    constructor
    · intro hsplit
      obtain ⟨own, text, heq, -⟩ := hlines _ hsplit
      cases heq
    · rintro other text ⟨hline, htext⟩
      obtain ⟨own, text', heq, hown⟩ := hlines _ hline
      cases heq
      exact hown htext
  · intro h line hline
    obtain ⟨m, him, hmj, hm⟩ := mem_drop_take_iff.1 hline
    obtain ⟨hsplit, htext⟩ := h m him hmj
    cases line with
    | split => exact absurd hm hsplit
    | text own text => exact ⟨own, text, rfl, fun hblank => htext own text ⟨hm, hblank⟩⟩

/-- There is a chunk once a line with text has come. -/
theorem TextAt.length_pos (h : TextAt lines i kind content) :
    0 < (group (lines.take (i + 1))).length := by
  rw [List.length_pos_iff_ne_nil]
  intro hnil
  have hplaced := h.placed_take
  rw [hnil] at hplaced
  simp [placed] at hplaced

/-- Two lines with text share a chunk exactly if they have the same kind and neither a split nor a
line with text of the other kind stands between them. -/
theorem home?_eq_home?_iff (hij : i < j) (hi : TextAt lines i kind content)
    (hj : TextAt lines j kind' content') :
    home? lines i = home? lines j ↔ kind = kind' ∧ UnbrokenBetween lines i j kind := by
  have hsplit : lines.take (j + 1) = lines.take (i + 1)
      ++ (lines.drop (i + 1)).take (j - (i + 1)) ++ [.text kind' content'] := by
    rw [hj.take_succ, ← List.take_add, Nat.add_sub_cancel' hij]
  have hlive : (grow (lines.take (i + 1))).liveKind? = some kind := by
    rw [hi.take_succ, grow_concat, Growth.take_text hi.2, Growth.liveKind?_write]
  have hcount : (group (lines.take (j + 1))).length = (group (lines.take (i + 1))).length ↔
      kind = kind' ∧ UnbrokenBetween lines i j kind' := by
    rw [hsplit, group_eq_chunks, group_eq_chunks, grow_concat, grow_append,
      Growth.length_foldl_take_eq_iff _ _ _ hj.2, hlive, Option.some_inj,
      unbroken_iff]
  have hposi := hi.length_pos
  have hposj := hj.length_pos
  calc home? lines i = home? lines j
      ↔ (group (lines.take (j + 1))).length = (group (lines.take (i + 1))).length := by
        rw [home?_eq hi, home?_eq hj, Option.some_inj]
        omega
    _ ↔ kind = kind' ∧ UnbrokenBetween lines i j kind' := hcount
    _ ↔ kind = kind' ∧ UnbrokenBetween lines i j kind := by
        constructor
        · rintro ⟨rfl, h⟩
          exact ⟨rfl, h⟩
        · rintro ⟨rfl, h⟩
          exact ⟨rfl, h⟩

/-- Only a line with text changes the chunks. -/
theorem group_take_succ_of_not_textAt (h : ∀ kind content, ¬ TextAt lines i kind content) :
    group (lines.take (i + 1)) = group (lines.take i) := by
  rw [List.take_add_one]
  cases hline : lines[i]? with
  | none => rw [Option.toList_none, List.append_nil]
  | some line =>
    rw [Option.toList_some, group_eq_chunks, group_eq_chunks, grow_concat]
    cases line with
    | split => simp
    | text kind content =>
      have hcontent : isBlankLine content := by
        by_contra hcontent
        exact h kind content ⟨hline, hcontent⟩
      rw [Growth.take_blank hcontent, Growth.chunks_skip]

/-- A line with text begins at most one chunk. -/
theorem TextAt.length_group_le (h : TextAt lines i kind content) :
    (group (lines.take (i + 1))).length ≤ (group (lines.take i)).length + 1 := by
  rw [h.take_succ, group_eq_chunks, group_eq_chunks, grow_concat, Growth.take_text h.2,
    Growth.length_chunks_write]
  split <;> omega

/-- The more lines have been read, the more chunks there are. -/
theorem monotone_length_group_take (lines : List PlainLine) :
    Monotone fun i => (group (lines.take i)).length := by
  refine monotone_nat_of_le_succ fun i => ?_
  rw [List.take_add_one, group_eq_chunks, group_eq_chunks, grow_append]
  exact Growth.length_chunks_le_foldl _ _

/-- Every chunk begins at some line with text. -/
theorem exists_begin {n : ℕ} (h : n < (group (lines.take j)).length) :
    ∃ i kind content, TextAt lines i kind content ∧ (group (lines.take i)).length = n ∧
      (group (lines.take (i + 1))).length = n + 1 := by
  induction j with
  | zero => simp [group_eq_chunks, grow, Growth.chunks] at h
  | succ j ih =>
    -- the chunk is there before the last line, or this line has begun it
    by_cases hbefore : n < (group (lines.take j)).length
    · exact ih hbefore
    · by_cases htext : ∃ kind content, TextAt lines j kind content
      · obtain ⟨kind, content, htext⟩ := htext
        have hle := htext.length_group_le
        exact ⟨j, kind, content, htext, by omega, by omega⟩
      · push Not at htext
        rw [group_take_succ_of_not_textAt htext] at h
        exact absurd h hbefore

/-- Once there are chunks, there is a last line with text, and nothing has changed since. -/
theorem exists_last_text (h : 0 < (group (lines.take j)).length) :
    ∃ i kind content, i < j ∧ TextAt lines i kind content ∧
      (∀ m, i < m → m < j → ∀ kind content, ¬ TextAt lines m kind content) ∧
      (group (lines.take (i + 1))).length = (group (lines.take j)).length := by
  induction j with
  | zero => simp [group_eq_chunks, grow, Growth.chunks] at h
  | succ j ih =>
    by_cases htext : ∃ kind content, TextAt lines j kind content
    · obtain ⟨kind, content, htext⟩ := htext
      exact ⟨j, kind, content, by omega, htext, fun m hjm hmj => by omega, rfl⟩
    · push Not at htext
      rw [group_take_succ_of_not_textAt htext] at h ⊢
      obtain ⟨i, kind, content, hij, hi, hnone, hlength⟩ := ih h
      refine ⟨i, kind, content, by omega, hi, fun m him hmj => ?_, hlength⟩
      rcases Nat.lt_succ_iff_lt_or_eq.1 hmj with hmj | rfl
      · exact hnone m him hmj
      · exact htext

/-- Position `i` is that of the last line with text in chunk `n`. -/
def LastIn (lines : List PlainLine) (n i : ℕ) : Prop :=
  (∃ kind content, TextAt lines i kind content) ∧ home? lines i = some n ∧
    ∀ j kind content, TextAt lines j kind content → home? lines j = some n → j ≤ i

/-- Position `i` is that of the first line with text in chunk `n`. -/
def FirstIn (lines : List PlainLine) (n i : ℕ) : Prop :=
  (∃ kind content, TextAt lines i kind content) ∧ home? lines i = some n ∧
    ∀ j kind content, TextAt lines j kind content → home? lines j = some n → i ≤ j

/-- From the last line with text of one chunk to the first of the next. -/
theorem exists_lastIn_firstIn {n : ℕ} (h : n + 1 < (group lines).length) :
    ∃ i j, i < j ∧ LastIn lines n i ∧ FirstIn lines (n + 1) j ∧
      ∀ m, i < m → m < j → ∀ kind content, ¬ TextAt lines m kind content := by
  rw [← List.take_length (l := lines)] at h
  obtain ⟨j, kind', content', hj, hbefore, hafter⟩ := exists_begin h
  have hpos : 0 < (group (lines.take j)).length := by omega
  obtain ⟨i, kind, content, hij, hi, hnone, hlength⟩ := exists_last_text hpos
  have hmono := monotone_length_group_take lines
  refine ⟨i, j, hij, ⟨⟨kind, content, hi⟩, ?_, ?_⟩, ⟨⟨kind', content', hj⟩, ?_, ?_⟩, hnone⟩
  · rw [home?_eq hi, hlength, hbefore, Nat.add_sub_cancel]
  · intro m _ _ hm hhome
    rw [home?_eq hm, Option.some_inj] at hhome
    by_contra him
    -- a later line of this chunk would stand behind the beginning of the next one
    have hjm : j ≤ m := by
      by_contra hmj
      exact hnone m (by omega) (by omega) _ _ hm
    have hle : (group (lines.take (j + 1))).length ≤ (group (lines.take (m + 1))).length :=
      hmono (by omega)
    omega
  · rw [home?_eq hj, hafter, Nat.add_sub_cancel]
  · intro m _ _ hm hhome
    rw [home?_eq hm, Option.some_inj] at hhome
    by_contra hjm
    have hle : (group (lines.take (m + 1))).length ≤ (group (lines.take j)).length :=
      hmono (by omega)
    omega

/-- Chunks are trimmed, and they hold the lines that end up in them, in order. Two lines with text
end up in the same chunk exactly if they have the same kind and neither a split nor a line with text
of the other kind stands between them; in particular neighbours of one kind are kept apart by a
split between the last line with text of the first and the first of the second. -/
theorem group_boundaries (lines : List PlainLine) :
    (∀ chunk ∈ group lines, chunk.Trimmed) ∧
    (placed (group lines)).map (·.2) = PlainLine.nonblank lines ∧
    (∀ i kind content, TextAt lines i kind content → ∃ n chunk, home? lines i = some n ∧
      (group lines)[n]? = some chunk ∧ chunk.kind = kind ∧ content ∈ chunk.lines) ∧
    (∀ i j kind content kind' content', i < j → TextAt lines i kind content →
      TextAt lines j kind' content' →
        (home? lines i = home? lines j ↔ kind = kind' ∧ UnbrokenBetween lines i j kind)) ∧
    (∀ n chunk next, (group lines)[n]? = some chunk → (group lines)[n + 1]? = some next →
      chunk.kind = next.kind →
        ∃ i m j, i < m ∧ m < j ∧ LastIn lines n i ∧ lines[m]? = some .split ∧
          FirstIn lines (n + 1) j) := by
  refine ⟨fun chunk hchunk => trimmed_of_mem_group hchunk, by rw [map_snd_placed, nonblank_group],
    fun i kind content hi => exists_chunk_of_textAt hi,
    fun i j kind content kind' content' hij hi hj => home?_eq_home?_iff hij hi hj, ?_⟩
  intro n chunk next hchunk hnext hkinds
  have hlength : n + 1 < (group lines).length := (List.getElem?_eq_some_iff.1 hnext).1
  obtain ⟨i, j, hij, hlast, hfirst, hnone⟩ := exists_lastIn_firstIn hlength
  obtain ⟨⟨kind, content, hi⟩, hhomei, -⟩ := id hlast
  obtain ⟨⟨kind', content', hj⟩, hhomej, -⟩ := id hfirst
  have hkind : kind = kind' := by
    obtain ⟨_, chunk', hhome, hchunk', hkind, -⟩ := exists_chunk_of_textAt hi
    obtain ⟨_, next', hhome', hnext', hkind', -⟩ := exists_chunk_of_textAt hj
    rw [hhomei, Option.some_inj] at hhome
    rw [hhomej, Option.some_inj] at hhome'
    subst hhome hhome'
    rw [hchunk, Option.some_inj] at hchunk'
    rw [hnext, Option.some_inj] at hnext'
    rw [← hkind, ← hkind', ← hchunk', ← hnext', hkinds]
  have hbroken : ¬ UnbrokenBetween lines i j kind := by
    intro hunbroken
    have hsame := (home?_eq_home?_iff hij hi hj).2 ⟨hkind, hunbroken⟩
    rw [hhomei, hhomej, Option.some_inj] at hsame
    omega
  -- no line with text stands between the two, so that only a split can keep them apart
  rw [UnbrokenBetween] at hbroken
  push Not at hbroken
  obtain ⟨m, him, hmj, hm⟩ := hbroken
  have hsplit : lines[m]? = some .split := by
    by_contra hsplit
    obtain ⟨other, text, htext, -⟩ := hm hsplit
    exact hnone m him hmj other text htext
  exact ⟨i, m, j, him, hmj, hlast, hsplit, hfirst⟩

/-- Two paragraphs around a blank line of code, and a third behind a split. -/
theorem group_boundaries_paragraphs :
    let lines : List PlainLine :=
      [.text .markdown "a", .text .code " ", .text .markdown "b", .split, .text .markdown "c"]
    group lines = [⟨.markdown, ["a", "", "b"]⟩, ⟨.markdown, ["c"]⟩] ∧
      TextAt lines 0 .markdown "a" ∧ TextAt lines 2 .markdown "b" ∧
      home? lines 0 = home? lines 2 ∧ UnbrokenBetween lines 0 2 .markdown ∧
      ∃ i m j, i < m ∧ m < j ∧ LastIn lines 0 i ∧ lines[m]? = some .split ∧ FirstIn lines 1 j := by
  intro lines
  have hgroup : group lines = [⟨.markdown, ["a", "", "b"]⟩, ⟨.markdown, ["c"]⟩] := by decide
  have hfirst : TextAt lines 0 .markdown "a" := ⟨rfl, by decide⟩
  have hsecond : TextAt lines 2 .markdown "b" := ⟨rfl, by decide⟩
  have hhome : home? lines 0 = home? lines 2 := by decide
  obtain ⟨-, -, -, hshare, hsplit⟩ := group_boundaries lines
  obtain ⟨-, hunbroken⟩ := (hshare 0 2 _ _ _ _ (by decide) hfirst hsecond).1 hhome
  exact ⟨hgroup, hfirst, hsecond, hhome, hunbroken,
    hsplit 0 ⟨.markdown, ["a", "", "b"]⟩ ⟨.markdown, ["c"]⟩ (by rw [hgroup]; rfl)
      (by rw [hgroup]; rfl) rfl⟩

end Position

end Weave.Chunk
