import Mathlib.Data.List.SplitBy
import Weave.Proofs.Chunk.Growth

/-!
# Grouping in stages

What `Chunk.group` does in one pass can be done in stages, one after the other: the lines are cut at
the splits (`segments`), the lines of a segment are grouped into runs of one kind, the runs lose the
blank lines at their ends, those that are left empty go (`kept`), and neighbours of one kind become
one chunk, with an empty line at each seam. Grouping lines into runs and merging runs into chunks is
the same operation, `fuse`, without and with something at the seams.

The state of the pass inside a segment is told from the runs that the segment has so far
(`Progress.within`): the last of them is open, the others have gone through all stages. A line
extends the runs as `fuse` does (`take_text_within`), and a split ends the segment
(`take_split_within`), so that the pass and the stages give the same chunks (`group_eq_flatMap`).
-/

namespace Weave.Chunk

open Text

/-! ## The stages -/

/-- A line that is no split, as a chunk by itself. -/
def ofLine? : PlainLine → Option Chunk
  | .split => none
  | .text kind content => some ⟨kind, [content]⟩

/-- The lines between the splits, each as a chunk by itself. -/
def segments (lines : List PlainLine) : List (List Chunk) :=
  (lines.splitOn .split).map (List.filterMap ofLine?)

/-- Chunks of one kind as one chunk, with `seam` between the lines of each two of them. -/
def join? (seam : List String) (chunks : List Chunk) : Option Chunk :=
  chunks.getLast?.map fun last => ⟨last.kind, seam.intercalate (chunks.map lines)⟩

/-- Joins neighbours of one kind, as many of them as there are side by side. -/
def fuse (seam : List String) (chunks : List Chunk) : List Chunk :=
  (chunks.splitBy fun chunk next => chunk.kind = next.kind).filterMap (join? seam)

/-- A run without the blank lines at its ends. -/
def trim (run : Chunk) : Chunk :=
  { run with lines := trimBlankLines run.lines }

/-- The trimmed runs in which something is left. -/
def kept (runs : List Chunk) : List Chunk :=
  (runs.map trim).filter (·.lines ≠ [])

/-- The chunks that runs make: what is left of them, merged across one empty line. -/
def merged (runs : List Chunk) : List Chunk :=
  fuse [""] (kept runs)

/-- The chunks that a segment makes: its longest runs of one kind, trimmed, if something is left of
them, and merged. -/
def stages (segment : List Chunk) : List Chunk :=
  merged (fuse [] segment)

/-- A split begins a segment. -/
theorem segments_split (lines : List PlainLine) :
    segments (.split :: lines) = [] :: segments lines := by
  simp [segments, List.splitOn, List.splitOnP_cons_eq_if_modifyHead]

theorem segments_text (kind : Kind) (content : String) (lines : List PlainLine) :
    segments (.text kind content :: lines)
      = (segments lines).modifyHead (⟨kind, [content]⟩ :: ·) := by
  cases h : lines.splitOn PlainLine.split with
  | nil => exact absurd h (List.splitOn_ne_nil _ lines)
  | cons first rest =>
    rw [List.splitOn] at h
    simp [segments, List.splitOn, List.splitOnP_cons_eq_if_modifyHead, h, ofLine?]

/-! ## One more chunk to fuse -/

/-- Puts a chunk behind others. If the last of them has the same kind, then that one goes on. -/
def attach (seam : List String) (chunks : List Chunk) (next : Chunk) : List Chunk :=
  match chunks.getLast? with
  | none => [next]
  | some last =>
    if last.kind = next.kind then
      chunks.dropLast ++ [⟨next.kind, last.lines ++ seam ++ next.lines⟩]
    else chunks ++ [next]

section Attach

variable {seam : List String} {chunks : List Chunk} {last next : Chunk}

theorem attach_concat_of_eq (h : last.kind = next.kind) :
    attach seam (chunks ++ [last]) next
      = chunks ++ [⟨next.kind, last.lines ++ seam ++ next.lines⟩] := by
  simp [attach, h]

theorem attach_concat_of_ne (h : last.kind ≠ next.kind) :
    attach seam (chunks ++ [last]) next = chunks ++ [last] ++ [next] := by
  simp [attach, h]

theorem attach_ne_nil (seam : List String) (chunks : List Chunk) (next : Chunk) :
    attach seam chunks next ≠ [] := by
  rcases List.eq_nil_or_concat' chunks with rfl | ⟨before, last, rfl⟩
  · simp [attach]
  · by_cases hkind : last.kind = next.kind
    · simp [attach_concat_of_eq hkind]
    · simp [attach_concat_of_ne hkind]

/-- The last of the longest stretches of a list ends as the list does. -/
private theorem exists_splitBy_eq_concat {α : Type} (r : α → α → Bool) {xs : List α} {x : α}
    (hx : xs.getLast? = some x) :
    ∃ before stretch, xs.splitBy r = before ++ [stretch] ∧ stretch.getLast? = some x := by
  have hne : xs.splitBy r ≠ [] := by
    rw [List.splitBy_ne_nil]
    rintro rfl
    cases hx
  obtain ⟨before, stretch, hsplit⟩ := (List.eq_nil_or_concat' (xs.splitBy r)).resolve_left hne
  have hstretch : stretch ≠ [] := List.ne_nil_of_mem_splitBy (r := r) (l := xs) (by simp [hsplit])
  refine ⟨before, stretch, hsplit, ?_⟩
  rw [← List.flatten_splitBy r xs, hsplit, List.flatten_append, List.flatten_singleton,
    List.getLast?_append_of_ne_nil _ hstretch] at hx
  exact hx

/-- An element that is related to the last one of a list joins the last of the longest stretches. -/
private theorem splitBy_concat {α : Type} {r : α → α → Bool} {xs : List α} {x a : α}
    {before : List (List α)} {stretch : List α} (hsplit : xs.splitBy r = before ++ [stretch])
    (hx : stretch.getLast? = some x) (h : r x a) :
    (xs ++ [a]).splitBy r = before ++ [stretch ++ [a]] := by
  obtain ⟨hflatten, hnil, hchain, hbetween⟩ := List.splitBy_eq_iff.1 hsplit
  have hstretch : stretch ≠ [] := List.ne_nil_of_mem_splitBy (r := r) (l := xs) (by simp [hsplit])
  refine List.splitBy_eq_iff.2 ⟨?_, ?_, ?_, ?_⟩
  · rw [hflatten]
    simp
  · simpa using fun hmem => hnil (List.mem_append_left _ hmem)
  · intro m hm
    rcases List.mem_append.1 hm with hm | hm
    · exact hchain m (List.mem_append_left _ hm)
    · obtain rfl := List.mem_singleton.1 hm
      refine List.isChain_append.2 ⟨hchain stretch (by simp), List.isChain_singleton a, ?_⟩
      rw [hx]
      simpa using h
  · -- the stretch begins as before, and so it is cut off as before from the one in front of it
    obtain ⟨hbefore, -, hcut⟩ := List.isChain_append.1 hbetween
    refine List.isChain_append.2 ⟨hbefore, List.isChain_singleton _, ?_⟩
    intro m hm m' hm'
    obtain rfl := Option.some.inj hm'
    obtain ⟨hm₀, _, hr⟩ := hcut m hm stretch rfl
    refine ⟨hm₀, by simp, ?_⟩
    rwa [List.head_append_of_ne_nil hstretch]

@[simp]
theorem fuse_nil (seam : List String) : fuse seam [] = [] := rfl

@[simp]
theorem fuse_singleton (seam : List String) (chunk : Chunk) : fuse seam [chunk] = [chunk] := by
  show [⟨chunk.kind, seam.intercalate [chunk.lines]⟩] = [chunk]
  rw [List.intercalate_singleton]

private theorem intercalate_concat {α : Type} (seam : List α) {xs : List (List α)} (x : List α)
    (h : xs ≠ []) : seam.intercalate (xs ++ [x]) = seam.intercalate xs ++ seam ++ x := by
  induction xs with
  | nil => exact absurd rfl h
  | cons y ys ih =>
    by_cases hys : ys = []
    · subst hys
      rw [List.singleton_append, List.intercalate_cons_of_ne_nil (List.cons_ne_nil x []),
        List.intercalate_singleton, List.intercalate_singleton]
    · rw [List.cons_append, List.intercalate_cons_of_ne_nil (by simp), ih hys,
        List.intercalate_cons_of_ne_nil hys]
      simp

/-- Fusing one more chunk is attaching it to those that are fused. -/
theorem fuse_concat (seam : List String) (chunks : List Chunk) (next : Chunk) :
    fuse seam (chunks ++ [next]) = attach seam (fuse seam chunks) next := by
  cases hlast : chunks.getLast? with
  | none =>
    obtain rfl := List.getLast?_eq_none_iff.1 hlast
    rw [List.nil_append, fuse_singleton, fuse_nil]
    rfl
  | some last =>
    obtain ⟨before, stretch, hsplit, hstretch⟩ :=
      exists_splitBy_eq_concat (fun chunk next => chunk.kind = next.kind) hlast
    have hfuse : fuse seam chunks = before.filterMap (join? seam)
        ++ [⟨last.kind, seam.intercalate (stretch.map lines)⟩] := by
      rw [fuse, hsplit]
      simp [join?, hstretch]
    rw [hfuse]
    by_cases hkind : last.kind = next.kind
    · have hlines : seam.intercalate (stretch.map lines ++ [next.lines])
          = seam.intercalate (stretch.map lines) ++ seam ++ next.lines := by
        apply intercalate_concat
        rw [Ne, List.map_eq_nil_iff]
        rintro rfl
        cases hstretch
      rw [fuse, splitBy_concat hsplit hstretch (decide_eq_true hkind)]
      simp [join?, attach, hkind, hlines]
    · have hcut : (chunks ++ [next]).splitBy (fun chunk next => chunk.kind = next.kind)
          = before ++ [stretch] ++ [[next]] := by
        rw [List.splitBy_append (by simp [hlast, hkind]), hsplit]
        rfl
      rw [fuse, hcut]
      simp [join?, attach, hstretch, hkind]

/-- Fusing all neighbours of one kind is attaching one chunk after the other. -/
theorem fuse_eq_foldl (seam : List String) (chunks : List Chunk) :
    fuse seam chunks = chunks.foldl (attach seam) [] := by
  induction chunks using List.reverseRecOn with
  | nil => rfl
  | append_singleton chunks next ih => rw [fuse_concat, List.foldl_concat, ih]

end Attach

/-! ## What is left of runs -/

section Kept

variable {run : Chunk} {runs : List Chunk}

/-- A run without text is dropped. -/
theorem kept_concat_of_blank (h : ∀ line ∈ run.lines, isBlankLine line) :
    kept (runs ++ [run]) = kept runs := by
  have htrim : trimBlankLines run.lines = [] := trimBoth_eq_nil_iff.2 h
  simp [kept, trim, htrim]

/-- A run with text is kept, without the blank lines around it. -/
theorem kept_concat_of_text (h : ∃ line ∈ run.lines, ¬ isBlankLine line) :
    kept (runs ++ [run]) = kept runs ++ [run.trim] := by
  have htrim : trimBlankLines run.lines ≠ [] := by
    rw [trimBlankLines, Ne, trimBoth_eq_nil_iff]
    push Not
    exact h
  simp [kept, trim, htrim]

end Kept

/-! ## The pass inside a segment -/

namespace Progress

/-- The state of the pass inside a segment which has these runs so far, the last of them open, behind
chunks that have been closed before it, newest first. -/
def within (closed runs : List Chunk) : Progress where
  closed := (merged runs.dropLast).reverse ++ closed
  current? := runs.getLast?.map fun run => (run.kind, run.lines.reverse)
  joinable := !(merged runs.dropLast).isEmpty

variable {closed chunks runs : List Chunk}

/-- Closing a run attaches it to what the segment has made; what was closed before does not go
on. -/
theorem add_eq_attach {p : Progress} (hclosed : p.closed = chunks.reverse ++ closed)
    (hjoinable : p.joinable = !chunks.isEmpty) (run : Chunk) :
    p.add run = (attach [""] chunks run).reverse ++ closed := by
  rcases List.eq_nil_or_concat' chunks with rfl | ⟨before, last, rfl⟩
  · cases closed with
    | nil => simp [add, hclosed, attach]
    | cons first older => simp [add, hclosed, hjoinable, attach]
  · rw [List.reverse_append] at hclosed
    by_cases hkind : last.kind = run.kind
    · rw [attach_concat_of_eq hkind]
      simp [add, hclosed, hjoinable, hkind]
    · rw [attach_concat_of_ne hkind]
      simp [add, hclosed, hjoinable, hkind]

theorem within_nil (closed : List Chunk) :
    within closed [] = { closed, current? := none, joinable := false } := rfl

/-- The last run of a segment is the open one, and those before it are merged. -/
theorem within_concat (closed runs : List Chunk) (run : Chunk) :
    within closed (runs ++ [run])
      = { closed := (merged runs).reverse ++ closed
          current? := some (run.kind, run.lines.reverse)
          joinable := !(merged runs).isEmpty } := by
  simp [within]

/-- Closing takes the open run through the stages. -/
theorem close_within (closed runs : List Chunk) :
    (within closed runs).close
      = { closed := (merged runs).reverse ++ closed
          current? := none
          joinable := !(merged runs).isEmpty } := by
  rcases List.eq_nil_or_concat' runs with rfl | ⟨runs, run, rfl⟩
  · rfl
  rw [within_concat]
  by_cases hblank : ∀ line ∈ run.lines, isBlankLine line
  · rw [close_of_blank rfl (by simpa using hblank), merged, merged, kept_concat_of_blank hblank]
  · have htext : ∃ line ∈ run.lines, ¬ isBlankLine line := by
      push Not at hblank
      exact hblank
    have hmerged : merged (runs ++ [run]) = attach [""] (merged runs) run.trim := by
      rw [merged, kept_concat_of_text htext, fuse_concat]
      rfl
    have hopen : (!(attach [""] (merged runs) run.trim).isEmpty) = true := by
      simpa using attach_ne_nil [""] (merged runs) run.trim
    rw [close_of_text rfl (by simpa using htext), List.reverse_reverse, hmerged, hopen]
    refine congrArg (fun closed : List Chunk => (⟨closed, none, true⟩ : Progress)) ?_
    exact add_eq_attach rfl rfl run.trim

/-- A split takes the open run through the stages and begins a segment. -/
theorem take_split_within (closed runs : List Chunk) :
    (within closed runs).take .split = within ((merged runs).reverse ++ closed) [] := by
  rw [take, close_within, within_nil]

/-- A line goes on in the open run or closes it and opens one, as it extends the runs. -/
theorem take_text_within (closed runs : List Chunk) (kind : Kind) (content : String) :
    (within closed runs).take (.text kind content)
      = within closed (attach [] runs ⟨kind, [content]⟩) := by
  have hclose := close_within closed runs
  rcases List.eq_nil_or_concat' runs with rfl | ⟨before, run, rfl⟩
  · rfl
  by_cases hkind : run.kind = kind
  · rw [attach_concat_of_eq hkind, within_concat, within_concat]
    simp [take, hkind]
  · -- closing the open run leaves the state that the new one is opened in
    rw [attach_concat_of_ne hkind, within_concat closed (before ++ [run])]
    rw [within_concat] at hclose ⊢
    simp [take, hkind, hclose]

end Progress

/-! ## The pass -/

/-- What the lines of a first segment and the segments behind it make, the runs in `runs` being open
already. -/
theorem closed_foldl_take_within (lines : List PlainLine) (closed runs : List Chunk) :
    ∃ first rest, segments lines = first :: rest ∧
      (lines.foldl Progress.take (.within closed runs)).close.closed.reverse
        = closed.reverse ++ merged (first.foldl (attach []) runs) ++ rest.flatMap stages := by
  induction lines generalizing closed runs with
  | nil =>
    refine ⟨[], [], rfl, ?_⟩
    rw [List.foldl_nil, Progress.close_within]
    simp
  | cons line lines ih =>
    cases line with
    | split =>
      obtain ⟨first, rest, hsegments, hclosed⟩ := ih ((merged runs).reverse ++ closed) []
      refine ⟨[], first :: rest, by rw [segments_split, hsegments], ?_⟩
      rw [List.foldl_cons, Progress.take_split_within, hclosed, List.flatMap_cons, stages,
        fuse_eq_foldl]
      simp
    | text kind content =>
      obtain ⟨first, rest, hsegments, hclosed⟩ := ih closed (attach [] runs ⟨kind, [content]⟩)
      refine ⟨⟨kind, [content]⟩ :: first, rest, by rw [segments_text, hsegments]; rfl, ?_⟩
      rw [List.foldl_cons, Progress.take_text_within, hclosed, List.foldl_cons]

/-- The chunks that one pass over the lines makes are those of the segments, each taken through the
stages. -/
theorem group_eq_flatMap (lines : List PlainLine) :
    group lines = (segments lines).flatMap stages := by
  obtain ⟨first, rest, hsegments, hclosed⟩ := closed_foldl_take_within lines [] []
  rw [hsegments, List.flatMap_cons, stages, fuse_eq_foldl]
  exact hclosed

/-- Blank code between two paragraphs is dropped and they become one chunk, across an empty line; a
split keeps paragraphs apart. -/
example :
    (segments [.text .markdown "a", .text .code " ", .text .code "", .text .markdown "b", .split,
      .text .markdown "c"]).flatMap stages
      = [⟨.markdown, ["a", "", "b"]⟩, ⟨.markdown, ["c"]⟩] := by
  decide

end Weave.Chunk
