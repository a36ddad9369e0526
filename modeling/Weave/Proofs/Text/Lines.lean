import Weave.Text.Lines

/-!
# The lines of a text, one newline at a time

A text without a newline is one line at most (`lines_last`); otherwise its first line ends at its
first newline and its other lines are those of what follows (`lines_cons`). `text_induction` takes
texts apart in the same way. From these come what lines hold (`newline_not_mem_of_mem_lines`,
`mem_of_mem_lines`), that lines are read back from their text, whichever of the two line ends it has
(`lines_unlines`), and that lines which keep their ends make the text again (`join_linesWithEnds`) and
are the only ones that do (`linesWithEnds_eq_iff`).
-/

namespace Weave.Text

/-! ## Taking a text apart -/

/-- Either there is no newline in a text, or there is a first one. -/
theorem text_induction {motive : List Char → Prop} (last : ∀ s, '\n' ∉ s → motive s)
    (line : ∀ s rest, '\n' ∉ s → motive rest → motive (s ++ '\n' :: rest)) (s : List Char) :
    motive s := by
  by_cases h : '\n' ∈ s
  · obtain ⟨front, rest, hs, hfront⟩ := List.eq_append_cons_of_mem h
    have hrest : motive rest := text_induction last line rest
    rw [hs]
    exact line front rest hfront hrest
  · exact last s h
termination_by s.length
decreasing_by
  rw [hs, List.length_append, List.length_cons]
  omega

theorem readPieces_cons (ended : List Char → List Char) (piece : List Char)
    {more : List (List Char)} (h : more ≠ []) :
    readPieces ended (piece :: more) = String.ofList (ended piece) :: readPieces ended more := by
  cases more with
  | nil => exact absurd rfl h
  | cons next more => rfl

theorem readPieces_last (ended : List Char → List Char) {s : List Char} (h : '\n' ∉ s) :
    readPieces ended (pieces (String.ofList s)) = if s = [] then [] else [String.ofList s] := by
  rw [pieces, String.toList_ofList, List.splitOn_eq_singleton h, readPieces]
  simp

theorem readPieces_line (ended : List Char → List Char) {s : List Char} (h : '\n' ∉ s)
    (rest : List Char) :
    readPieces ended (pieces (String.ofList (s ++ '\n' :: rest)))
      = String.ofList (ended s) :: readPieces ended (pieces (String.ofList rest)) := by
  rw [pieces, pieces, String.toList_ofList, String.toList_ofList,
    List.splitOn_append_cons_self_of_not_mem h, readPieces_cons _ _ (List.splitOn_ne_nil _ _)]

theorem lines_last {s : List Char} (h : '\n' ∉ s) :
    lines (String.ofList s) = if s = [] then [] else [String.ofList s] :=
  readPieces_last dropReturn h

theorem lines_cons {s : List Char} (h : '\n' ∉ s) (rest : List Char) :
    lines (String.ofList (s ++ '\n' :: rest))
      = String.ofList (dropReturn s) :: lines (String.ofList rest) :=
  readPieces_line dropReturn h rest

/-- A newline ends the last line of the text before it, or an empty line if that text is empty or
ends with a newline itself. Only a carriage return before it would go with it. -/
theorem exists_lines_append_cons {s : List Char} (h : s.getLast? ≠ some '\r') (rest : List Char) :
    ∃ blank, (blank = [] ∨ blank = [""]) ∧
      lines (String.ofList (s ++ '\n' :: rest))
        = lines (String.ofList s) ++ blank ++ lines (String.ofList rest) := by
  induction s using text_induction with
  | last s hs =>
    have hdrop : dropReturn s = s := if_neg h
    rw [lines_cons hs, lines_last hs, hdrop]
    by_cases hempty : s = []
    · exact ⟨[""], .inr rfl, by simp [hempty]⟩
    · exact ⟨[], .inl rfl, by simp [hempty]⟩
  | line s more hs ih =>
    have hmore : more.getLast? ≠ some '\r' := by
      intro hlast
      apply h
      rw [List.getLast?_append, List.getLast?_cons, hlast]
      rfl
    obtain ⟨blank, hblank, hlines⟩ := ih hmore
    refine ⟨blank, hblank, ?_⟩
    rw [List.append_assoc, List.cons_append, lines_cons hs, lines_cons hs, hlines]
    simp

/-! ## Lines with their ends -/

theorem linesWithEnds_cons {s : List Char} (h : '\n' ∉ s) (rest : List Char) :
    linesWithEnds (String.ofList (s ++ '\n' :: rest))
      = String.ofList (s ++ ['\n']) :: linesWithEnds (String.ofList rest) :=
  readPieces_line (· ++ ['\n']) h rest

theorem linesWithEnds_last {s : List Char} (h : '\n' ∉ s) :
    linesWithEnds (String.ofList s) = if s = [] then [] else [String.ofList s] :=
  readPieces_last (· ++ ['\n']) h

/-- Lines with their ends make the text again. -/
theorem join_linesWithEnds (s : String) : String.join (linesWithEnds s) = s := by
  have hchars (s : List Char) :
      String.join (linesWithEnds (String.ofList s)) = String.ofList s := by
    induction s using text_induction with
    | last s h =>
      rw [linesWithEnds_last h]
      split
      · next hs =>
        rw [hs]
        rfl
      · simp
    | line s rest h ih =>
      rw [linesWithEnds_cons h, String.join_cons, ih, ← String.ofList_append, List.append_assoc]
      rfl
  rw [← String.ofList_toList (s := s)]
  exact hchars s.toList

/-- Lines that keep their ends: none is empty, each but the last ends with a newline, and newlines
stand at ends only. -/
structure KeepsEnds (ls : List String) : Prop where
  ne_empty : ∀ line ∈ ls, line ≠ ""
  ended : ∀ line ∈ ls.dropLast, line.toList.getLast? = some '\n'
  inside : ∀ line ∈ ls, '\n' ∉ line.toList.dropLast

theorem KeepsEnds.cons {s : List Char} (h : '\n' ∉ s) {ls : List String} (hls : KeepsEnds ls) :
    KeepsEnds (String.ofList (s ++ ['\n']) :: ls) where
  ne_empty := by
    refine List.forall_mem_cons.2 ⟨?_, hls.ne_empty⟩
    simp [← String.toList_inj]
  ended := by
    by_cases hnil : ls = []
    · rw [hnil, List.dropLast_singleton]
      exact List.forall_mem_nil _
    · rw [List.dropLast_cons_of_ne_nil hnil]
      refine List.forall_mem_cons.2 ⟨?_, hls.ended⟩
      simp
  inside := by
    refine List.forall_mem_cons.2 ⟨?_, hls.inside⟩
    rw [String.toList_ofList, List.dropLast_concat]
    exact h

/-- Every line but the last one keeps its newline. -/
theorem keepsEnds_linesWithEnds (s : String) : KeepsEnds (linesWithEnds s) := by
  have hchars (s : List Char) : KeepsEnds (linesWithEnds (String.ofList s)) := by
    induction s using text_induction with
    | last s h =>
      rw [linesWithEnds_last h]
      split
      · exact ⟨List.forall_mem_nil _, List.forall_mem_nil _, List.forall_mem_nil _⟩
      · next hs =>
        refine ⟨List.forall_mem_singleton.2 ?_, List.forall_mem_nil _,
          List.forall_mem_singleton.2 ?_⟩
        · simpa [← String.toList_inj] using hs
        · rw [String.toList_ofList]
          exact fun hmem => h (List.dropLast_subset _ hmem)
    | line s rest h ih =>
      rw [linesWithEnds_cons h]
      exact ih.cons h
  rw [← String.ofList_toList (s := s)]
  exact hchars s.toList

/-- Lines that keep their ends are read back from the text that they make. -/
theorem KeepsEnds.linesWithEnds_join {ls : List String} (h : KeepsEnds ls) :
    linesWithEnds (String.join ls) = ls := by
  induction ls with
  | nil => rfl
  | cons line ls ih =>
    have hinside : '\n' ∉ line.toList.dropLast := h.inside line List.mem_cons_self
    by_cases hend : line.toList.getLast? = some '\n'
    · -- the line goes up to its newline, and the other lines are those of what follows
      obtain ⟨front, hfront⟩ := List.getLast?_eq_some_iff.1 hend
      rw [hfront, List.dropLast_concat] at hinside
      have hrest : KeepsEnds ls := by
        refine ⟨fun l hl => h.ne_empty l (List.mem_cons_of_mem _ hl), fun l hl => h.ended l ?_,
          fun l hl => h.inside l (List.mem_cons_of_mem _ hl)⟩
        rw [List.dropLast_cons_of_ne_nil (List.ne_nil_of_mem (List.dropLast_subset _ hl))]
        exact List.mem_cons_of_mem _ hl
      have htext : String.join (line :: ls)
          = String.ofList (front ++ '\n' :: (String.join ls).toList) := by
        rw [← String.toList_inj, String.join_cons, String.toList_append, hfront,
          String.toList_ofList, List.append_assoc, List.singleton_append]
      rw [htext, linesWithEnds_cons hinside, ← hfront, String.ofList_toList, String.ofList_toList,
        ih hrest]
    · -- only the last line may lack its newline, and then it has none at all
      cases ls with
      | cons next more => exact absurd (h.ended line List.mem_cons_self) hend
      | nil =>
      have hne : line.toList ≠ [] := by
        rw [Ne, String.toList_eq_nil_iff]
        exact h.ne_empty line List.mem_cons_self
      have hnone : '\n' ∉ line.toList := by
        intro hmem
        rw [← List.dropLast_concat_getLast hne, List.mem_append, List.mem_singleton] at hmem
        rcases hmem with hmem | hmem
        · exact hinside hmem
        · exact hend (by rw [List.getLast?_eq_some_getLast hne, ← hmem])
      have htext : String.join [line] = String.ofList line.toList := by
        rw [String.ofList_toList, String.join_cons]
        exact String.append_empty
      rw [htext, linesWithEnds_last hnone, if_neg hne, String.ofList_toList]

/-- The lines of a text with their ends are the only lines that keep their ends and make the text. -/
theorem linesWithEnds_eq_iff {s : String} {ls : List String} :
    linesWithEnds s = ls ↔ String.join ls = s ∧ KeepsEnds ls := by
  constructor
  · rintro rfl
    exact ⟨join_linesWithEnds s, keepsEnds_linesWithEnds s⟩
  · rintro ⟨rfl, h⟩
    exact h.linesWithEnds_join

/-! ## What lines hold -/

theorem dropReturn_sublist (piece : List Char) : (dropReturn piece).Sublist piece := by
  unfold dropReturn
  split
  · exact List.dropLast_sublist piece
  · exact List.Sublist.refl piece

/-- Only a carriage return at the end is dropped. -/
theorem dropReturn_eq_self {piece : List Char} (h : '\r' ∉ piece) : dropReturn piece = piece := by
  unfold dropReturn
  split
  · next hlast => exact absurd (List.mem_of_getLast? hlast) h
  · rfl

theorem dropReturn_concat (piece : List Char) : dropReturn (piece ++ ['\r']) = piece := by
  simp [dropReturn]

/-- A line holds no newline, and only characters of the text. -/
theorem not_newline_and_mem_of_mem_lines (s : List Char) :
    ∀ line ∈ lines (String.ofList s), '\n' ∉ line.toList ∧ ∀ c ∈ line.toList, c ∈ s := by
  induction s using text_induction with
  | last s h =>
    intro line hline
    rw [lines_last h] at hline
    split at hline
    · cases hline
    · rw [List.mem_singleton.1 hline, String.toList_ofList]
      exact ⟨h, fun c hc => hc⟩
  | line s rest h ih =>
    intro line hline
    rw [lines_cons h] at hline
    rcases List.mem_cons.1 hline with rfl | hline
    · rw [String.toList_ofList]
      have hsub := (dropReturn_sublist s).subset
      exact ⟨fun hmem => h (hsub hmem), fun c hc => List.mem_append_left _ (hsub hc)⟩
    · obtain ⟨hnewline, hmem⟩ := ih line hline
      exact ⟨hnewline, fun c hc => List.mem_append_right _ (List.mem_cons_of_mem _ (hmem c hc))⟩

/-- Lines hold no newlines. -/
theorem newline_not_mem_of_mem_lines {s line : String} (h : line ∈ lines s) :
    '\n' ∉ line.toList := by
  rw [← String.ofList_toList (s := s)] at h
  exact (not_newline_and_mem_of_mem_lines s.toList line h).1

theorem mem_of_mem_lines {s line : String} (h : line ∈ lines s) {c : Char} (hc : c ∈ line.toList) :
    c ∈ s.toList := by
  rw [← String.ofList_toList (s := s)] at h
  exact (not_newline_and_mem_of_mem_lines s.toList line h).2 c hc

/-! ## Reading lines back -/

theorem toList_unlines (ending : String) (ls : List String) :
    (unlines ending ls).toList = ls.flatMap fun line => line.toList ++ ending.toList := by
  simp [unlines, String.toList_join, List.flatMap_map]

theorem unlines_cons (ending line : String) (ls : List String) :
    unlines ending (line :: ls) = line ++ ending ++ unlines ending ls := by
  simp [unlines]

/-- An end behind every line is one between each two lines and one more at the end. -/
theorem unlines_eq_intercalate_append (ending : String) {ls : List String} (h : ls ≠ []) :
    unlines ending ls = ending.intercalate ls ++ ending := by
  induction ls with
  | nil => exact absurd rfl h
  | cons line ls ih =>
    rw [unlines_cons]
    by_cases hls : ls = []
    · rw [hls, String.intercalate_singleton]
      exact String.append_empty
    · rw [ih hls, String.intercalate_cons_of_ne_nil hls, ← String.append_assoc]

/-- Lines are read back from their text if their end is `tail` and a newline, where the newline is
the first one and `tail` is dropped with it. -/
theorem lines_unlines {ending : String} (tail : List Char)
    (hending : ending.toList = tail ++ ['\n']) {ls : List String}
    (hnewline : ∀ line ∈ ls, '\n' ∉ line.toList ++ tail)
    (htail : ∀ line ∈ ls, dropReturn (line.toList ++ tail) = line.toList) :
    lines (unlines ending ls) = ls := by
  induction ls with
  | nil => rfl
  | cons line ls ih =>
    have htext : unlines ending (line :: ls)
        = String.ofList ((line.toList ++ tail) ++ '\n' :: (unlines ending ls).toList) := by
      rw [← String.toList_inj, unlines_cons, String.toList_append, String.toList_append, hending,
        String.toList_ofList]
      simp
    rw [htext, lines_cons (hnewline line List.mem_cons_self), htail line List.mem_cons_self,
      String.ofList_toList, String.ofList_toList,
      ih (fun l hl => hnewline l (List.mem_cons_of_mem _ hl))
        fun l hl => htail l (List.mem_cons_of_mem _ hl)]

/-- Before a carriage return and a newline, a line may end in a carriage return of its own. -/
theorem lines_unlines_return {ls : List String} (h : ∀ line ∈ ls, '\n' ∉ line.toList) :
    lines (unlines "\r\n" ls) = ls := by
  refine lines_unlines ['\r'] rfl (fun line hline => ?_) fun line _ => dropReturn_concat _
  simpa using h line hline

theorem lines_unlines_newline {ls : List String} (hnewline : ∀ line ∈ ls, '\n' ∉ line.toList)
    (hreturn : ∀ line ∈ ls, '\r' ∉ line.toList) : lines (unlines "\n" ls) = ls := by
  refine lines_unlines [] rfl (fun line hline => ?_) fun line hline => ?_
  · rw [List.append_nil]
    exact hnewline line hline
  · rw [List.append_nil]
    exact dropReturn_eq_self (hreturn line hline)

/-- Without an end behind the last line, this one has to hold something. -/
theorem lines_intercalate {ls : List String} (hnewline : ∀ line ∈ ls, '\n' ∉ line.toList)
    (hreturn : ∀ line ∈ ls, '\r' ∉ line.toList) (hlast : ∀ line ∈ ls.getLast?, line ≠ "") :
    lines ("\n".intercalate ls) = ls := by
  induction ls with
  | nil => rfl
  | cons line ls ih =>
    have hline : '\n' ∉ line.toList := hnewline line List.mem_cons_self
    by_cases hls : ls = []
    · have hsome : line.toList ≠ [] := by
        rw [Ne, String.toList_eq_nil_iff]
        exact hlast line (by rw [hls]; rfl)
      rw [hls, String.intercalate_singleton, ← String.ofList_toList (s := line), lines_last hline,
        if_neg hsome]
    · have htext : "\n".intercalate (line :: ls)
          = String.ofList (line.toList ++ '\n' :: ("\n".intercalate ls).toList) := by
        rw [String.intercalate_cons_of_ne_nil hls, ← String.toList_inj, String.toList_ofList]
        simp
      have hrest : ∀ l ∈ ls.getLast?, l ≠ "" := by
        intro l hl
        refine hlast l ?_
        rw [List.getLast?_cons, Option.mem_def.1 hl]
        rfl
      rw [htext, lines_cons hline, dropReturn_eq_self (hreturn line List.mem_cons_self),
        String.ofList_toList, String.ofList_toList,
        ih (fun l hl => hnewline l (List.mem_cons_of_mem _ hl))
          (fun l hl => hreturn l (List.mem_cons_of_mem _ hl)) hrest]

/-- The text of some lines ends with the last one. -/
theorem isSuffix_intercalate_concat (ending : String) (ls : List String) (line : String) :
    line.toList <:+ (ending.intercalate (ls ++ [line])).toList := by
  by_cases hls : ls = []
  · rewrite [hls, List.nil_append, String.intercalate_singleton]
    exact List.suffix_rfl
  · rw [String.intercalate_append_of_ne_nil hls (List.cons_ne_nil line []),
      String.intercalate_singleton, String.toList_append]
    exact List.suffix_append _ _

/-! ## Texts without carriage returns -/

/-- Every carriage return of a text is directly followed by a newline. -/
def ReturnsPaired (s : String) : Prop :=
  ∀ i : Nat, s.toList[i]? = some '\r' → s.toList[i + 1]? = some '\n'

instance (s : String) : Decidable (ReturnsPaired s) :=
  decidable_of_iff (∀ i < s.toList.length, s.toList[i]? = some '\r' → s.toList[i + 1]? = some '\n')
    ⟨fun h i hi => h i (List.getElem?_eq_some_iff.1 hi).1 hi, fun h i _ hi => h i hi⟩

/-- If every carriage return goes with a newline, then none is left. -/
theorem return_not_mem_unifyNewlines {s : String} (h : ReturnsPaired s) :
    '\r' ∉ (unifyNewlines s).toList := by
  have hchars : ∀ cs : List Char, (∀ i : Nat, cs[i]? = some '\r' → cs[i + 1]? = some '\n') →
      '\r' ∉ unifyNewlineChars cs := by
    intro cs hcs
    fun_induction unifyNewlineChars cs with
    | case1 rest ih =>
      have hrest : '\r' ∉ unifyNewlineChars rest := ih fun i hi => hcs (i + 2) hi
      simpa using hrest
    | case2 c rest hpair ih =>
      have hrest : '\r' ∉ unifyNewlineChars rest := ih fun i hi => hcs (i + 1) hi
      have hc : '\r' ≠ c := by
        intro hc
        have hnext : rest[0]? = some '\n' := hcs 0 (by rw [← hc]; rfl)
        cases rest with
        | nil => cases hnext
        | cons d rest => exact hpair rest hc.symm (by rw [Option.some.inj hnext])
      exact List.not_mem_cons_of_ne_of_not_mem hc hrest
    | case3 => exact List.not_mem_nil
  rw [unifyNewlines, String.toList_ofList]
  exact hchars s.toList h

theorem unifyNewlineChars_of_not_mem {s : List Char} (h : '\r' ∉ s) : unifyNewlineChars s = s := by
  fun_induction unifyNewlineChars s with
  | case1 rest ih => simp at h
  | case2 c rest _ ih => rw [ih fun hrest => h (List.mem_cons_of_mem _ hrest)]
  | case3 => rfl

theorem unifyNewlines_of_not_mem {s : String} (h : '\r' ∉ s.toList) : unifyNewlines s = s := by
  rw [unifyNewlines, unifyNewlineChars_of_not_mem h, String.ofList_toList]

end Weave.Text
