import Mathlib.Data.List.DropRight
import Weave.Proofs.Text.Rows
import Weave.Text.Blank

/-!
# Margins

A text has no margins if something stands in its first row and in its last one (`Tight`): then it is not
empty, and it ends with no newline. What stands in these rows is told by the characters before the first
newline and, from behind, by those up to the last one (`tight_iff`), so that texts that are put together
can be dealt with one by one (`shows_append`).
-/

namespace Weave.Text

/-- Neither the first nor the last row of a text is blank. -/
structure Tight (s : String) : Prop where
  first : ∀ row ∈ (rows s).head?, ¬ isBlankLine row
  last : ∀ row ∈ (rows s).getLast?, ¬ isBlankLine row

instance (s : String) : Decidable (Tight s) :=
  decidable_of_iff ((∀ row ∈ (rows s).head?, ¬ isBlankLine row) ∧
      ∀ row ∈ (rows s).getLast?, ¬ isBlankLine row)
    ⟨fun h => ⟨h.1, h.2⟩, fun h => ⟨h.first, h.last⟩⟩

/-- Before the first newline stands something that is not blank. -/
def Shows (s : List Char) : Prop :=
  ∃ c ∈ s.takeWhile (· != '\n'), ¬ isBlank c

variable {s t : List Char} {text : String} {ls : List String}

/-! ## Texts put together -/

theorem shows_cons {c : Char} : Shows (c :: s) ↔ c ≠ '\n' ∧ (¬ isBlank c ∨ Shows s) := by
  unfold Shows
  by_cases hc : c = '\n'
  · rw [List.takeWhile_cons_of_neg (by simp [hc])]
    simp [hc]
  · rw [List.takeWhile_cons_of_pos (by simp [hc])]
    simp [hc]

/-- What stands before the first newline of two texts stands in the first one, or in the second one if
there is no newline in the first. -/
theorem shows_append : Shows (s ++ t) ↔ Shows s ∨ '\n' ∉ s ∧ Shows t := by
  induction s with
  | nil => simp [Shows]
  | cons c s ih =>
    rw [List.cons_append, shows_cons, ih, shows_cons, List.mem_cons]
    grind

theorem Shows.append_left (h : Shows s) (t : List Char) : Shows (s ++ t) :=
  shows_append.2 (Or.inl h)

/-! ## The first and the last row -/

theorem head?_rows (text : String) :
    (rows text).head? = some (String.ofList (text.toList.takeWhile (· != '\n'))) := by
  obtain ⟨row, behind, hrows⟩ := List.exists_cons_of_ne_nil (rows_ne_nil text)
  have hnewline : '\n' ∉ row.toList := newline_not_mem_of_mem_rows (hrows ▸ List.mem_cons_self)
  have htext : text.toList = row.toList ++ (following behind).toList := by
    rw [← String.toList_append, ← intercalate_cons, ← hrows, intercalate_rows]
  have hrow : text.toList.takeWhile (· != '\n') = row.toList := by
    rw [htext]
    obtain ⟨-, hnil⟩ | ⟨-, hcons⟩ := toList_following_cases behind
    · rw [hnil, List.append_nil, List.takeWhile_eq_self_iff.2 (bne_of_not_mem hnewline)]
    · rw [hcons, takeWhile_append_cons hnewline]
  rw [hrows, hrow, String.ofList_toList, List.head?_cons]

theorem getLast?_rows (text : String) :
    (rows text).getLast? = some (String.ofList (text.toList.rtakeWhile (· != '\n'))) := by
  obtain ⟨front, row, hrows⟩ : ∃ front row, rows text = front ++ [row] :=
    ⟨_, _, (List.dropLast_append_getLast (rows_ne_nil text)).symm⟩
  have hnewline : '\n' ∉ row.toList.reverse := by
    rw [List.mem_reverse]
    exact newline_not_mem_of_mem_rows (hrows ▸ List.mem_append_right _ List.mem_cons_self)
  have htext : text = unlines "\n" front ++ row := by
    calc text = "\n".intercalate (front ++ [row]) := by rw [← hrows, intercalate_rows]
      _ = unlines "\n" front ++ row ++ following [] := intercalate_append_cons front row []
      _ = unlines "\n" front ++ row := String.append_empty
  have hrow : text.toList.reverse.takeWhile (· != '\n') = row.toList.reverse := by
    rw [htext, String.toList_append, List.reverse_append]
    -- a newline stands before the last row unless it is the only one
    by_cases hfront : front = []
    · rw [hfront]
      show (row.toList.reverse ++ []).takeWhile _ = _
      rw [List.append_nil, List.takeWhile_eq_self_iff.2 (bne_of_not_mem hnewline)]
    · rw [unlines_eq_intercalate_append "\n" hfront, String.toList_append, List.reverse_append]
      exact takeWhile_append_cons hnewline _
  rw [hrows, List.rtakeWhile, hrow, List.reverse_reverse, String.ofList_toList, List.getLast?_concat]

theorem tight_iff : Tight text ↔ Shows text.toList ∧ Shows text.toList.reverse := by
  have hfirst : (∀ row ∈ (rows text).head?, ¬ isBlankLine row) ↔ Shows text.toList := by
    rw [head?_rows]
    simp [isBlankLine, Shows]
  have hlast : (∀ row ∈ (rows text).getLast?, ¬ isBlankLine row) ↔ Shows text.toList.reverse := by
    rw [getLast?_rows]
    simp [isBlankLine, Shows, List.rtakeWhile]
  exact ⟨fun h => ⟨hfirst.1 h.first, hlast.1 h.last⟩, fun h => ⟨hfirst.2 h.1, hlast.2 h.2⟩⟩

/-- It is only told by which rows are blank whether a text is tight. -/
theorem tight_congr {other : String}
    (h : (rows text).map isBlankLine = (rows other).map isBlankLine) : Tight text ↔ Tight other := by
  have hedge (edge : Option String) :
      (∀ row ∈ edge, ¬ isBlankLine row) ↔ edge.map isBlankLine ≠ some true := by
    cases edge <;> simp
  have hiff (s : String) : Tight s ↔ ((rows s).map isBlankLine).head? ≠ some true ∧
      ((rows s).map isBlankLine).getLast? ≠ some true := by
    rw [List.head?_map, List.getLast?_map, ← hedge, ← hedge]
    exact ⟨fun h => ⟨h.first, h.last⟩, fun h => ⟨h.1, h.2⟩⟩
  rw [hiff, hiff, h]

/-- Lines that neither begin nor end with a blank one make a tight text. -/
theorem tight_intercalate (hne : ls ≠ []) (hnewline : ∀ line ∈ ls, '\n' ∉ line.toList)
    (hfirst : ∀ line ∈ ls.head?, ¬ isBlankLine line)
    (hlast : ∀ line ∈ ls.getLast?, ¬ isBlankLine line) : Tight ("\n".intercalate ls) := by
  constructor
  · rwa [rows_intercalate hne hnewline]
  · rwa [rows_intercalate hne hnewline]

/-! ## What a tight text cannot be -/

theorem Tight.ne_empty (h : Tight text) : text ≠ "" := by
  rintro rfl
  obtain ⟨c, hc, -⟩ := (tight_iff.1 h).1
  cases hc

/-- The last of the lines of a tight text, which keep their ends, has none. -/
theorem Tight.getLast?_linesWithEnds (h : Tight text) :
    ∀ line ∈ (linesWithEnds text).getLast?, line.toList.getLast? ≠ some '\n' := by
  intro line hline hend
  obtain ⟨front, hfront⟩ := List.getLast?_eq_some_iff.1 hline
  obtain ⟨inside, hinside⟩ := List.getLast?_eq_some_iff.1 hend
  have htext : text = String.join front ++ line := by
    calc text = String.join (front ++ [line]) := by rw [← hfront, join_linesWithEnds]
      _ = String.join front ++ String.join [line] := String.join_append
      _ = String.join front ++ line := by rw [String.join_cons, String.join_nil, String.append_empty]
  have hreverse : text.toList.reverse
      = '\n' :: (inside.reverse ++ (String.join front).toList.reverse) := by
    rw [htext, String.toList_append, hinside]
    simp
  have hshows := (tight_iff.1 h).2
  rw [hreverse, shows_cons] at hshows
  exact hshows.1 rfl

end Weave.Text
