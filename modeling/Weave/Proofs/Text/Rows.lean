import Weave.Proofs.Text.Lines
import Weave.Proofs.Text.Stops

/-!
# Rows

The pieces of a text between its newlines, as texts. Other than its lines they say everything about a
text: with newlines between them they are the text again (`intercalate_rows`), and texts without
newlines are read back from what they make together (`rows_intercalate`). Behind a row every further
one comes with a newline in front of it (`following`).
-/

namespace Weave.Text

/-- The pieces of a text between its newlines. -/
def rows (s : String) : List String :=
  (pieces s).map String.ofList

/-- Rows with a newline in front of each. -/
def following (behind : List String) : String :=
  String.join (behind.map ("\n" ++ ·))

/-! ## Putting rows together -/

theorem unlines_append (ending : String) (ls more : List String) :
    unlines ending (ls ++ more) = unlines ending ls ++ unlines ending more := by
  rw [unlines, List.map_append, String.join_append]
  rfl

theorem following_cons (row : String) (behind : List String) :
    following (row :: behind) = "\n" ++ row ++ following behind := by
  rw [following, List.map_cons, String.join_cons]
  rfl

theorem intercalate_cons (row : String) (behind : List String) :
    "\n".intercalate (row :: behind) = row ++ following behind := by
  induction behind generalizing row with
  | nil =>
    rw [String.intercalate_singleton]
    exact String.append_empty.symm
  | cons next behind ih =>
    rw [String.intercalate_cons_cons, ih, following_cons]
    simp only [String.append_assoc]

/-- What stands before a row, the row, and what stands behind it. -/
theorem intercalate_append_cons (front : List String) (row : String) (behind : List String) :
    "\n".intercalate (front ++ row :: behind) = unlines "\n" front ++ row ++ following behind := by
  induction front with
  | nil =>
    rw [List.nil_append, intercalate_cons]
    exact congrArg (· ++ following behind) String.empty_append.symm
  | cons first front ih =>
    have hne : front ++ row :: behind ≠ [] :=
      List.append_ne_nil_of_right_ne_nil _ (List.cons_ne_nil _ _)
    rw [List.cons_append, String.intercalate_cons_of_ne_nil hne, ih, unlines_cons]
    simp only [String.append_assoc]

theorem following_of_ne_nil {behind : List String} (h : behind ≠ []) :
    following behind = "\n" ++ "\n".intercalate behind := by
  obtain ⟨row, behind, rfl⟩ := List.exists_cons_of_ne_nil h
  rw [following_cons, intercalate_cons, String.append_assoc]

theorem toList_following_of_ne_nil {behind : List String} (h : behind ≠ []) :
    (following behind).toList = '\n' :: ("\n".intercalate behind).toList := by
  rw [following_of_ne_nil h, String.toList_append]
  rfl

/-- Rows behind another one begin with a newline. -/
theorem toList_following_cases (behind : List String) :
    behind = [] ∧ (following behind).toList = [] ∨
      behind ≠ [] ∧ (following behind).toList = '\n' :: ("\n".intercalate behind).toList := by
  by_cases h : behind = []
  · rw [h]
    exact .inl ⟨rfl, rfl⟩
  · exact .inr ⟨h, toList_following_of_ne_nil h⟩

/-! ## Rows of a text -/

variable {s : String} {ls : List String}

theorem intercalate_rows (s : String) : "\n".intercalate (rows s) = s := by
  have hpieces : (rows s).map String.toList = pieces s := by
    rw [rows, List.map_map]
    exact List.map_id'' (fun _ => String.toList_ofList) (pieces s)
  rw [← String.toList_inj, String.toList_intercalate, hpieces]
  exact List.intercalate_splitOn '\n'

theorem rows_ne_nil (s : String) : rows s ≠ [] := by
  rw [rows, Ne, List.map_eq_nil_iff]
  exact List.splitOn_ne_nil '\n' s.toList

theorem newline_not_mem_of_mem_rows {row : String} (h : row ∈ rows s) : '\n' ∉ row.toList := by
  obtain ⟨piece, hpiece, rfl⟩ := List.mem_map.1 h
  rw [String.toList_ofList]
  exact not_mem_of_mem_splitOn hpiece

theorem rows_intercalate (hne : ls ≠ []) (h : ∀ row ∈ ls, '\n' ∉ row.toList) :
    rows ("\n".intercalate ls) = ls :=
  map_ofList_splitOn_intercalate rfl hne h

/-- Behind the newline of the last line one more row begins. -/
theorem rows_unlines (h : ∀ row ∈ ls, '\n' ∉ row.toList) : rows (unlines "\n" ls) = ls ++ [""] := by
  have htext : "\n".intercalate (ls ++ [""]) = unlines "\n" ls := by
    rw [intercalate_append_cons]
    exact String.append_empty.trans String.append_empty
  rw [← htext]
  refine rows_intercalate (List.append_ne_nil_of_right_ne_nil _ (List.cons_ne_nil _ _)) ?_
  intro row hrow
  rcases List.mem_append.1 hrow with hrow | hrow
  · exact h row hrow
  · rw [List.mem_singleton.1 hrow]
    decide

/-- A text that is empty or begins with a newline is what follows an empty row. -/
theorem exists_following (h : s = "" ∨ s.toList.head? = some '\n') :
    ∃ behind, rows s = "" :: behind ∧ s = following behind := by
  obtain ⟨row, behind, hrows⟩ := List.exists_cons_of_ne_nil (rows_ne_nil s)
  have hs : s = row ++ following behind := by
    rw [← intercalate_cons, ← hrows, intercalate_rows]
  have hnewline : '\n' ∉ row.toList := newline_not_mem_of_mem_rows (hrows ▸ List.mem_cons_self)
  have hrow : row = "" := by
    rw [← String.toList_eq_nil_iff]
    cases hchars : row.toList with
    | nil => rfl
    | cons c front =>
      -- the text would begin with the first character of the row
      have hhead : s.toList.head? = some c := by
        rw [hs, String.toList_append, hchars]
        rfl
      rcases h with hempty | hstart
      · rw [hempty] at hhead
        cases hhead
      · rw [hchars, ← Option.some.inj (hstart.symm.trans hhead)] at hnewline
        exact absurd List.mem_cons_self hnewline
  rw [hrow] at hrows hs
  exact ⟨behind, hrows, hs.trans String.empty_append⟩

end Weave.Text
