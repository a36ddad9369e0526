import Weave.Proofs.Text.Rows
import Weave.Proofs.Text.Stops
import Weave.Prose.MathBlock

/-!
# Math blocks, row by row

A math block goes from a row that opens one (`Opens`) to the first row behind it that is a closing
fence and nothing else. `convertRows` says on rows what happens to the blocks of a text, and converting
a text is converting its rows (`convert_eq_intercalate`).
-/

namespace Weave.MathBlock

open Text

/-- The row that closes a math block. -/
def closingFence : String := "```"

/-- A row that opens a math block: the fence with spaces and tabs behind it. -/
def Opens (row : String) : Prop :=
  ∃ blanks : List Char, row.toList = openingFence ++ blanks ∧ ∀ c ∈ blanks, c = ' ' ∨ c = '\t'

instance (row : String) : Decidable (Opens row) :=
  decidable_of_iff (openingFence <+: row.toList ∧
      (row.toList.drop openingFence.length).all (fun c => c == ' ' || c == '\t') = true) <| by
    simp only [List.all_eq_true, Bool.or_eq_true, beq_iff_eq]
    constructor
    · intro ⟨⟨blanks, hblanks⟩, hall⟩
      rw [← hblanks, List.drop_left] at hall
      exact ⟨blanks, hblanks.symm, hall⟩
    · intro ⟨blanks, hblanks, hall⟩
      rw [hblanks, List.drop_left]
      exact ⟨List.prefix_append _ _, hall⟩

/-- Rows with both fences of every math block replaced. A row that opens a block which no row closes
stays. -/
def convertRows : List String → List String
  | [] => []
  | row :: rows =>
    if Opens row then
      match _h : cutAt? closingFence rows with
      | some (body, behind) =>
        "\\begin\x7bequation\x7d" :: body ++ "\\end\x7bequation\x7d" :: convertRows behind
      | none => row :: convertRows rows
    else row :: convertRows rows
termination_by rows => rows.length
decreasing_by
  · rw [(cutAt?_eq_some_iff.1 _h).1, List.length_cons, List.length_append, List.length_cons]
    omega
  all_goals simp

/-! ## The two fences in a text -/

section Fences

variable {row : String} {s rest : List Char} {behind : List String}

theorem newline_not_mem_of_blank {cs : List Char} (h : ∀ c ∈ cs, c = ' ' ∨ c = '\t') :
    '\n' ∉ cs := by
  intro hmem
  have hblank : '\n' = ' ' ∨ '\n' = '\t' := h '\n' hmem
  exact absurd hblank (by decide)

theorem newline_not_mem_of_opens (h : Opens row) : '\n' ∉ row.toList := by
  obtain ⟨blanks, hrow, hblanks⟩ := h
  rw [hrow, List.mem_append, not_or]
  exact ⟨by decide, newline_not_mem_of_blank hblanks⟩

/-- After the first character of a row no line starts. -/
theorem of_newline_not_mem_cons {c : Char} {front : List Char} (h : '\n' ∉ c :: front) :
    (c == '\n') = false ∧ '\n' ∉ front :=
  ⟨beq_false_of_ne fun hc => h (hc ▸ List.mem_cons_self),
    fun hmem => h (List.mem_cons_of_mem c hmem)⟩

/-- What follows an opening fence follows the first row of the text, if this row opens a block. -/
theorem afterOpening?_eq_some_iff :
    afterOpening? s = some rest ↔ ∃ row, Opens row ∧ s = row.toList ++ '\n' :: rest := by
  constructor
  · intro h
    unfold afterOpening? at h
    split at h
    · next tail htail =>
      split at h
      · next after hdrop =>
        cases h
        have hs : s = openingFence ++ tail := afterStart?_eq_some_iff.1 htail
        have htail' := List.takeWhile_append_dropWhile (p := fun c => c == ' ' || c == '\t') (l := tail)
        rw [hdrop] at htail'
        refine ⟨String.ofList (openingFence ++ tail.takeWhile fun c => c == ' ' || c == '\t'),
          ⟨_, String.toList_ofList, fun c hc => ?_⟩, ?_⟩
        · simpa using List.mem_takeWhile_imp hc
        · rw [String.toList_ofList, List.append_assoc, htail', hs]
      · cases h
    · cases h
  · intro ⟨row, ⟨blanks, hrow, hblanks⟩, hs⟩
    have hstart : afterStart? openingFence s = some (blanks ++ '\n' :: rest) := by
      rw [afterStart?_eq_some_iff, hs, hrow, List.append_assoc]
    have hdrop : (blanks ++ '\n' :: rest).dropWhile (fun c => c == ' ' || c == '\t')
        = '\n' :: rest := by
      rw [List.dropWhile_append_of_pos fun c hc => by simpa using hblanks c hc]
      rfl
    unfold afterOpening?
    rw [hstart]
    simp only [hdrop]

/-- A row with other rows behind it, as characters. -/
theorem toList_intercalate_cons_cons (row next : String) (behind : List String) :
    ("\n".intercalate (row :: next :: behind)).toList
      = row.toList ++ '\n' :: ("\n".intercalate (next :: behind)).toList := by
  rw [String.intercalate_cons_cons, String.toList_append, String.toList_append, List.append_assoc]
  rfl

/-- What follows a row that opens a block is its body and all behind. -/
theorem afterOpening?_of_opens (h : Opens row) (hbehind : behind ≠ []) :
    afterOpening? ("\n".intercalate (row :: behind)).toList
      = some ("\n".intercalate behind).toList := by
  obtain ⟨next, behind, rfl⟩ := List.exists_cons_of_ne_nil hbehind
  rw [afterOpening?_eq_some_iff]
  exact ⟨row, h, toList_intercalate_cons_cons row next behind⟩

/-- The last row opens nothing, even if it could. -/
theorem afterOpening?_of_last (h : '\n' ∉ row.toList) :
    afterOpening? ("\n".intercalate [row]).toList = none := by
  rw [String.intercalate_singleton, Option.eq_none_iff_forall_ne_some]
  intro rest hrest
  obtain ⟨row', -, hrow⟩ := afterOpening?_eq_some_iff.1 hrest
  apply h
  rw [hrow]
  exact List.mem_append_right _ List.mem_cons_self

theorem afterOpening?_of_not_opens (hrow : '\n' ∉ row.toList) (h : ¬ Opens row) :
    afterOpening? ("\n".intercalate (row :: behind)).toList = none := by
  cases behind with
  | nil => exact afterOpening?_of_last hrow
  | cons next behind =>
    rw [toList_intercalate_cons_cons, Option.eq_none_iff_forall_ne_some]
    intro rest hrest
    obtain ⟨row', hopens, heq⟩ := afterOpening?_eq_some_iff.1 hrest
    have hrows := (append_cons_inj hrow (newline_not_mem_of_opens hopens) heq).1
    exact h (String.toList_inj.1 hrows ▸ hopens)

/-- A text begins with a closing fence that has its row for itself. -/
def Closes (s : List Char) : Prop :=
  s = closingFence.toList ∨ closingFence.toList ++ ['\n'] <+: s

theorem not_closes_append_following (hrow : '\n' ∉ row.toList) (h : row ≠ closingFence)
    (behind : List String) : ¬ Closes (row.toList ++ (following behind).toList) := by
  rcases toList_following_cases behind with ⟨-, htext⟩ | ⟨-, htext⟩
  · rw [htext, List.append_nil]
    intro hcloses
    rcases hcloses with heq | hbegins
    · exact h (String.toList_inj.1 heq)
    · exact hrow (hbegins.subset (List.mem_append_right _ List.mem_cons_self))
  · rw [htext]
    intro hcloses
    rcases hcloses with heq | ⟨rest, hrest⟩
    · have hmem : '\n' ∈ closingFence.toList := by
        rw [← heq]
        exact List.mem_append_right _ List.mem_cons_self
      exact absurd hmem (by decide)
    · rw [List.append_assoc, List.singleton_append] at hrest
      have hrows := (append_cons_inj (by decide) hrow hrest).1
      exact h (String.toList_inj.1 hrows).symm

/-- Where no closing fence stands, the body goes on by one character. -/
theorem splitAtClosing?_cons {lineStart : Bool} {c : Char} (h : lineStart = true → ¬ Closes (c :: s)) :
    splitAtClosing? lineStart (c :: s)
      = (splitAtClosing? (c == '\n') s).map fun (body, rest) => (c :: body, rest) := by
  rw [splitAtClosing?]
  · intro hstart heq
    exact h hstart (.inl heq)
  · intro rest hstart heq
    exact h hstart (.inr ⟨rest, heq.symm⟩)

/-- Within a row no block ends. -/
theorem splitAtClosing?_false_append {front : List Char} (h : '\n' ∉ front) (s : List Char) :
    splitAtClosing? false (front ++ s)
      = (splitAtClosing? false s).map fun (body, rest) => (front ++ body, rest) := by
  induction front with
  | nil => exact Option.map_id'.symm
  | cons c front ih =>
    obtain ⟨hc, hfront⟩ := of_newline_not_mem_cons h
    rw [List.cons_append, splitAtClosing?_cons fun hstart => absurd hstart Bool.false_ne_true, hc,
      ih hfront, Option.map_map]
    rfl

/-- At a newline it makes no difference whether a line starts there. -/
theorem splitAtClosing?_following (behind : List String) :
    splitAtClosing? true (following behind).toList
      = splitAtClosing? false (following behind).toList := by
  rcases toList_following_cases behind with ⟨-, htext⟩ | ⟨-, htext⟩
  · rw [htext]
    rfl
  · have hcloses : ¬ Closes ('\n' :: ("\n".intercalate behind).toList) := by
      have h : ¬ Closes ("".toList ++ (following behind).toList) :=
        not_closes_append_following (by decide) (by decide) behind
      rwa [htext] at h
    rw [htext, splitAtClosing?_cons fun _ => hcloses,
      splitAtClosing?_cons fun hstart => absurd hstart Bool.false_ne_true]

/-- Where a row begins that is no closing fence, the block goes on to its end at least. -/
theorem splitAtClosing?_append_following (hrow : '\n' ∉ row.toList) (h : row ≠ closingFence)
    (behind : List String) :
    splitAtClosing? true (row.toList ++ (following behind).toList)
      = (splitAtClosing? false (following behind).toList).map
          fun (body, rest) => (row.toList ++ body, rest) := by
  have hcloses := not_closes_append_following hrow h behind
  cases hchars : row.toList with
  | nil =>
    rw [List.nil_append, splitAtClosing?_following]
    exact Option.map_id'.symm
  | cons c front =>
    rw [hchars] at hrow hcloses
    obtain ⟨hc, hfront⟩ := of_newline_not_mem_cons hrow
    rw [List.cons_append] at hcloses ⊢
    rw [splitAtClosing?_cons fun _ => hcloses, hc, splitAtClosing?_false_append hfront,
      Option.map_map]
    rfl

/-- A block ends at the first row that is a closing fence and nothing else. -/
theorem splitAtClosing?_intercalate {rows : List String} (hne : rows ≠ [])
    (h : ∀ row ∈ rows, '\n' ∉ row.toList) :
    splitAtClosing? true ("\n".intercalate rows).toList
      = (cutAt? closingFence rows).map fun (body, behind) =>
          ((unlines "\n" body).toList, (following behind).toList) := by
  induction rows with
  | nil => exact absurd rfl hne
  | cons row behind ih =>
    obtain ⟨hrow, hbehind⟩ := List.forall_mem_cons.1 h
    rw [intercalate_cons, String.toList_append]
    by_cases hclosing : row = closingFence
    · have hcut : cutAt? closingFence (row :: behind) = some ([], behind) := by
        rw [cutAt?_eq_some_iff, hclosing]
        exact ⟨rfl, List.not_mem_nil⟩
      rw [hcut, hclosing]
      show _ = some ([], (following behind).toList)
      rcases toList_following_cases behind with ⟨-, htext⟩ | ⟨-, htext⟩
      · rw [htext]
        rfl
      · rw [htext]
        rfl
    · rw [splitAtClosing?_append_following hrow hclosing, cutAt?_cons_of_ne hclosing]
      rcases toList_following_cases behind with ⟨hnil, htext⟩ | ⟨hne, htext⟩
      · rw [htext, hnil]
        rfl
      · rw [htext, splitAtClosing?_cons fun hstart => absurd hstart Bool.false_ne_true]
        show ((splitAtClosing? true _).map _).map _ = _
        rw [ih hne hbehind]
        simp only [Option.map_map]
        congr 1
        funext pair
        simp [unlines_cons]

end Fences

/-! ## Converting rows -/

section Converting

variable {s body rest : List Char} {row : String} {ls behind : List String}

/-- The body of the math block that a text begins with, and what follows the closing fence. -/
def block? (s : List Char) : Option (List Char × List Char) :=
  (afterOpening? s).bind (splitAtClosing? true)

theorem convertChars_of_block? (h : block? s = some (body, rest)) :
    convertChars true s = beginEquation ++ body ++ endEquation ++ convertChars false rest := by
  obtain ⟨inner, hinner, hsplit⟩ := Option.bind_eq_some_iff.1 h
  cases s with
  | nil => cases hinner
  | cons c s =>
    rw [convertChars, if_pos rfl]
    split
    · next inner' hinner' =>
      obtain rfl : inner = inner' := Option.some.inj (hinner.symm.trans hinner')
      split
      · next body' rest' hsplit' =>
        cases Option.some.inj (hsplit.symm.trans hsplit')
        rfl
      · next hnone =>
        rw [hsplit] at hnone
        cases hnone
    · next hnone =>
      rw [hinner] at hnone
      cases hnone

/-- A character that no block starts with stays. -/
theorem convertChars_cons {lineStart : Bool} {c : Char}
    (h : lineStart = true → block? (c :: s) = none) :
    convertChars lineStart (c :: s) = c :: convertChars (c == '\n') s := by
  rw [convertChars]
  split
  · next hstart =>
    have hnone := h hstart
    split
    · next inner hinner =>
      split
      · next body rest hsplit =>
        rw [block?, hinner, Option.bind_some, hsplit] at hnone
        cases hnone
      · rfl
    · rfl
  · rfl

theorem convertChars_nil (lineStart : Bool) : convertChars lineStart [] = [] := by
  rw [convertChars]

/-- Within a row no block starts. -/
theorem convertChars_false_append {front : List Char} (h : '\n' ∉ front) (s : List Char) :
    convertChars false (front ++ s) = front ++ convertChars false s := by
  induction front with
  | nil => rfl
  | cons c front ih =>
    obtain ⟨hc, hfront⟩ := of_newline_not_mem_cons h
    rw [List.cons_append, convertChars_cons fun hstart => absurd hstart Bool.false_ne_true, hc,
      ih hfront]
    rfl

/-- The block that rows begin with goes from its opening row to the first closing one. -/
theorem block?_intercalate (hrow : '\n' ∉ row.toList) (hbehind : ∀ row ∈ behind, '\n' ∉ row.toList) :
    block? ("\n".intercalate (row :: behind)).toList
      = if Opens row then (cutAt? closingFence behind).map fun (body, rest) =>
          ((unlines "\n" body).toList, (following rest).toList)
        else none := by
  unfold block?
  by_cases hopens : Opens row
  · rw [if_pos hopens]
    by_cases hne : behind = []
    · rw [hne, afterOpening?_of_last hrow]
      rfl
    · rw [afterOpening?_of_opens hopens hne, Option.bind_some,
        splitAtClosing?_intercalate hne hbehind]
  · rw [if_neg hopens, afterOpening?_of_not_opens hrow hopens]
    rfl

/-- At a newline it makes no difference whether a line starts there. -/
theorem convertChars_following (hbehind : ∀ row ∈ behind, '\n' ∉ row.toList) :
    convertChars true (following behind).toList = convertChars false (following behind).toList := by
  have hblock : block? ("\n".intercalate ("" :: behind)).toList = none := by
    rw [block?_intercalate (by decide) hbehind, if_neg (by decide)]
  rw [intercalate_cons, String.empty_append] at hblock
  rcases toList_following_cases behind with ⟨-, htext⟩ | ⟨-, htext⟩
  · rw [htext, convertChars_nil, convertChars_nil]
  · rw [htext] at hblock ⊢
    rw [convertChars_cons fun _ => hblock,
      convertChars_cons fun hstart => absurd hstart Bool.false_ne_true]

/-- A row that begins no block stays. -/
theorem convertChars_row (hrow : '\n' ∉ row.toList) (hbehind : ∀ row ∈ behind, '\n' ∉ row.toList)
    (h : block? ("\n".intercalate (row :: behind)).toList = none) :
    convertChars true ("\n".intercalate (row :: behind)).toList
      = row.toList ++ convertChars false (following behind).toList := by
  rw [intercalate_cons, String.toList_append] at h ⊢
  cases hchars : row.toList with
  | nil => exact convertChars_following hbehind
  | cons c front =>
    rw [hchars] at hrow h
    obtain ⟨hc, hfront⟩ := of_newline_not_mem_cons hrow
    rw [List.cons_append] at h ⊢
    rw [convertChars_cons fun _ => h, hc, convertChars_false_append hfront]
    rfl

theorem length_convertRows (ls : List String) : (convertRows ls).length = ls.length := by
  fun_induction convertRows ls with
  | case1 => rfl
  | case2 row rows _ body behind hcut ih =>
    rw [(cutAt?_eq_some_iff.1 hcut).1]
    simp [ih]
  | case3 row rows _ _ ih => rw [List.length_cons, ih, List.length_cons]
  | case4 row rows _ ih => rw [List.length_cons, ih, List.length_cons]

theorem newline_not_mem_convertRows (h : ∀ row ∈ ls, '\n' ∉ row.toList) :
    ∀ row ∈ convertRows ls, '\n' ∉ row.toList := by
  fun_induction convertRows ls with
  | case1 => exact h
  | case2 row rows _ body behind hcut ih =>
    rw [(cutAt?_eq_some_iff.1 hcut).1] at h
    obtain ⟨hbody, hbehind⟩ := List.forall_mem_append.1 (List.forall_mem_cons.1 h).2
    have hend := ih (List.forall_mem_cons.1 hbehind).2
    exact List.forall_mem_append.2 ⟨List.forall_mem_cons.2 ⟨by decide, hbody⟩,
      List.forall_mem_cons.2 ⟨by decide, hend⟩⟩
  | case3 row rows _ _ ih =>
    obtain ⟨hrow, hrows⟩ := List.forall_mem_cons.1 h
    exact List.forall_mem_cons.2 ⟨hrow, ih hrows⟩
  | case4 row rows _ ih =>
    obtain ⟨hrow, hrows⟩ := List.forall_mem_cons.1 h
    exact List.forall_mem_cons.2 ⟨hrow, ih hrows⟩

/-- Rows behind another one are converted as they would be on their own. -/
theorem convertChars_following_of_intercalate
    (h : convertChars true ("\n".intercalate ls).toList
      = ("\n".intercalate (convertRows ls)).toList) :
    convertChars false (following ls).toList = (following (convertRows ls)).toList := by
  cases ls with
  | nil =>
    rw [convertRows]
    exact convertChars_nil false
  | cons row behind =>
    have hne : convertRows (row :: behind) ≠ [] := by
      rw [← List.length_pos_iff, length_convertRows]
      exact Nat.succ_pos _
    rw [toList_following_of_ne_nil (List.cons_ne_nil _ _), toList_following_of_ne_nil hne,
      convertChars_cons fun hstart => absurd hstart Bool.false_ne_true]
    exact congrArg ('\n' :: ·) h

/-- Converting a text is converting its rows. -/
theorem convertChars_intercalate (h : ∀ row ∈ ls, '\n' ∉ row.toList) :
    convertChars true ("\n".intercalate ls).toList
      = ("\n".intercalate (convertRows ls)).toList := by
  -- along the scan over rows, which goes on behind the closing row of a block
  fun_induction convertRows ls with
  | case1 => exact convertChars_nil true
  | case2 row rows hopens body behind hcut ih =>
    obtain ⟨hrow, hrows⟩ := List.forall_mem_cons.1 h
    have hbehind : ∀ row ∈ behind, '\n' ∉ row.toList := by
      intro next hnext
      apply hrows
      rw [(cutAt?_eq_some_iff.1 hcut).1]
      exact List.mem_append_right _ (List.mem_cons_of_mem _ hnext)
    have hblock := block?_intercalate hrow hrows
    rw [if_pos hopens, hcut] at hblock
    have hbegin : beginEquation = ("\\begin\x7bequation\x7d" ++ "\n").toList := by decide
    rw [convertChars_of_block? hblock, convertChars_following_of_intercalate (ih hbehind),
      intercalate_append_cons, unlines_cons, hbegin]
    simp only [String.toList_append]
    rfl
  | case3 row rows hopens hcut ih =>
    obtain ⟨hrow, hrows⟩ := List.forall_mem_cons.1 h
    have hblock := block?_intercalate hrow hrows
    rw [if_pos hopens, hcut] at hblock
    rw [convertChars_row hrow hrows hblock, convertChars_following_of_intercalate (ih hrows),
      intercalate_cons, String.toList_append]
  | case4 row rows hopens ih =>
    obtain ⟨hrow, hrows⟩ := List.forall_mem_cons.1 h
    have hblock := block?_intercalate hrow hrows
    rw [if_neg hopens] at hblock
    rw [convertChars_row hrow hrows hblock, convertChars_following_of_intercalate (ih hrows),
      intercalate_cons, String.toList_append]

/-- Converting a text converts its rows. -/
theorem convert_intercalate (h : ∀ row ∈ ls, '\n' ∉ row.toList) :
    convert ("\n".intercalate ls) = "\n".intercalate (convertRows ls) := by
  rw [convert, convertChars_intercalate h, String.ofList_toList]

theorem convert_following (h : ∀ row ∈ behind, '\n' ∉ row.toList) :
    convert (following behind) = following (convertRows behind) := by
  rw [convert, convertChars_following h,
    convertChars_following_of_intercalate (convertChars_intercalate h), String.ofList_toList]

/-- Every text is converted row by row, and keeps the number of its rows. -/
theorem convert_eq_intercalate (s : String) :
    convert s = "\n".intercalate (convertRows (rows s)) ∧
      (rows (convert s)).length = (rows s).length := by
  have hnewline : ∀ row ∈ rows s, '\n' ∉ row.toList := fun row => newline_not_mem_of_mem_rows
  have hne : convertRows (rows s) ≠ [] := by
    rw [← List.length_pos_iff, length_convertRows, List.length_pos_iff]
    exact rows_ne_nil s
  have hconvert : convert s = "\n".intercalate (convertRows (rows s)) := by
    rw [← convert_intercalate hnewline, intercalate_rows]
  refine ⟨hconvert, ?_⟩
  rw [hconvert, rows_intercalate hne (newline_not_mem_convertRows hnewline), length_convertRows]

end Converting

/-! ## Blanks behind the fences -/

section Blanks

variable {row : String} {ls body behind : List String}

/-- A block that is closed becomes an equation, and what is behind it is converted next. -/
theorem convertRows_of_closed (hopens : Opens row) (hbody : closingFence ∉ body) :
    convertRows (row :: (body ++ closingFence :: behind))
      = "\\begin\x7bequation\x7d" :: body ++ "\\end\x7bequation\x7d" :: convertRows behind := by
  have hcut : cutAt? closingFence (body ++ closingFence :: behind) = some (body, behind) :=
    cutAt?_eq_some_iff.2 ⟨rfl, hbody⟩
  rw [convertRows, if_pos hopens]
  split
  · next heq =>
    cases Option.some.inj (hcut.symm.trans heq)
    rfl
  · next heq =>
    rw [hcut] at heq
    cases heq

/-- A row without a closing fence behind it stays as it is. -/
theorem convertRows_of_not_mem (h : closingFence ∉ ls) :
    convertRows (row :: ls) = row :: convertRows ls := by
  rw [convertRows]
  split
  · split
    · next heq =>
      rw [cutAt?_eq_none_iff.2 h] at heq
      cases heq
    · rfl
  · rfl

/-- Without a closing fence nothing is converted. -/
theorem convertRows_eq_self (h : closingFence ∉ ls) : convertRows ls = ls := by
  induction ls with
  | nil => rw [convertRows]
  | cons row ls ih =>
    have hls : closingFence ∉ ls := fun hmem => h (List.mem_cons_of_mem row hmem)
    rw [convertRows_of_not_mem hls, ih hls]

/-- A block that is closed becomes an equation, and what is behind it is converted on its own. -/
theorem convert_of_closed (hopens : Opens row) (hbody : ∀ line ∈ body, '\n' ∉ line.toList)
    (hclosing : closingFence ∉ body) (hbehind : ∀ line ∈ behind, '\n' ∉ line.toList) :
    convert (row ++ "\n" ++ unlines "\n" body ++ closingFence ++ following behind)
      = "\\begin\x7bequation\x7d\n" ++ unlines "\n" body ++ "\\end\x7bequation\x7d" ++
          convert (following behind) := by
  have htext : row ++ "\n" ++ unlines "\n" body ++ closingFence ++ following behind
      = "\n".intercalate (row :: (body ++ closingFence :: behind)) := by
    rw [← List.cons_append, intercalate_append_cons, unlines_cons]
  have hall : ∀ line ∈ row :: (body ++ closingFence :: behind), '\n' ∉ line.toList :=
    List.forall_mem_cons.2 ⟨newline_not_mem_of_opens hopens,
      List.forall_mem_append.2 ⟨hbody, List.forall_mem_cons.2 ⟨by decide, hbehind⟩⟩⟩
  rw [htext, convert_intercalate hall, convertRows_of_closed hopens hclosing,
    intercalate_append_cons, unlines_cons, ← convert_following hbehind]
  rfl

/-- Before rows that hold no closing fence a row stays, and they are converted on their own. -/
theorem convert_of_not_mem (hne : ls ≠ []) (hrow : '\n' ∉ row.toList)
    (hls : ∀ line ∈ ls, '\n' ∉ line.toList) (hclosing : closingFence ∉ ls) :
    convert (row ++ "\n" ++ "\n".intercalate ls) = row ++ "\n" ++ convert ("\n".intercalate ls) := by
  have hne' : convertRows ls ≠ [] := by
    rwa [← List.length_pos_iff, length_convertRows, List.length_pos_iff]
  rw [← String.intercalate_cons_of_ne_nil hne,
    convert_intercalate (List.forall_mem_cons.2 ⟨hrow, hls⟩), convertRows_of_not_mem hclosing,
    String.intercalate_cons_of_ne_nil hne', convert_intercalate hls]

variable {last v w q : String}

theorem convert_closed_block (hopens : Opens row) (hbody : ∀ line ∈ body, '\n' ∉ line.toList)
    (hclosing : closingFence ∉ body) (hq : q = "" ∨ q.toList.head? = some '\n') :
    convert (row ++ "\n" ++ unlines "\n" body ++ closingFence ++ q)
      = "\\begin\x7bequation\x7d\n" ++ unlines "\n" body ++ "\\end\x7bequation\x7d" ++ convert q := by
  obtain ⟨behind, hrows, rfl⟩ := exists_following hq
  apply convert_of_closed hopens hbody hclosing
  intro row hrow
  exact newline_not_mem_of_mem_rows (hrows ▸ List.mem_cons_of_mem "" hrow)

/-- A row that is no closing fence does not end a block. It goes on to the next fence that has its row
for itself; if there is none, then the opening fence stays. -/
theorem convert_block_append (hopens : Opens row) (hbody : ∀ line ∈ body, '\n' ∉ line.toList)
    (hclosing : closingFence ∉ body) (hlast : '\n' ∉ last.toList) (hne : last ≠ closingFence)
    (hq : q = "" ∨ q.toList.head? = some '\n') :
    convert (row ++ "\n" ++ unlines "\n" body ++ last ++ q)
      = match cutAt? closingFence (rows q) with
        | some (more, behind) =>
          "\\begin\x7bequation\x7d\n" ++ unlines "\n" body ++ last ++ unlines "\n" more ++
            "\\end\x7bequation\x7d" ++ convert (following behind)
        | none => row ++ "\n" ++ convert (unlines "\n" body ++ last ++ q) := by
  obtain ⟨behind, hrows, rfl⟩ := exists_following hq
  have hbehind : ∀ row ∈ behind, '\n' ∉ row.toList := by
    intro row hrow
    exact newline_not_mem_of_mem_rows (hrows ▸ List.mem_cons_of_mem "" hrow)
  have hnot (more : List String) (hmore : closingFence ∉ more) :
      closingFence ∉ body ++ last :: more := by
    rw [List.mem_append, List.mem_cons, not_or, not_or]
    exact ⟨hclosing, Ne.symm hne, hmore⟩
  have hlines (more : List String) (hmore : ∀ line ∈ more, '\n' ∉ line.toList) :
      ∀ line ∈ body ++ last :: more, '\n' ∉ line.toList :=
    List.forall_mem_append.2 ⟨hbody, List.forall_mem_cons.2 ⟨hlast, hmore⟩⟩
  rw [hrows, cutAt?_cons_of_ne (by decide)]
  cases hcut : cutAt? closingFence behind with
  | some cut =>
    -- the row and those up to the next fence belong to the body
    obtain ⟨more, rest⟩ := cut
    obtain ⟨rfl, hmore⟩ := cutAt?_eq_some_iff.1 hcut
    obtain ⟨hmoreLines, hrest⟩ := List.forall_mem_append.1 hbehind
    have hclosed := convert_of_closed hopens (hlines more hmoreLines) (hnot more hmore)
      (List.forall_mem_cons.1 hrest).2
    have hq' : following (more ++ closingFence :: rest)
        = "\n" ++ (unlines "\n" more ++ closingFence ++ following rest) := by
      rw [following_of_ne_nil (List.append_ne_nil_of_right_ne_nil _ (List.cons_ne_nil _ _)),
        intercalate_append_cons]
    rw [unlines_append, unlines_cons] at hclosed
    rw [Option.map_some, hq']
    simpa only [String.append_assoc, String.empty_append, unlines_cons] using hclosed
  | none =>
    have hstays := convert_of_not_mem (List.append_ne_nil_of_right_ne_nil body (List.cons_ne_nil _ _))
      (newline_not_mem_of_opens hopens) (hlines behind hbehind)
      (hnot behind (cutAt?_eq_none_iff.1 hcut))
    rw [intercalate_append_cons] at hstays
    rw [Option.map_none]
    simpa only [String.append_assoc] using hstays

/-- Blanks behind an opening fence change nothing. Behind a closing one they make it a row of the
body. -/
theorem convert_block_eq
    (hbody : ∀ line ∈ body, '\n' ∉ line.toList ∧ ¬ closingFence.toList <+: line.toList)
    (hv : ∀ c ∈ v.toList, c = ' ' ∨ c = '\t') (hw : ∀ c ∈ w.toList, c = ' ' ∨ c = '\t')
    (hq : q = "" ∨ q.toList.head? = some '\n') :
    convert ("```math" ++ v ++ "\n" ++ unlines "\n" body ++ "```" ++ w ++ q)
      = if w = "" then
          "\\begin\x7bequation\x7d\n" ++ unlines "\n" body ++ "\\end\x7bequation\x7d" ++ convert q
        else match cutAt? closingFence (rows q) with
          | some (more, behind) =>
            "\\begin\x7bequation\x7d\n" ++ unlines "\n" body ++ "```" ++ w ++ unlines "\n" more ++
              "\\end\x7bequation\x7d" ++ convert (following behind)
          | none => "```math" ++ v ++ "\n" ++ convert (unlines "\n" body ++ "```" ++ w ++ q) := by
  have hopens : Opens ("```math" ++ v) := ⟨v.toList, String.toList_append, hv⟩
  have hlines : ∀ line ∈ body, '\n' ∉ line.toList := fun line hline => (hbody line hline).1
  have hclosing : closingFence ∉ body := fun hmem => (hbody _ hmem).2 List.prefix_rfl
  split
  · next hempty =>
    rw [hempty, String.append_empty]
    exact convert_closed_block hopens hlines hclosing hq
  · next hsome =>
    have hne : "```" ++ w ≠ closingFence := fun heq => hsome (String.append_eq_left_iff.1 heq)
    have hlast : '\n' ∉ ("```" ++ w).toList := by
      rw [String.toList_append, List.mem_append, not_or]
      exact ⟨by decide, newline_not_mem_of_blank hw⟩
    have hblock := convert_block_append hopens hlines hclosing hlast hne hq
    simpa only [String.append_assoc] using hblock

theorem not_isPrefix_of_head?_ne {s t : List Char} {c d : Char} (hs : s.head? = some c)
    (ht : t.head? = some d) (h : c ≠ d) : ¬ s <+: t := by
  intro hbegins
  obtain ⟨rest, rfl⟩ := hbegins
  rw [List.head?_append, hs, Option.some_or, Option.some_inj] at ht
  exact h ht

/-- With blanks behind its closing fence a block is not recognised as it stands. -/
theorem not_isPrefix_convert_block
    (hbody : ∀ line ∈ body, '\n' ∉ line.toList ∧ ¬ closingFence.toList <+: line.toList)
    (hv : ∀ c ∈ v.toList, c = ' ' ∨ c = '\t') (hw : ∀ c ∈ w.toList, c = ' ' ∨ c = '\t')
    (hq : q = "" ∨ q.toList.head? = some '\n') (hsome : w ≠ "") :
    ¬ ("\\begin\x7bequation\x7d\n" ++ unlines "\n" body ++ "\\end\x7bequation\x7d").toList <+:
      (convert ("```math" ++ v ++ "\n" ++ unlines "\n" body ++ "```" ++ w ++ q)).toList := by
  rw [convert_block_eq hbody hv hw hq, if_neg hsome]
  split
  · -- behind the body the fence with its blanks is still there
    simp only [String.append_assoc, String.toList_append]
    rw [List.prefix_append_right_inj, List.prefix_append_right_inj]
    exact not_isPrefix_of_head?_ne rfl rfl (by decide)
  · -- the text still begins with its opening fence
    simp only [String.append_assoc, String.toList_append]
    exact not_isPrefix_of_head?_ne rfl rfl (by decide)

/-- A math block ends at its own closing fence exactly if no blanks stand behind this fence, whatever
blanks stand behind the opening one. -/
theorem isPrefix_convert_block_iff
    (hbody : ∀ line ∈ body, '\n' ∉ line.toList ∧ ¬ closingFence.toList <+: line.toList)
    (hv : ∀ c ∈ v.toList, c = ' ' ∨ c = '\t') (hw : ∀ c ∈ w.toList, c = ' ' ∨ c = '\t')
    (hq : q = "" ∨ q.toList.head? = some '\n') :
    let text := "```math" ++ v ++ "\n" ++ unlines "\n" body ++ "```" ++ w ++ q
    let block := "\\begin\x7bequation\x7d\n" ++ unlines "\n" body
    ((block ++ "\\end\x7bequation\x7d").toList <+: (convert text).toList ↔ w = "") ∧
      convert text = if w = "" then block ++ "\\end\x7bequation\x7d" ++ convert q
        else match cutAt? closingFence (rows q) with
          | some (more, behind) =>
            block ++ "```" ++ w ++ unlines "\n" more ++ "\\end\x7bequation\x7d" ++
              convert (following behind)
          | none => "```math" ++ v ++ "\n" ++ convert (unlines "\n" body ++ "```" ++ w ++ q) := by
  intro text block
  have htext := convert_block_eq hbody hv hw hq
  refine ⟨⟨fun hbegins => ?_, fun hempty => ?_⟩, htext⟩
  · by_contra hsome
    exact not_isPrefix_convert_block hbody hv hw hq hsome hbegins
  · rw [htext, if_pos hempty, String.toList_append (t := convert q)]
    exact List.prefix_append _ _

/-- A block whose closing fence has a space behind it goes on to that of the next block. -/
theorem isPrefix_convert_block_iff_two_blocks :
    let body := ["x"]
    let q := "\n```math\ny\n```"
    (∀ line ∈ body, '\n' ∉ line.toList ∧ ¬ closingFence.toList <+: line.toList) ∧
      (∀ c ∈ "\t".toList, c = ' ' ∨ c = '\t') ∧ (∀ c ∈ " ".toList, c = ' ' ∨ c = '\t') ∧
      q.toList.head? = some '\n' ∧
      ¬ "\\begin\x7bequation\x7d\nx\n\\end\x7bequation\x7d".toList <+:
        (convert "```math\t\nx\n``` \n```math\ny\n```").toList ∧
      convert "```math\t\nx\n``` \n```math\ny\n```"
        = "\\begin\x7bequation\x7d\nx\n``` \n```math\ny\n\\end\x7bequation\x7d" := by
  intro body q
  have hbody : ∀ line ∈ body, '\n' ∉ line.toList ∧ ¬ closingFence.toList <+: line.toList := by decide
  have hv : ∀ c ∈ "\t".toList, c = ' ' ∨ c = '\t' := List.forall_mem_singleton.2 (.inr rfl)
  have hw : ∀ c ∈ " ".toList, c = ' ' ∨ c = '\t' := List.forall_mem_singleton.2 (.inl rfl)
  have hq : q.toList.head? = some '\n' := by decide
  obtain ⟨hiff, htext⟩ := isPrefix_convert_block_iff hbody hv hw (.inr hq)
  have hcut : cutAt? closingFence (rows q) = some (["", "```math", "y"], []) := by decide
  have hnothing : convert (following []) = "" := congrArg String.ofList (convertChars_nil true)
  rw [if_neg (by decide), hcut] at htext
  simp only [hnothing] at htext
  exact ⟨hbody, hv, hw, hq, fun hbegins => absurd (hiff.1 hbegins) (by decide),
    htext.trans (by decide)⟩

/-- Not every math block ends at its own closing fence. -/
theorem not_forall_isPrefix_convert_block :
    ¬ ∀ (body : List String) (v w q : String),
      (∀ line ∈ body, '\n' ∉ line.toList ∧ ¬ closingFence.toList <+: line.toList) →
      (∀ c ∈ v.toList, c = ' ' ∨ c = '\t') → (∀ c ∈ w.toList, c = ' ' ∨ c = '\t') →
      (q = "" ∨ q.toList.head? = some '\n') →
      ("\\begin\x7bequation\x7d\n" ++ unlines "\n" body ++ "\\end\x7bequation\x7d").toList <+:
        (convert ("```math" ++ v ++ "\n" ++ unlines "\n" body ++ "```" ++ w ++ q)).toList := by
  intro h
  have hbody : ∀ line ∈ ["x"], '\n' ∉ line.toList ∧ ¬ closingFence.toList <+: line.toList := by decide
  have hv : ∀ c ∈ "".toList, c = ' ' ∨ c = '\t' := List.forall_mem_nil _
  have hw : ∀ c ∈ " ".toList, c = ' ' ∨ c = '\t' := List.forall_mem_singleton.2 (.inl rfl)
  exact not_isPrefix_convert_block hbody hv hw (.inl rfl) (by decide)
    (h ["x"] "" " " "" hbody hv hw (.inl rfl))

end Blanks

end Weave.MathBlock
