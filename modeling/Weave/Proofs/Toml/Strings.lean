import Mathlib.Data.List.Basic
import Weave.Toml.Strings
import Weave.Toml.Writer

/-!
# TOML strings read back

Each of the four notations gives back the text that was written in it. Between double quotes the
text has to be on one line, between single quotes it must not hold what only an escape can say; what
the triple quotes need is that three quotes in a row stand at the end only (`hasRun`), which escapes
provide. So a text is read back from the notation that is chosen for it, whichever it is
(`readString_writeString`).
-/

namespace Weave.Toml

variable {c quote : Char} {s escape rest : List Char}

/-! ## Escapes -/

/-- What stands behind the backslash of an escape for `c`. It is no blank and no newline, so that it
does not continue a line. -/
def Escapes (escape : List Char) (c : Char) : Prop :=
  ∀ rest, readEscape? (escape ++ rest) = some (c, rest) ∧ afterContinuation? (escape ++ rest) = none

/-- The number of a code has four digits. -/
theorem charOfHex?_code : ∀ n < 0x80,
    (Text.padZeros 4 ((Text.hexDigits n).map Char.toUpper)).length = 4 ∧
      charOfHex? (Text.padZeros 4 ((Text.hexDigits n).map Char.toUpper)) = some (Char.ofNat n) := by
  decide

theorem escapes_code (h : c.toNat < 0x80) :
    Escapes ('u' :: Text.padZeros 4 ((Text.hexDigits c.toNat).map Char.toUpper)) c := by
  intro rest
  obtain ⟨hlength, hhex⟩ := charOfHex?_code c.toNat h
  obtain ⟨a, b, d, e, hdigits⟩ := List.length_eq_four.1 hlength
  rw [hdigits] at hhex ⊢
  refine ⟨?_, rfl⟩
  show (charOfHex? [a, b, d, e]).map (·, rest) = _
  rw [hhex, Char.ofNat_toNat, Option.map_some]

theorem escapes_quote : Escapes ['"'] '"' :=
  fun _ => ⟨rfl, rfl⟩

theorem lt_of_isControl (h : isControl c) : c.toNat < 0x80 := by
  simp only [isControl, Bool.or_eq_true, Bool.and_eq_true, decide_eq_true_eq, beq_iff_eq] at h
  omega

/-- What does not need an escape is text, or ends a line. -/
theorem isTextChar_of_not_isControl (h : isControl c = false) : c = '\n' ∨ isTextChar c := by
  simp only [isControl, Bool.or_eq_false_iff, Bool.and_eq_false_iff, decide_eq_false_iff_not,
    bne_eq_false_iff_eq, beq_eq_false_iff_ne] at h
  obtain ⟨(hspace | rfl) | rfl, hdelete⟩ := h
  · refine Or.inr ?_
    simp only [isTextChar, Bool.or_eq_true, Bool.and_eq_true, decide_eq_true_eq, bne_iff_ne]
    exact Or.inr ⟨Nat.le_of_not_lt hspace, hdelete⟩
  · exact Or.inr rfl
  · exact Or.inl rfl

theorem ne_return_of_plain (h : c = '\n' ∨ isTextChar c) : c ≠ '\r' := by
  rintro rfl
  revert h
  decide

/-- A character is written as an escape or as itself. -/
theorem escapeChar_cases (c : Char) :
    (∃ escape, escapeChar c = '\\' :: escape ∧ Escapes escape c) ∨
      (escapeChar c = [c] ∧ c ≠ '\\' ∧ (c = '\n' ∨ isTextChar c)) := by
  unfold escapeChar
  split
  case h_6 _ _ _ _ hbackslash =>
    split
    · next hcontrol => exact Or.inl ⟨_, rfl, escapes_code (lt_of_isControl hcontrol)⟩
    · next hcontrol =>
      exact Or.inr ⟨rfl, hbackslash, isTextChar_of_not_isControl (Bool.not_eq_true _ ▸ hcontrol)⟩
  all_goals exact Or.inl ⟨_, rfl, fun rest => ⟨rfl, rfl⟩⟩

/-! ## Strings on one line -/

/-- An escape in a string of one line is read as its character. -/
theorem readBasic_escape (h : Escapes escape c) (rest : List Char) :
    readBasic ('\\' :: (escape ++ rest)) = (readBasic rest).map (consText c) := by
  rw [readBasic, if_neg (by decide), if_pos rfl]
  split
  · next c' rest' hread =>
    cases hread.symm.trans (h rest).1
    rfl
  · next hread => cases hread.symm.trans (h rest).1

theorem readBasic_char (hquote : c ≠ '"') (hbackslash : c ≠ '\\') (h : isTextChar c)
    (rest : List Char) : readBasic (c :: rest) = (readBasic rest).map (consText c) := by
  rw [readBasic, if_neg hquote, if_neg hbackslash, if_pos h]

/-- On one line every text can stand between double quotes. -/
theorem readBasic_escapeBasic (h : '\n' ∉ s) (rest : List Char) :
    readBasic (escapeBasic s ++ '"' :: rest) = some (s, rest) := by
  induction s with
  | nil =>
    show readBasic ('"' :: rest) = _
    rw [readBasic, if_pos rfl]
  | cons c s ih =>
    obtain ⟨hc, hs⟩ := not_or.1 (List.mem_cons.not.1 h)
    rw [escapeBasic, List.flatMap_cons, List.append_assoc]
    change readBasic (_ ++ (escapeBasic s ++ '"' :: rest)) = _
    split
    · next hquote =>
      rw [hquote]
      exact (readBasic_escape escapes_quote _).trans (congrArg _ (ih hs))
    · next hquote =>
      obtain ⟨escape, hwritten, hescape⟩ | ⟨hwritten, hbackslash, hplain⟩ := escapeChar_cases c
      · rw [hwritten, List.cons_append, readBasic_escape hescape, ih hs]
        rfl
      · have htext : isTextChar c := hplain.resolve_left (Ne.symm hc)
        rw [hwritten, List.singleton_append, readBasic_char hquote hbackslash htext, ih hs]
        rfl

/-- On one line a text can stand between single quotes if it has none and does not need escapes. -/
theorem readLiteral_append (htext : ∀ c ∈ s, isTextChar c) (hquote : '\'' ∉ s) (rest : List Char) :
    readLiteral (s ++ '\'' :: rest) = some (s, rest) := by
  induction s with
  | nil => rfl
  | cons c s ih =>
    obtain ⟨hc, hs⟩ := not_or.1 (List.mem_cons.not.1 hquote)
    obtain ⟨htextc, htexts⟩ := List.forall_mem_cons.1 htext
    rw [List.cons_append, readLiteral, if_neg (Ne.symm hc), if_pos htextc, ih htexts hs]
    rfl

/-! ## Quotes in a row -/

theorem hasRun_mono {n seen seen' : ℕ} (hle : seen' ≤ seen) (h : hasRun quote n seen s = false) :
    hasRun quote n seen' s = false := by
  induction s generalizing seen seen' with
  | nil =>
    rw [hasRun, decide_eq_false_iff_not] at h ⊢
    omega
  | cons c s ih =>
    rw [hasRun, Bool.or_eq_false_iff, decide_eq_false_iff_not] at h ⊢
    refine ⟨by omega, ih ?_ h.2⟩
    split
    · exact Nat.succ_le_succ hle
    · exact Nat.le_refl 0

/-- The quotes at the front of a text. -/
def frontQuotes (quote : Char) (s : List Char) : List Char :=
  s.takeWhile (· == quote)

theorem frontQuotes_cons_self (quote : Char) (s : List Char) :
    frontQuotes quote (quote :: s) = quote :: frontQuotes quote s :=
  List.takeWhile_cons_of_pos (beq_self_eq_true quote)

theorem frontQuotes_cons_of_ne (h : c ≠ quote) (s : List Char) : frontQuotes quote (c :: s) = [] :=
  List.takeWhile_cons_of_neg (by simpa using h)

/-- Fewer than `n` quotes stand at the front of a text that has not `n` of them in a row, those that
have been seen included. -/
theorem length_frontQuotes_lt {n seen : ℕ} (h : hasRun quote n seen s = false) :
    (frontQuotes quote s).length + seen < n := by
  induction s generalizing seen with
  | nil =>
    rw [hasRun, decide_eq_false_iff_not] at h
    rw [frontQuotes, List.takeWhile_nil, List.length_nil]
    omega
  | cons c s ih =>
    rw [hasRun, Bool.or_eq_false_iff, decide_eq_false_iff_not] at h
    obtain ⟨hseen, h⟩ := h
    by_cases hc : c = quote
    · rw [if_pos hc] at h
      have hrest := ih h
      rw [hc, frontQuotes_cons_self, List.length_cons]
      omega
    · rw [frontQuotes_cons_of_ne hc, List.length_nil]
      omega

theorem eq_of_afterTriple?_eq_some (h : afterTriple? quote s = some rest) :
    s = quote :: quote :: quote :: rest := by
  unfold afterTriple? at h
  split at h
  · split at h
    · next hquotes =>
      cases h
      rw [hquotes.1, hquotes.2.1, hquotes.2.2]
    · cases h
  · cases h

theorem afterTriple?_cons (h : c ≠ quote) (rest : List Char) :
    afterTriple? quote (c :: rest) = none :=
  Option.eq_none_iff_forall_ne_some.2 fun _ hrest =>
    h (List.head_eq_of_cons_eq (eq_of_afterTriple?_eq_some hrest))

/-- If only two quotes stand at the front of a text, then the text has nothing but these quotes, or
it does not begin with three, whatever follows it. -/
theorem replicate_or_afterTriple?_eq_none (h : (frontQuotes quote s).length ≤ 2) :
    (∃ n ≤ 2, s = List.replicate n quote) ∨ ∀ rest, afterTriple? quote (s ++ rest) = none := by
  by_cases hquotes : ∃ n ≤ 2, s = List.replicate n quote
  · exact Or.inl hquotes
  · refine Or.inr fun rest => Option.eq_none_iff_forall_ne_some.2 fun rest' hrest' => ?_
    have heq : s ++ rest = quote :: quote :: quote :: rest' := eq_of_afterTriple?_eq_some hrest'
    match s with
    | [] => exact hquotes ⟨0, by omega, rfl⟩
    | [a] =>
      cases heq
      exact hquotes ⟨1, by omega, rfl⟩
    | [a, b] =>
      cases heq
      exact hquotes ⟨2, by omega, rfl⟩
    | a :: b :: c :: s =>
      cases heq
      simp only [frontQuotes_cons_self, List.length_cons] at h
      omega

/-- Behind three quotes stand those that end the text. -/
theorem closeTriple_replicate (hrest : rest.head? ≠ some quote) {n : ℕ} (hn : n ≤ 2) :
    closeTriple quote (List.replicate n quote ++ rest) = (List.replicate n quote, rest) := by
  have hhead {d : Char} {s : List Char} (hrest : (d :: s).head? ≠ some quote) : d ≠ quote :=
    fun heq => hrest (congrArg some heq)
  obtain rfl | rfl | rfl : n = 0 ∨ n = 1 ∨ n = 2 := by omega
  · match rest with
    | [] => rfl
    | [d] => simp [closeTriple, hhead hrest]
    | d :: e :: rest => simp [closeTriple, hhead hrest]
  · match rest with
    | [] => simp [closeTriple]
    | d :: rest => simp [closeTriple, hhead hrest]
  · simp [closeTriple, List.replicate_succ]

theorem afterTriple?_replicate (quote : Char) (n : ℕ) (rest : List Char) :
    afterTriple? quote (List.replicate n quote ++ quote :: quote :: quote :: rest)
      = some (List.replicate n quote ++ rest) := by
  have hcomm : List.replicate n quote ++ quote :: quote :: quote :: rest
      = quote :: quote :: quote :: (List.replicate n quote ++ rest) := by
    calc List.replicate n quote ++ quote :: quote :: quote :: rest
        = List.replicate n quote ++ (List.replicate 3 quote ++ rest) := rfl
      _ = List.replicate 3 quote ++ (List.replicate n quote ++ rest) := by
        rw [← List.append_assoc, ← List.append_assoc, List.replicate_append_replicate,
          List.replicate_append_replicate, Nat.add_comm]
  rw [hcomm, afterTriple?, if_pos ⟨rfl, rfl, rfl⟩]

/-! ## Strings on several lines -/

/-- Up to two quotes may stand directly before the closing ones. -/
theorem readMultiBasic_replicate {n : ℕ} (hn : n ≤ 2) (hrest : rest.head? ≠ some '"') :
    readMultiBasic (List.replicate n '"' ++ '"' :: '"' :: '"' :: rest)
      = some (List.replicate n '"', rest) := by
  rw [readMultiBasic.eq_def, afterTriple?_replicate]
  exact congrArg some (closeTriple_replicate hrest hn)

theorem readMultiLiteral_replicate {n : ℕ} (hn : n ≤ 2) (hrest : rest.head? ≠ some '\'') :
    readMultiLiteral (List.replicate n '\'' ++ '\'' :: '\'' :: '\'' :: rest)
      = some (List.replicate n '\'', rest) := by
  rw [readMultiLiteral.eq_def, afterTriple?_replicate]
  exact congrArg some (closeTriple_replicate hrest hn)

theorem readMultiBasic_escape (h : Escapes escape c) (rest : List Char) :
    readMultiBasic ('\\' :: (escape ++ rest)) = (readMultiBasic rest).map (consText c) := by
  rw [readMultiBasic.eq_def, afterTriple?_cons (by decide)]
  dsimp only
  rw [if_pos rfl]
  split
  · next hcontinued => cases hcontinued.symm.trans (h rest).2
  · split
    · next hread =>
      cases hread.symm.trans (h rest).1
      rfl
    · next hread => cases hread.symm.trans (h rest).1

theorem readMultiBasic_char (htriple : afterTriple? '"' (c :: rest) = none) (hbackslash : c ≠ '\\')
    (h : c = '\n' ∨ isTextChar c) :
    readMultiBasic (c :: rest) = (readMultiBasic rest).map (consText c) := by
  rw [readMultiBasic.eq_def, htriple]
  dsimp only
  rw [if_neg hbackslash, if_neg (ne_return_of_plain h), if_pos h]

theorem readMultiLiteral_char (htriple : afterTriple? '\'' (c :: rest) = none)
    (h : c = '\n' ∨ isTextChar c) :
    readMultiLiteral (c :: rest) = (readMultiLiteral rest).map (consText c) := by
  rw [readMultiLiteral.eq_def, htriple]
  dsimp only
  split
  · next heq => cases heq
  · next heq =>
    cases heq
    exact absurd rfl (ne_return_of_plain h)
  · next heq =>
    cases heq
    rw [if_pos h]

/-- Escapes keep more than two quotes from standing in front. -/
theorem length_frontQuotes_escapeMulti {seen : ℕ} (h : seen ≤ 2) (s : List Char) :
    (frontQuotes '"' (escapeMulti seen s)).length + seen ≤ 2 := by
  induction s generalizing seen with
  | nil => exact (Nat.zero_add seen).symm ▸ h
  | cons c s ih =>
    rw [escapeMulti]
    split
    · split
      · rw [frontQuotes_cons_of_ne (by decide), List.length_nil]
        omega
      · next hseen =>
        have hrest : (frontQuotes '"' (escapeMulti (seen + 1) s)).length + (seen + 1) ≤ 2 :=
          ih (by omega)
        rw [frontQuotes_cons_self, List.length_cons]
        omega
    · next hquote =>
      obtain ⟨escape, hwritten, -⟩ | ⟨hwritten, -⟩ := escapeChar_cases c
      · rw [hwritten, List.cons_append, frontQuotes_cons_of_ne (by decide), List.length_nil]
        omega
      · rw [hwritten, List.singleton_append, frontQuotes_cons_of_ne hquote, List.length_nil]
        omega

/-- What comes out as nothing but quotes has no escapes. -/
theorem escapeMulti_eq_self {seen : ℕ} (h : ∀ d ∈ escapeMulti seen s, d = '"') :
    escapeMulti seen s = s := by
  induction s generalizing seen with
  | nil => rfl
  | cons c s ih =>
    rw [escapeMulti] at h ⊢
    split at h
    · next hquote =>
      rw [if_pos hquote]
      split at h
      · exact absurd (h _ List.mem_cons_self) (by decide)
      · next hseen =>
        rw [if_neg hseen, ih fun d hd => h d (List.mem_cons_of_mem _ hd), hquote]
    · next hquote =>
      obtain ⟨escape, hwritten, -⟩ | ⟨hwritten, -⟩ := escapeChar_cases c
      · rw [hwritten] at h
        exact absurd (h _ List.mem_cons_self) (by decide)
      · rw [hwritten] at h
        exact absurd (h _ List.mem_cons_self) hquote

/-- Every text can stand between triple double quotes. -/
theorem readMultiBasic_escapeMulti {seen : ℕ} (h : seen ≤ 2) (s : List Char)
    (hrest : rest.head? ≠ some '"') :
    readMultiBasic (escapeMulti seen s ++ '"' :: '"' :: '"' :: rest) = some (s, rest) := by
  induction s generalizing seen with
  | nil => exact readMultiBasic_replicate (Nat.zero_le 2) hrest
  | cons c s ih =>
    have hfront : (frontQuotes '"' (escapeMulti seen (c :: s))).length ≤ 2 := by
      have hle := length_frontQuotes_escapeMulti h (c :: s)
      omega
    -- quotes that end the text are read together with the closing ones, all others one by one
    obtain ⟨n, hn, hquotes⟩ | hnone := replicate_or_afterTriple?_eq_none hfront
    · have hself : escapeMulti seen (c :: s) = c :: s :=
        escapeMulti_eq_self fun d hd => List.eq_of_mem_replicate (hquotes ▸ hd)
      rw [hquotes, hself.symm.trans hquotes]
      exact readMultiBasic_replicate hn hrest
    · have htriple := hnone ('"' :: '"' :: '"' :: rest)
      rw [escapeMulti] at htriple ⊢
      split at htriple
      · next hquote =>
        rw [if_pos hquote]
        split at htriple
        · next hseen =>
          rw [if_pos hseen, hquote]
          exact (readMultiBasic_escape escapes_quote _).trans (congrArg _ (ih (Nat.zero_le 2)))
        · next hseen =>
          rw [if_neg hseen, hquote]
          exact (readMultiBasic_char htriple (by decide) (Or.inr rfl)).trans
            (congrArg _ (ih (by omega)))
      · next hquote =>
        rw [if_neg hquote]
        obtain ⟨escape, hwritten, hescape⟩ | ⟨hwritten, hbackslash, hplain⟩ := escapeChar_cases c
        · rw [hwritten, List.append_assoc, List.cons_append, readMultiBasic_escape hescape,
            ih (Nat.zero_le 2)]
          rfl
        · rw [hwritten] at htriple ⊢
          exact (readMultiBasic_char htriple hbackslash hplain).trans
            (congrArg _ (ih (Nat.zero_le 2)))

/-- A text can stand between triple single quotes if it has not three of them in a row and does not
need escapes. -/
theorem readMultiLiteral_append (hplain : ∀ c ∈ s, c = '\n' ∨ isTextChar c)
    (h : hasRun '\'' 3 0 s = false) (hrest : rest.head? ≠ some '\'') :
    readMultiLiteral (s ++ '\'' :: '\'' :: '\'' :: rest) = some (s, rest) := by
  induction s with
  | nil => exact readMultiLiteral_replicate (Nat.zero_le 2) hrest
  | cons c s ih =>
    obtain ⟨n, hn, hs⟩ | hnone :=
      replicate_or_afterTriple?_eq_none (Nat.le_of_lt_succ (length_frontQuotes_lt h))
    · rw [hs]
      exact readMultiLiteral_replicate hn hrest
    · obtain ⟨hc, hs⟩ := List.forall_mem_cons.1 hplain
      have htail : hasRun '\'' 3 0 s = false := by
        rw [hasRun, Bool.or_eq_false_iff] at h
        exact hasRun_mono (Nat.zero_le _) h.2
      exact (readMultiLiteral_char (hnone _) hc).trans (congrArg _ (ih hs htail))

/-! ## The notation that is chosen -/

/-- What may follow a string: a quote would belong to it, or to its closing quotes. -/
def Delimits (rest : List Char) : Prop :=
  rest.head? ≠ some '"' ∧ rest.head? ≠ some '\''

theorem readString_eq_readBasic (h : ∀ more, s ≠ '"' :: '"' :: more) :
    readString ('"' :: s) = (readBasic s).map fun (text, rest) => (String.ofList text, rest) := by
  rw [readString]
  exact h

theorem readString_eq_readLiteral (h : ∀ more, s ≠ '\'' :: '\'' :: more) :
    readString ('\'' :: s)
      = (readLiteral s).map fun (text, rest) => (String.ofList text, rest) := by
  rw [readString]
  exact h

theorem readString_basic (hnewline : '\n' ∉ s) (hrest : Delimits rest) :
    readString ('"' :: escapeBasic s ++ ['"'] ++ rest) = some (String.ofList s, rest) := by
  -- it does not look like the opening of a text of several lines
  have hquotes : ∀ more, escapeBasic s ++ '"' :: rest ≠ '"' :: '"' :: more := by
    intro more heq
    cases s with
    | nil =>
      cases heq
      exact hrest.1 rfl
    | cons c s =>
      rw [escapeBasic, List.flatMap_cons] at heq
      split at heq
      · exact absurd (List.head_eq_of_cons_eq heq) (by decide)
      · next hquote =>
        obtain ⟨escape, hwritten, -⟩ | ⟨hwritten, -⟩ := escapeChar_cases c
        · rw [hwritten] at heq
          exact absurd (List.head_eq_of_cons_eq heq) (by decide)
        · rw [hwritten] at heq
          exact hquote (List.head_eq_of_cons_eq heq)
  have hread := readBasic_escapeBasic hnewline rest
  rw [List.append_assoc, List.cons_append, List.singleton_append, readString_eq_readBasic hquotes,
    hread]
  rfl

theorem readString_literal (htext : ∀ c ∈ s, isTextChar c) (hquote : '\'' ∉ s) (hs : s ≠ []) :
    readString ('\'' :: s ++ ['\''] ++ rest) = some (String.ofList s, rest) := by
  have hquotes : ∀ more, s ++ '\'' :: rest ≠ '\'' :: '\'' :: more := by
    intro more heq
    obtain ⟨c, s', rfl⟩ := List.exists_cons_of_ne_nil hs
    rw [List.head_eq_of_cons_eq heq] at hquote
    exact hquote List.mem_cons_self
  rw [List.append_assoc, List.cons_append, List.singleton_append, readString_eq_readLiteral hquotes,
    readLiteral_append htext hquote]
  rfl

theorem dropNewline_cons (h : c ≠ '\n') (h' : c ≠ '\r') (s : List Char) :
    dropNewline (c :: s) = c :: s := by
  unfold dropNewline
  split
  · next heq => exact absurd (List.head_eq_of_cons_eq heq) h
  · next heq => exact absurd (List.head_eq_of_cons_eq heq) h'
  · rfl

/-- The newline that the text of several lines starts with. -/
def startLine (s : List Char) : List Char :=
  if s.contains '\n' then ['\n'] else []

/-- Only this newline is dropped. -/
theorem dropNewline_startLine (s : List Char) {written : List Char}
    (h : '\n' ∉ s → dropNewline written = written) :
    dropNewline (startLine s ++ written) = written := by
  rw [startLine]
  split
  · rfl
  · next hs => exact h (by simpa using hs)

/-- A string between triple quotes is read as the text that was escaped. -/
theorem readString_multiBasic (s : List Char) (hrest : Delimits rest) :
    readString (['"', '"', '"'] ++ startLine s ++ escapeMulti 0 s ++ ['"', '"', '"'] ++ rest)
      = some (String.ofList s, rest) := by
  have hdrop : dropNewline (startLine s ++ (escapeMulti 0 s ++ '"' :: '"' :: '"' :: rest))
      = escapeMulti 0 s ++ '"' :: '"' :: '"' :: rest := by
    refine dropNewline_startLine s fun hs => ?_
    cases s with
    | nil => rfl
    | cons c s =>
      rw [escapeMulti]
      split
      · rfl
      · obtain ⟨escape, hwritten, -⟩ | ⟨hwritten, -, hplain⟩ := escapeChar_cases c
        · rw [hwritten]
          rfl
        · rw [hwritten]
          exact dropNewline_cons (fun hc => hs (hc ▸ List.mem_cons_self))
            (ne_return_of_plain hplain) _
  have hread := readMultiBasic_escapeMulti (Nat.zero_le 2) s hrest.1
  simp only [List.append_assoc, List.cons_append, List.nil_append]
  show (readMultiBasic (dropNewline
    (startLine s ++ (escapeMulti 0 s ++ '"' :: '"' :: '"' :: rest)))).map _ = _
  rw [hdrop, hread]
  rfl

/-- A raw string between triple quotes is read as it stands, unless quotes in it end it. -/
theorem readString_multiLiteral (hplain : ∀ c ∈ s, c = '\n' ∨ isTextChar c)
    (h : hasRun '\'' 3 0 s = false) (hrest : Delimits rest) :
    readString (['\'', '\'', '\''] ++ startLine s ++ s ++ ['\'', '\'', '\''] ++ rest)
      = some (String.ofList s, rest) := by
  have hdrop : dropNewline (startLine s ++ (s ++ '\'' :: '\'' :: '\'' :: rest))
      = s ++ '\'' :: '\'' :: '\'' :: rest := by
    refine dropNewline_startLine s fun hs => ?_
    cases s with
    | nil => rfl
    | cons c s =>
      have hc := ne_return_of_plain (hplain c List.mem_cons_self)
      exact dropNewline_cons (fun heq => hs (heq ▸ List.mem_cons_self)) hc _
  have hread := readMultiLiteral_append hplain h hrest.2
  simp only [List.append_assoc, List.cons_append, List.nil_append]
  show (readMultiLiteral (dropNewline
    (startLine s ++ (s ++ '\'' :: '\'' :: '\'' :: rest)))).map _ = _
  rw [hdrop, hread]
  rfl

/-- A text is read back from the notation that is chosen for it. -/
theorem readString_writeString (text : String) (hrest : Delimits rest) :
    readString (writeString text ++ rest) = some (text, rest) := by
  have hplain {s : List Char} (h : s.any isControl = false) : ∀ c ∈ s, c = '\n' ∨ isTextChar c :=
    fun c hc => isTextChar_of_not_isControl (Bool.eq_false_iff.2 (List.any_eq_false.1 h c hc))
  rw [← String.ofList_toList (s := text)]
  generalize text.toList = s
  have hstart : (if s.contains '\n' then ['\n'] else []) = startLine s := rfl
  rw [writeString, String.toList_ofList]
  simp only [hstart]
  simp only [Bool.and_eq_true, Bool.not_eq_true', List.contains_eq_mem, decide_eq_false_iff_not]
  split
  · next h => exact readString_basic h.2 hrest
  · next hfirst =>
    split
    · next h =>
      -- a literal string is not empty: the plainer notation could hold it
      refine readString_literal (fun c hc => ?_) h.1.2 ?_
      · exact (hplain h.1.1 c hc).resolve_left fun heq => h.2 (heq ▸ hc)
      · rintro rfl
        exact hfirst ⟨⟨⟨rfl, List.not_mem_nil⟩, List.not_mem_nil⟩, List.not_mem_nil⟩
    · split
      · exact readString_multiBasic s hrest
      · split
        · next h => exact readString_multiLiteral (hplain h.1) h.2 hrest
        · split
          · exact readString_multiBasic s hrest
          · next h => exact readString_basic (by simpa using h) hrest

end Weave.Toml
