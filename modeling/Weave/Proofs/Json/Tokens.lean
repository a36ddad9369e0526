import Mathlib.Algebra.Group.Int.Defs
import Mathlib.Data.List.Basic
import Weave.Json.Tree
import Weave.Json.Writer

/-!
# Strings and numerals in JSON text

A string is read back from its text whatever it holds, as every character that must not stand in a
string is written as an escape that spells it (`readString_escaped`). An integer is read back as a
numeral with its digits (`readNumeral_writeInt`), as long as nothing follows that could belong to a
numeral (`Ends`); its value is the integer if that has 64 bits (`value?_numeral`).
-/

namespace Weave.Json

/-! ## Strings -/

/-- The letters of the escapes that have one, with the characters that they spell. -/
def letterEscapes : List (Char × Char) :=
  [('"', '"'), ('\\', '\\'), ('b', '\x08'), ('f', '\x0c'), ('n', '\n'), ('r', '\r'), ('t', '\t')]

/-- A character is written as an escape with a letter, as one with a number or as itself. -/
theorem escapeChar_cases (c : Char) :
    (∃ e, (e, c) ∈ letterEscapes ∧ escapeChar c = ['\\', e]) ∨
      (c.toNat < 0x20 ∧
        escapeChar c = '\\' :: 'u' :: Text.padZeros 4 (Text.hexDigits c.toNat)) ∨
      (c ≠ '"' ∧ c ≠ '\\' ∧ ¬ c.toNat < 0x20 ∧ escapeChar c = [c]) := by
  unfold escapeChar
  split
  case h_8 hquote hbackslash _ _ _ _ _ =>
    split
    · next hcontrol => exact Or.inr (Or.inl ⟨hcontrol, rfl⟩)
    · next hcontrol => exact Or.inr (Or.inr ⟨hquote, hbackslash, hcontrol, rfl⟩)
  all_goals exact Or.inl ⟨_, by simp [letterEscapes], rfl⟩

/-- A backslash and a letter spell one character. -/
theorem readParts_letter {e c : Char} (h : (e, c) ∈ letterEscapes) (rest : List Char) :
    readParts ('\\' :: e :: rest) = (readParts rest).map fun p => (.char c :: p.1, p.2) := by
  simp only [letterEscapes, List.mem_cons, List.not_mem_nil, or_false, Prod.mk.injEq] at h
  rcases h with h | h | h | h | h | h | h
  all_goals
    obtain ⟨rfl, rfl⟩ := h
    rw [readParts]
    cases readParts rest <;> rfl

/-- A backslash, a `u` and four digits spell one code. -/
theorem readParts_code {a b c d : Char} {n : ℕ} (h : Text.ofHex? [a, b, c, d] = some n)
    (rest : List Char) :
    readParts ('\\' :: 'u' :: a :: b :: c :: d :: rest)
      = (readParts rest).map fun p => (.code n :: p.1, p.2) := by
  rw [readParts, h]
  cases readParts rest <;> rfl

/-- Any other character spells itself, unless it is a control character. -/
theorem readParts_char {c : Char} (hquote : c ≠ '"') (hbackslash : c ≠ '\\')
    (hcontrol : ¬ c.toNat < 0x20) (rest : List Char) :
    readParts (c :: rest) = (readParts rest).map fun p => (.char c :: p.1, p.2) := by
  rw [readParts]
  · rw [if_neg fun h => h.elim hbackslash hcontrol]
    cases readParts rest <;> rfl
  · exact hquote
  · intro _ _ _ _ _ h
    exact absurd h hbackslash
  · intro _ _ h
    exact absurd h hbackslash

/-- The number of a control has four digits. -/
theorem ofHex?_control : ∀ n < 0x20,
    (Text.padZeros 4 (Text.hexDigits n)).length = 4 ∧
      Text.ofHex? (Text.padZeros 4 (Text.hexDigits n)) = some n := by
  decide

/-- A code that is no half of a surrogate pair makes a character of its own. -/
theorem textOfParts?_code {n : ℕ} (h : n < 0xd800 ∨ 0xe000 ≤ n) (parts : List StringPart) :
    textOfParts? (.code n :: parts) = (textOfParts? parts).map (Char.ofNat n :: ·) := by
  rw [textOfParts?.eq_def]
  dsimp only
  rw [if_pos h]

/-- What is written for a character is one part of a string, and makes this character again. -/
theorem readParts_escapeChar (c : Char) (rest : List Char) :
    ∃ part : StringPart,
      readParts (escapeChar c ++ rest) = (readParts rest).map (fun p => (part :: p.1, p.2)) ∧
        ∀ parts, textOfParts? (part :: parts) = (textOfParts? parts).map (c :: ·) := by
  obtain ⟨e, he, hc⟩ | ⟨hcontrol, hc⟩ | ⟨hquote, hbackslash, hcontrol, hc⟩ := escapeChar_cases c
  · refine ⟨.char c, ?_, fun _ => rfl⟩
    rw [hc]
    exact readParts_letter he rest
  · refine ⟨.code c.toNat, ?_, fun parts => ?_⟩
    · obtain ⟨hlength, hhex⟩ := ofHex?_control c.toNat hcontrol
      obtain ⟨a, b, d, e, hdigits⟩ := List.length_eq_four.1 hlength
      rw [hdigits] at hc hhex
      rw [hc]
      exact readParts_code hhex rest
    · have hsmall : c.toNat < 0xd800 ∨ 0xe000 ≤ c.toNat := by omega
      rw [textOfParts?_code hsmall, Char.ofNat_toNat]
  · refine ⟨.char c, ?_, fun _ => rfl⟩
    rw [hc]
    exact readParts_char hquote hbackslash hcontrol rest

/-- Escaped characters are read up to the quote behind them, and make the text that was escaped. -/
theorem readParts_escaped (s : List Char) (rest : List Char) :
    ∃ parts, readParts (s.flatMap escapeChar ++ '"' :: rest) = some (parts, rest) ∧
      textOfParts? parts = some s := by
  induction s with
  | nil => exact ⟨[], rfl, rfl⟩
  | cons c s ih =>
    obtain ⟨parts, hparts, htext⟩ := ih
    obtain ⟨part, hpart, hc⟩ := readParts_escapeChar c (s.flatMap escapeChar ++ '"' :: rest)
    refine ⟨part :: parts, ?_, ?_⟩
    · rw [List.flatMap_cons, List.append_assoc, hpart, hparts]
      rfl
    · rw [hc, htext]
      rfl

/-- A string is read as the text that it was written for. -/
theorem readString_escaped (s : String) (rest : List Char) :
    readString (s.toList.flatMap escapeChar ++ '"' :: rest) = some (some s, rest) := by
  obtain ⟨parts, hparts, htext⟩ := readParts_escaped s.toList rest
  rw [readString, hparts]
  show some ((textOfParts? parts).map String.ofList, rest) = some (some s, rest)
  rw [htext, Option.map_some, String.ofList_toList]

/-! ## Numerals -/

/-- A decimal digit as a number. -/
def digitValue (c : Char) : ℕ :=
  c.toNat - 0x30

/-- Nothing that could belong to a numeral comes first. -/
def Ends (rest : List Char) : Prop :=
  ∀ c ∈ rest.head?, c.isDigit = false ∧ c ≠ '.' ∧ c ≠ 'e' ∧ c ≠ 'E'

/-- The numeral that an integer is written as. -/
def numeral (n : Int) : Numeral :=
  ⟨n < 0, (decimalDigits n.natAbs).map digitValue, [], none⟩

variable {rest : List Char}

theorem isDigit_of_mem_decimalDigits {n : ℕ} {c : Char} (h : c ∈ decimalDigits n) : c.isDigit :=
  Nat.isDigit_of_mem_toDigits (by decide) (by decide) h

/-- The digits of a number have its value. -/
theorem ofDigits_decimalDigits (n : ℕ) : ofDigits ((decimalDigits n).map digitValue) = n := by
  have hfold : ofDigits ((decimalDigits n).map digitValue)
      = Nat.ofDigitChars 10 (decimalDigits n) 0 := by
    rw [ofDigits, List.foldl_map, Nat.ofDigitChars]
    refine congrArg (fun f => (decimalDigits n).foldl f 0) ?_
    funext m c
    rw [Nat.mul_comm m 10]
    rfl
  rw [hfold]
  exact Nat.ofDigitChars_toDigits (by decide) (by decide)

/-- Only zero begins with the digit zero. -/
theorem head?_decimalDigits {n : ℕ} (h : 0 < n) : (decimalDigits n).head? ≠ some '0' := by
  induction n using Nat.strongRecOn with
  | ind n ih =>
    rw [decimalDigits, Nat.toDigits_eq_if (by decide)]
    split
    · next hn =>
      have hdigit : ∀ m < 10, 0 < m → [Nat.digitChar m].head? ≠ some '0' := by decide
      exact hdigit n hn h
    · next hn =>
      have hpos : 0 < n / 10 := by omega
      have hne : Nat.toDigits 10 (n / 10) ≠ [] := Nat.toDigits_ne_nil
      rw [List.head?_append_of_ne_nil _ hne]
      exact ih (n / 10) (by omega) hpos

/-- Digits are taken up to the end of the numeral. -/
theorem takeDigits_append {digits : List Char} (hdigits : ∀ c ∈ digits, c.isDigit)
    (hrest : Ends rest) : takeDigits (digits ++ rest) = (digits.map digitValue, rest) := by
  have hnone : rest.takeWhile Char.isDigit = [] ∧ rest.dropWhile Char.isDigit = rest := by
    cases rest with
    | nil => exact ⟨rfl, rfl⟩
    | cons c rest =>
      have hc : ¬ c.isDigit := by
        rw [(hrest c rfl).1]
        decide
      exact ⟨List.takeWhile_cons_of_neg hc, List.dropWhile_cons_of_neg hc⟩
  rw [takeDigits, List.takeWhile_append_of_pos hdigits, List.dropWhile_append_of_pos hdigits,
    hnone.1, hnone.2, List.append_nil]
  rfl

/-- A numeral that ends here has no fraction. -/
theorem readFraction_of_ends (h : Ends rest) : readFraction rest = some ([], rest) := by
  unfold readFraction
  split
  · next more => exact absurd rfl (h '.' rfl).2.1
  · rfl

theorem readExponent_of_ends (h : Ends rest) : readExponent rest = some (none, rest) := by
  unfold readExponent
  split
  · next c more =>
    rw [if_neg fun hc => hc.elim (h c rfl).2.2.1 (h c rfl).2.2.2]
  · rfl

theorem readWhole_of_ne {s : List Char} (h : s.head? ≠ some '0') {digits : List ℕ}
    (htake : takeDigits s = (digits, rest)) (hdigits : digits ≠ []) :
    readWhole s = some (digits, rest) := by
  unfold readWhole
  split
  · exact absurd rfl h
  · rw [htake]
    cases digits with
    | nil => exact absurd rfl hdigits
    | cons digit digits => rfl

/-- A zero is taken alone, but then there is no other digit. -/
theorem readWhole_decimalDigits (n : ℕ) (h : Ends rest) :
    readWhole (decimalDigits n ++ rest) = some ((decimalDigits n).map digitValue, rest) := by
  by_cases hn : n = 0
  · rw [hn]
    rfl
  · have hne : decimalDigits n ≠ [] := Nat.toDigits_ne_nil
    have hhead : (decimalDigits n ++ rest).head? ≠ some '0' := by
      rw [List.head?_append_of_ne_nil _ hne]
      exact head?_decimalDigits (Nat.pos_of_ne_zero hn)
    have htake := takeDigits_append (fun c => isDigit_of_mem_decimalDigits (n := n)) h
    exact readWhole_of_ne hhead htake fun hnil => hne (List.map_eq_nil_iff.1 hnil)

theorem readSign_decimalDigits (n : ℕ) (rest : List Char) :
    readSign (decimalDigits n ++ rest) = (false, decimalDigits n ++ rest) := by
  unfold readSign
  split
  · next more heq =>
    have hne : decimalDigits n ≠ [] := Nat.toDigits_ne_nil
    have hhead : (decimalDigits n).head? = some '-' := by
      rw [← List.head?_append_of_ne_nil _ hne, heq]
      rfl
    have hdigit := isDigit_of_mem_decimalDigits (List.mem_of_head? hhead)
    exact absurd hdigit (by decide)
  · rfl

/-- A sign and digits make a numeral if nothing follows that belongs to it. -/
theorem readNumeral_of_whole {s : List Char} {negative : Bool} {n : ℕ}
    (hsign : readSign s = (negative, decimalDigits n ++ rest)) (h : Ends rest) :
    readNumeral s = some (⟨negative, (decimalDigits n).map digitValue, [], none⟩, rest) := by
  rw [readNumeral, hsign]
  dsimp only
  rw [readWhole_decimalDigits n h]
  show (readFraction rest).bind _ = _
  rw [readFraction_of_ends h, Option.bind_some]
  show (readExponent rest).bind _ = _
  rw [readExponent_of_ends h]
  rfl

/-- An integer is read as the numeral that it is written as. -/
theorem readNumeral_writeInt (n : Int) (h : Ends rest) :
    readNumeral (writeInt n ++ rest) = some (numeral n, rest) := by
  cases n with
  | ofNat n =>
    have hnegative : decide (Int.ofNat n < 0) = false :=
      decide_eq_false (Int.not_lt.2 (Int.natCast_nonneg n))
    rw [numeral, hnegative]
    exact readNumeral_of_whole (readSign_decimalDigits n rest) h
  | negSucc n =>
    have hsign : readSign (writeInt (.negSucc n) ++ rest)
        = (true, decimalDigits (n + 1) ++ rest) := rfl
    rw [numeral, decide_eq_true (Int.negSucc_lt_zero n)]
    exact readNumeral_of_whole hsign h

/-- The value of an integer of 64 bits, with or without sign. -/
theorem value?_numeral {n : Int} (hlow : -2 ^ 63 ≤ n) (hhigh : n < 2 ^ 64) :
    (numeral n).value? = some (.int n) := by
  have hwhole : ofDigits (numeral n).whole = n.natAbs := ofDigits_decimalDigits n.natAbs
  have hfraction : ((numeral n).fraction.isEmpty && (numeral n).exponent?.isNone) = true := rfl
  rw [Numeral.value?, if_pos hfraction, hwhole]
  by_cases hn : n < 0
  · have hnegative : (numeral n).negative = true := decide_eq_true hn
    have hfits : 0 < n.natAbs ∧ n.natAbs ≤ Nat.pow 2 63 := by
      show 0 < n.natAbs ∧ n.natAbs ≤ 2 ^ 63
      omega
    have habs : -(n.natAbs : Int) = n := by omega
    rw [if_pos hnegative, if_pos hfits, habs]
  · have hnegative : ¬ (numeral n).negative = true := by
      rw [numeral, decide_eq_true_iff]
      exact hn
    have hfits : n.natAbs < Nat.pow 2 64 := by
      show n.natAbs < 2 ^ 64
      omega
    have habs : (n.natAbs : Int) = n := by omega
    rw [if_neg hnegative, if_pos hfits, habs]

end Weave.Json
