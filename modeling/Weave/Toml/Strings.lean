import Weave.Text.Escapes

/-!
# TOML strings

The four notations of a string: in double quotes with escapes, in single quotes without, and each of
the two in triple quotes, where lines may end. Every reader starts behind the opening quotes and
returns the text together with what follows the closing ones.
-/

namespace Weave.Toml

/-- The characters that may stand for themselves in strings and comments. -/
def isTextChar (c : Char) : Bool :=
  c == '\t' || (0x20 ≤ c.toNat && c.toNat != 0x7f)

/-- The character with this code, in hexadecimal digits, unless it is half of a surrogate pair or
beyond the last one. -/
def charOfHex? (digits : List Char) : Option Char := do
  let n ← Text.ofHex? digits
  if n.isValidChar then some (Char.ofNat n) else none

/-- The character that one letter behind a backslash stands for. -/
def letterEscape? : Char → Option Char
  | 'b' => some '\x08'
  | 't' => some '\t'
  | 'n' => some '\n'
  | 'f' => some '\x0c'
  | 'r' => some '\r'
  | '"' => some '"'
  | '\\' => some '\\'
  | _ => none

/-- The character that an escape stands for, read behind its backslash. -/
def readEscape? : List Char → Option (Char × List Char)
  | 'u' :: a :: b :: c :: d :: rest => (charOfHex? [a, b, c, d]).map (·, rest)
  | 'U' :: a :: b :: c :: d :: e :: f :: g :: h :: rest =>
    (charOfHex? [a, b, c, d, e, f, g, h]).map (·, rest)
  | c :: rest => (letterEscape? c).map (·, rest)
  | [] => none

theorem length_lt_of_readEscape? {s rest : List Char} {c : Char}
    (h : readEscape? s = some (c, rest)) : rest.length < s.length := by
  unfold readEscape? at h
  split at h <;> simp only [Option.map_eq_some_iff, Prod.mk.injEq, reduceCtorEq] at h
  all_goals
    obtain ⟨_, _, _, rfl⟩ := h
    simp +arith

/-- Puts a character before the text that has been read. -/
def consText (c : Char) (read : List Char × List Char) : List Char × List Char :=
  (c :: read.1, read.2)

/-- A string in double quotes. -/
def readBasic : List Char → Option (List Char × List Char)
  | [] => none
  | c :: s =>
    if c = '"' then some ([], s)
    else if c = '\\' then
      match _h : readEscape? s with
      | some (c, rest) => (readBasic rest).map (consText c)
      | none => none
    else if isTextChar c then (readBasic s).map (consText c)
    else none
termination_by s => s.length
decreasing_by
  · have := length_lt_of_readEscape? _h
    simp
    omega
  · simp

/-- A string in single quotes. -/
def readLiteral : List Char → Option (List Char × List Char)
  | [] => none
  | c :: s =>
    if c = '\'' then some ([], s)
    else if isTextChar c then (readLiteral s).map (consText c)
    else none

/-- The text without the newline at its front, if there is one. -/
def dropNewline : List Char → List Char
  | '\n' :: s => s
  | '\r' :: '\n' :: s => s
  | s => s

/-- The text without the blanks and newlines at its front. -/
def dropFill : List Char → List Char
  | ' ' :: s => dropFill s
  | '\t' :: s => dropFill s
  | '\n' :: s => dropFill s
  | '\r' :: '\n' :: s => dropFill s
  | s => s

theorem length_dropFill_le (s : List Char) : (dropFill s).length ≤ s.length := by
  fun_induction dropFill s <;> simp <;> omega

/-- What goes on behind a backslash at the end of a line: blanks and newlines do not count. -/
def afterContinuation? (s : List Char) : Option (List Char) :=
  match s.dropWhile fun c => c == ' ' || c == '\t' with
  | '\n' :: rest => some (dropFill rest)
  | '\r' :: '\n' :: rest => some (dropFill rest)
  | _ => none

theorem length_lt_of_afterContinuation? {s rest : List Char}
    (h : afterContinuation? s = some rest) : rest.length < s.length := by
  have hle := (List.dropWhile_suffix (l := s) fun c => c == ' ' || c == '\t').length_le
  unfold afterContinuation? at h
  split at h
  · rename_i tail hd
    cases h
    have := length_dropFill_le tail
    rw [hd] at hle
    simp at hle
    omega
  · rename_i tail hd
    cases h
    have := length_dropFill_le tail
    rw [hd] at hle
    simp at hle
    omega
  · simp at h

/-- The end of a string in triple quotes, read behind three of them: up to two more quotes belong to
the text. -/
def closeTriple (quote : Char) : List Char → List Char × List Char
  | [] => ([], [])
  | [c] => if c = quote then ([quote], []) else ([], [c])
  | c :: d :: rest =>
    if c = quote then
      if d = quote then ([quote, quote], rest) else ([quote], d :: rest)
    else ([], c :: d :: rest)

/-- What follows three quotes. -/
def afterTriple? (quote : Char) : List Char → Option (List Char)
  | a :: b :: c :: rest => if a = quote ∧ b = quote ∧ c = quote then some rest else none
  | _ => none

/-- A string in triple double quotes, behind the newline that may follow them. -/
def readMultiBasic (s : List Char) : Option (List Char × List Char) :=
  match afterTriple? '"' s with
  | some rest => some (closeTriple '"' rest)
  | none =>
    match s with
    | [] => none
    | c :: s =>
      if c = '\\' then
        match _h : afterContinuation? s with
        | some rest => readMultiBasic rest
        | none =>
          match _h' : readEscape? s with
          | some (c, rest) => (readMultiBasic rest).map (consText c)
          | none => none
      else if c = '\r' then
        match _h : s with
        | '\n' :: rest => (readMultiBasic rest).map (consText '\n')
        | _ => none
      else if c = '\n' ∨ isTextChar c then (readMultiBasic s).map (consText c)
      else none
termination_by s.length
decreasing_by
  · have := length_lt_of_afterContinuation? _h
    simp
    omega
  · have := length_lt_of_readEscape? _h'
    simp
    omega
  · simp only [List.length_cons]
    omega
  · simp

/-- A string in triple single quotes, behind the newline that may follow them. -/
def readMultiLiteral (s : List Char) : Option (List Char × List Char) :=
  match afterTriple? '\'' s with
  | some rest => some (closeTriple '\'' rest)
  | none =>
    match s with
    | [] => none
    | '\r' :: '\n' :: rest => (readMultiLiteral rest).map (consText '\n')
    | c :: s =>
      if c = '\n' ∨ isTextChar c then (readMultiLiteral s).map (consText c) else none

/-- A string in any of the four notations, and what follows it. -/
def readString (s : List Char) : Option (String × List Char) :=
  let read := match s with
    | '"' :: '"' :: '"' :: rest => readMultiBasic (dropNewline rest)
    | '"' :: rest => readBasic rest
    | '\'' :: '\'' :: '\'' :: rest => readMultiLiteral (dropNewline rest)
    | '\'' :: rest => readLiteral rest
    | _ => none
  read.map fun (text, rest) => (String.ofList text, rest)

end Weave.Toml
