import Weave.Text.Replace

/-!
# Math blocks

Documenter writes displayed math as a block between a line of three backticks followed by `math` and
a line of three backticks. Notebooks want an equation environment: `MathBlock.convert` replaces the
two fences of every such block, from left to right, and keeps the body.
-/

namespace Weave.MathBlock

/-- The characters of an opening fence. -/
def openingFence : List Char := "```math".toList

/-- What a block starts with in the result. -/
def beginEquation : List Char := "\\begin\x7bequation\x7d\n".toList

/-- What a block ends with in the result. -/
def endEquation : List Char := "\\end\x7bequation\x7d".toList

/-- What follows the line of an opening fence, if `s` starts with one. Spaces and tabs may stand
behind the fence. -/
def afterOpening? (s : List Char) : Option (List Char) :=
  match Text.afterStart? openingFence s with
  | some rest =>
    match rest.dropWhile fun c => c == ' ' || c == '\t' with
    | '\n' :: rest => some rest
    | _ => none
  | none => none

/-- The text up to the first line that is a closing fence and nothing else, and what follows that
fence. The flag tells whether a line starts here. -/
def splitAtClosing? : (lineStart : Bool) → List Char → Option (List Char × List Char)
  | _, [] => none
  | lineStart, c :: s =>
    match lineStart, c :: s with
    | true, ['`', '`', '`'] => some ([], [])
    | true, '`' :: '`' :: '`' :: '\n' :: rest => some ([], '\n' :: rest)
    | _, _ => (splitAtClosing? (c == '\n') s).map fun (body, rest) => (c :: body, rest)

theorem length_lt_of_afterOpening? {s rest : List Char} (h : afterOpening? s = some rest) :
    rest.length < s.length := by
  unfold afterOpening? at h
  split at h
  · rename_i tail htail
    have hle := (List.dropWhile_suffix (l := tail) fun c => c == ' ' || c == '\t').length_le
    split at h
    · rename_i after hd
      cases h
      rw [hd] at hle
      rw [Text.afterStart?_eq_some_iff.1 htail]
      simp at hle ⊢
      omega
    · simp at h
  · simp at h

theorem length_le_of_splitAtClosing? {lineStart : Bool} {s body rest : List Char}
    (h : splitAtClosing? lineStart s = some (body, rest)) : rest.length ≤ s.length := by
  induction s generalizing lineStart body with
  | nil => simp [splitAtClosing?] at h
  | cons c s ih =>
    unfold splitAtClosing? at h
    split at h
    · simp_all
    · simp_all
      obtain ⟨rfl, hrest⟩ := h
      rw [← hrest]
      simp
    · obtain ⟨⟨body', rest'⟩, hs, heq⟩ := Option.map_eq_some_iff.1 h
      simp only [Prod.mk.injEq] at heq
      obtain ⟨-, rfl⟩ := heq
      have := ih hs
      simp
      omega

/-- Replaces the fences of every math block: all matches of the pattern

    (?ms)^```math[ \t]*\n(.*?)^```$

with the equation environment around `$1`. The first `^` is the flag, which tells whether a line
starts here. The search takes the leftmost match since it goes on by one character only where no
block starts, and goes on behind a match, where no line starts. `(.*?)` takes as little as it can and
passes over newlines: `splitAtClosing?` stops at the first place where `^` and the fence and `$`
match, so that its cases are a line start, three backticks, and a newline, which stays unread, or the
end of the text. A fence without such a place behind it begins no match. -/
def convertChars (lineStart : Bool) (s : List Char) : List Char :=
  match s with
  | [] => []
  | c :: s =>
    if lineStart then
      match _h : afterOpening? (c :: s) with
      | some inner =>
        match _h' : splitAtClosing? true inner with
        | some (body, rest) => beginEquation ++ body ++ endEquation ++ convertChars false rest
        | none => c :: convertChars (c == '\n') s
      | none => c :: convertChars (c == '\n') s
    else c :: convertChars (c == '\n') s
termination_by s.length
decreasing_by
  · have h₁ := length_lt_of_afterOpening? _h
    have h₂ := length_le_of_splitAtClosing? _h'
    omega
  all_goals simp

@[inherit_doc convertChars]
def convert (s : String) : String :=
  String.ofList (convertChars true s.toList)

end Weave.MathBlock
