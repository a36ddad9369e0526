import Weave.Text.Blank

/-!
# Cross references

Documenter resolves references such as `[text](@ref)`, `[text](@ref target)` and `[text](@id name)`.
A notebook shows only their text: `CrossReference.strip` replaces every reference by the text in its
brackets, from left to right, and leaves everything else as it is.
-/

namespace Weave.CrossReference

/-- What follows the end of a reference, read behind the word after the at sign. A blank sets off
what is referred to, which ends at the first closing parenthesis. -/
def afterTarget? : List Char → Option (List Char)
  | ')' :: rest => some rest
  | c :: rest =>
    if Text.isBlank c then
      match rest.dropWhile (· != ')') with
      | _ :: rest => some rest
      | [] => none
    else none
  | [] => none

/-- The text of a reference and what follows it, read behind the opening bracket: one match of

    \[([^\]]*)\]\(@(?:ref|id)(?:\s[^)]*)?\)

without its first character. Each repetition is as long as it can be and ends at the one character
that it excludes, which has to come next in the pattern, so that no shorter one could match either:
`$1` ends at the first closing bracket, and what is referred to at the first closing parenthesis,
newlines or not. There is no anchor, and the two words are told apart by their first letter. -/
def read? (s : List Char) : Option (List Char × List Char) :=
  match s.dropWhile (· != ']') with
  | ']' :: '(' :: '@' :: 'r' :: 'e' :: 'f' :: rest =>
    (afterTarget? rest).map (s.takeWhile (· != ']'), ·)
  | ']' :: '(' :: '@' :: 'i' :: 'd' :: rest =>
    (afterTarget? rest).map (s.takeWhile (· != ']'), ·)
  | _ => none

theorem length_lt_of_afterTarget? {s rest : List Char} (h : afterTarget? s = some rest) :
    rest.length < s.length := by
  unfold afterTarget? at h
  split at h
  · cases h
    simp
  · rename_i c tail _
    split at h
    · have hle := (List.dropWhile_suffix (l := tail) (· != ')')).length_le
      split at h
      · rename_i head after hd
        cases h
        rw [hd] at hle
        simp at hle ⊢
        omega
      · simp at h
    · simp at h
  · simp at h

theorem length_lt_of_read? {s text rest : List Char} (h : read? s = some (text, rest)) :
    rest.length < s.length := by
  have hle := (List.dropWhile_suffix (l := s) (· != ']')).length_le
  have shorter {after : List Char}
      (h : (afterTarget? after).map (s.takeWhile (· != ']'), ·) = some (text, rest)) :
      rest.length < after.length := by
    obtain ⟨rest', hr, heq⟩ := Option.map_eq_some_iff.1 h
    cases heq
    exact length_lt_of_afterTarget? hr
  unfold read? at h
  split at h
  · rename_i after hd
    have := shorter h
    rw [hd] at hle
    simp at hle
    omega
  · rename_i after hd
    have := shorter h
    rw [hd] at hle
    simp at hle
    omega
  · simp at h

/-- Replaces every reference by its text. The search takes the leftmost match since it goes on by one
character only where no reference starts, and it goes on behind a match, whose text is not searched
again. -/
def stripChars : List Char → List Char
  | [] => []
  | c :: s =>
    if c = '[' then
      match _h : read? s with
      | some (text, rest) => text ++ stripChars rest
      | none => c :: stripChars s
    else c :: stripChars s
termination_by s => s.length
decreasing_by
  · have := length_lt_of_read? _h
    simp
    omega
  · simp
  · simp

@[inherit_doc stripChars]
def strip (s : String) : String :=
  String.ofList (stripChars s.toList)

end Weave.CrossReference
