/-!
# Replacement

What is left of a text after a beginning of it, and the replacement of all non-overlapping
occurrences of a text, found from left to right.
-/

namespace Weave.Text

/-- The rest of a text after `start`, if the text starts so. -/
def afterStart? : (start : List Char) → List Char → Option (List Char)
  | [], s => some s
  | _ :: _, [] => none
  | a :: start, c :: s => if a = c then afterStart? start s else none

theorem afterStart?_eq_some_iff {start s rest : List Char} :
    afterStart? start s = some rest ↔ s = start ++ rest := by
  induction start generalizing s with
  | nil => simp [afterStart?, eq_comm]
  | cons a start ih =>
    cases s with
    | nil => simp [afterStart?]
    | cons c s =>
      by_cases h : a = c
      · simp [afterStart?, h, ih]
      · simp [afterStart?, h, Ne.symm h]

/-- Replaces every occurrence of `a :: old` by `new`; after an occurrence the search goes on behind
it, and what was put in is not searched again. -/
def replaceChars (a : Char) (old new : List Char) : List Char → List Char
  | [] => []
  | c :: s =>
    if a = c then
      match _h : afterStart? old s with
      | some rest => new ++ replaceChars a old new rest
      | none => c :: replaceChars a old new s
    else c :: replaceChars a old new s
termination_by s => s.length
decreasing_by
  all_goals simp_wf
  rw [afterStart?_eq_some_iff.1 _h, List.length_append]
  omega

/-- Replaces every occurrence of `old` by `new`, from left to right. An empty `old` occurs
nowhere. -/
def replace (s old new : String) : String :=
  match old.toList with
  | [] => s
  | a :: rest => String.ofList (replaceChars a rest new.toList s.toList)

end Weave.Text
