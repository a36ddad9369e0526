/-!
# Trimming and blank characters

Taking elements off the ends of a list, and what is trimmed off texts: the characters with the
Unicode property `White_Space`, and the lines that hold nothing else.
-/

namespace Weave.Text

section Trim

variable {α : Type}

/-- Takes the elements at the end that satisfy `p` off a list. -/
def dropTrailing (p : α → Bool) (xs : List α) : List α :=
  (xs.reverse.dropWhile p).reverse

/-- Takes the elements that satisfy `p` off both ends of a list. -/
def trimBoth (p : α → Bool) (xs : List α) : List α :=
  dropTrailing p (xs.dropWhile p)

end Trim

/-- Whether a character has the Unicode property `White_Space`; there are 25 such characters. -/
def isBlank (c : Char) : Bool :=
  let n := c.toNat
  (0x9 ≤ n && n ≤ 0xd) || n == 0x20 || n == 0x85 || n == 0xa0 || n == 0x1680 ||
    (0x2000 ≤ n && n ≤ 0x200a) || n == 0x2028 || n == 0x2029 || n == 0x202f || n == 0x205f ||
    n == 0x3000

/-- Takes the blank characters off both ends. -/
def trim (s : String) : String :=
  String.ofList (trimBoth isBlank s.toList)

/-- Takes the blank characters off the end. -/
def trimEnd (s : String) : String :=
  String.ofList (dropTrailing isBlank s.toList)

/-- Whether a line holds blank characters only. -/
def isBlankLine (line : String) : Bool :=
  line.toList.all isBlank

/-- Takes the blank lines off both ends of a list of lines. -/
def trimBlankLines (lines : List String) : List String :=
  trimBoth isBlankLine lines

end Weave.Text
