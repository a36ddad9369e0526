import Weave.Json.Number
import Weave.Text.Escapes

/-!
# JSON text as a tree

The first step of reading: the tree that a text spells, with fields in the order of the text,
repeated keys included. Numerals are not yet evaluated, and a string that escapes half of a
surrogate pair is known to be no text, so that parts of a document which nobody looks at can be
anything that has the right form.
-/

namespace Weave.Json

/-- What a JSON text spells. -/
inductive Tree where
  | null
  | bool (value : Bool)
  | number (numeral : Numeral)
  /-- A string, if it is text. -/
  | string (value? : Option String)
  | array (items : List Tree)
  | object (fields : List (Option String × Tree))
  deriving Inhabited

/-- One element of a string: a character that stands for itself, or a code of 16 bits. -/
inductive StringPart where
  | char (c : Char)
  | code (n : Nat)

/-- The text that the parts of a string make. Two codes make one character if they are the halves
of a surrogate pair; a half on its own makes none. -/
def textOfParts? : List StringPart → Option (List Char)
  | [] => some []
  | .char c :: rest => (textOfParts? rest).map (c :: ·)
  | .code n :: rest =>
    if n < 0xd800 ∨ 0xe000 ≤ n then (textOfParts? rest).map (Char.ofNat n :: ·)
    else if n < 0xdc00 then
      match rest with
      | .code low :: rest =>
        if 0xdc00 ≤ low ∧ low < 0xe000 then
          (textOfParts? rest).map
            (Char.ofNat (0x10000 + (n - 0xd800) * 0x400 + (low - 0xdc00)) :: ·)
        else none
      | _ => none
    else none

/-- The parts of a string up to its closing quote, and what follows the quote. -/
def readParts : List Char → Option (List StringPart × List Char)
  | '"' :: rest => some ([], rest)
  | '\\' :: 'u' :: a :: b :: c :: d :: rest => do
    let code ← Text.ofHex? [a, b, c, d]
    let (parts, rest) ← readParts rest
    return (.code code :: parts, rest)
  | '\\' :: c :: rest => do
    let c ← match c with
      | '"' => some '"'
      | '\\' => some '\\'
      | '/' => some '/'
      | 'b' => some '\x08'
      | 'f' => some '\x0c'
      | 'n' => some '\n'
      | 'r' => some '\r'
      | 't' => some '\t'
      | _ => none
    let (parts, rest) ← readParts rest
    return (.char c :: parts, rest)
  | c :: rest =>
    if c = '\\' ∨ c.toNat < 0x20 then none
    else do
      let (parts, rest) ← readParts rest
      return (.char c :: parts, rest)
  | [] => none

/-- A string behind its opening quote. -/
def readString (s : List Char) : Option (Option String × List Char) := do
  let (parts, rest) ← readParts s
  return ((textOfParts? parts).map String.ofList, rest)

/-- The digits at the front. -/
def takeDigits (s : List Char) : List Nat × List Char :=
  ((s.takeWhile Char.isDigit).map (·.toNat - 0x30), s.dropWhile Char.isDigit)

/-- The exponent at the front of `s`, if there is one; none if an exponent begins and has no
digits. -/
def readExponent (s : List Char) : Option (Option Int × List Char) :=
  match s with
  | c :: rest =>
    if c = 'e' ∨ c = 'E' then
      let (negative, rest) := match rest with
        | '-' :: rest => (true, rest)
        | '+' :: rest => (false, rest)
        | rest => (false, rest)
      match takeDigits rest with
      | ([], _) => none
      | (digits, rest) =>
        let n : Int := ofDigits digits
        some (some (if negative then -n else n), rest)
    else some (none, s)
  | [] => some (none, [])

/-- The fraction at the front, if there is one; none if a point has no digits behind it. -/
def readFraction (s : List Char) : Option (List Nat × List Char) :=
  match s with
  | '.' :: rest =>
    match takeDigits rest with
    | ([], _) => none
    | digits => some digits
  | s => some ([], s)

/-- Whether a minus sign comes first, and what follows it. -/
def readSign (s : List Char) : Bool × List Char :=
  match s with
  | '-' :: rest => (true, rest)
  | s => (false, s)

/-- The digits before the point. Only zero itself starts with the digit zero. -/
def readWhole (s : List Char) : Option (List Nat × List Char) :=
  match s with
  | '0' :: rest => some ([0], rest)
  | s =>
    match takeDigits s with
    | ([], _) => none
    | digits => some digits

/-- A numeral. -/
def readNumeral (s : List Char) : Option (Numeral × List Char) := do
  let (negative, s) := readSign s
  let (whole, rest) ← readWhole s
  let (fraction, rest) ← readFraction rest
  let (exponent?, rest) ← readExponent rest
  return (⟨negative, whole, fraction, exponent?⟩, rest)

/-- The four characters that may stand between tokens. -/
def isSpace (c : Char) : Bool :=
  c == ' ' || c == '\t' || c == '\n' || c == '\r'

/-- A text without the space at its front. -/
def skipSpace (s : List Char) : List Char :=
  s.dropWhile isSpace

mutual

/-- The tree at the front of a text, and the rest. Every step takes at least one character, so that
`fuel` characters can be read with that much fuel. -/
def readTree (fuel : Nat) (s : List Char) : Option (Tree × List Char) :=
  match fuel with
  | 0 => none
  | fuel + 1 =>
    match skipSpace s with
    | '"' :: rest => (readString rest).map fun (value?, rest) => (.string value?, rest)
    | '[' :: rest =>
      match skipSpace rest with
      | ']' :: rest => some (.array [], rest)
      | _ => (readItems fuel rest).map fun (items, rest) => (.array items, rest)
    | '\x7b' :: rest =>
      match skipSpace rest with
      | '\x7d' :: rest => some (.object [], rest)
      | _ => (readFields fuel rest).map fun (fields, rest) => (.object fields, rest)
    | 'n' :: 'u' :: 'l' :: 'l' :: rest => some (.null, rest)
    | 't' :: 'r' :: 'u' :: 'e' :: rest => some (.bool true, rest)
    | 'f' :: 'a' :: 'l' :: 's' :: 'e' :: rest => some (.bool false, rest)
    | s => (readNumeral s).map fun (numeral, rest) => (.number numeral, rest)

/-- The items of an array that is not empty, up to its closing bracket. -/
def readItems (fuel : Nat) (s : List Char) : Option (List Tree × List Char) :=
  match fuel with
  | 0 => none
  | fuel + 1 => do
    let (item, rest) ← readTree fuel s
    match skipSpace rest with
    | ']' :: rest => return ([item], rest)
    | ',' :: rest =>
      let (items, rest) ← readItems fuel rest
      return (item :: items, rest)
    | _ => none

/-- The fields of an object that is not empty, up to its closing brace. -/
def readFields (fuel : Nat) (s : List Char) : Option (List (Option String × Tree) × List Char) :=
  match fuel with
  | 0 => none
  | fuel + 1 =>
    match skipSpace s with
    | '"' :: rest => do
      let (key, rest) ← readString rest
      match skipSpace rest with
      | ':' :: rest =>
        let (value, rest) ← readTree fuel rest
        match skipSpace rest with
        | '\x7d' :: rest => return ([(key, value)], rest)
        | ',' :: rest =>
          let (fields, rest) ← readFields fuel rest
          return ((key, value) :: fields, rest)
        | _ => none
      | _ => none
    | _ => none

end

/-- The tree that a whole text spells. -/
def Tree.read? (s : List Char) : Option Tree := do
  let (tree, rest) ← readTree (2 * s.length + 1) s
  guard (skipSpace rest).isEmpty
  return tree

end Weave.Json
