import Weave.Toml.Document

/-!
# TOML numbers, dates and times

What may stand in a document without quotes besides `true` and `false`. Integers are of 64 bits with
sign; an underscore may stand between two digits. Dates have to be in the calendar.
-/

namespace Weave.Toml

/-- Digits of a kind with single underscores between them: the digits, and what follows. -/
def readDigits (isDigit : Char → Bool) : List Char → List Char × List Char
  | [] => ([], [])
  | c :: s =>
    if isDigit c then
      match s with
      | '_' :: next :: rest =>
        if isDigit next then
          let (digits, rest) := readDigits isDigit (next :: rest)
          (c :: digits, rest)
        else ([c], '_' :: next :: rest)
      | s =>
        let (digits, rest) := readDigits isDigit s
        (c :: digits, rest)
    else ([], c :: s)

/-- The number that digits make in a base. -/
def ofDigitChars (base : Nat) (digits : List Char) : Nat :=
  digits.foldl (fun n c =>
    n * base + if c.isDigit then c.toNat - 0x30 else c.toLower.toNat - 0x61 + 10) 0

/-- The sign at the front, and whether it is a minus. -/
def readSign : List Char → Bool × List Char
  | '-' :: s => (true, s)
  | '+' :: s => (false, s)
  | s => (false, s)

/-- The digits of a whole number. Zero is the only one that starts with a zero. -/
def readWhole : List Char → Option (List Char × List Char)
  | '0' :: rest => some (['0'], rest)
  | s =>
    match readDigits Char.isDigit s with
    | ([], _) => none
    | read => some read

/-- An integer, if it fits in 64 bits. -/
def int? (n : Int) : Option Toml :=
  if -Int.pow 2 63 ≤ n ∧ n < Int.pow 2 63 then some (.int n) else none

/-- A number in another base than ten, behind its mark. -/
def readBased (base : Nat) (isDigit : Char → Bool) (s : List Char) : Option (Toml × List Char) :=
  match readDigits isDigit s with
  | ([], _) => none
  | (digits, rest) => (int? (ofDigitChars base digits)).map (·, rest)

/-- Whether `c` is a hexadecimal digit. -/
def isHexDigit (c : Char) : Bool :=
  c.isDigit || ('a' ≤ c && c ≤ 'f') || ('A' ≤ c && c ≤ 'F')

/-- An integer. -/
def readInt (s : List Char) : Option (Toml × List Char) :=
  match s with
  | '0' :: 'x' :: rest => readBased 16 isHexDigit rest
  | '0' :: 'o' :: rest => readBased 8 (fun c => '0' ≤ c && c ≤ '7') rest
  | '0' :: 'b' :: rest => readBased 2 (fun c => c == '0' || c == '1') rest
  | s => do
    let (negative, s) := readSign s
    let (digits, rest) ← readWhole s
    let n : Int := ofDigitChars 10 digits
    let value ← int? (if negative then -n else n)
    return (value, rest)

/-! ## Floats -/

/-- Whether `digits · 10^exponent` is too large for a float, that is, not below the middle between
the largest float and the power of two behind it. -/
def isOverflow (digits : Nat) (exponent : Int) : Bool :=
  let length : Int := (Nat.toDigits 10 digits).length
  if digits = 0 then false
  else if 310 < length + exponent then true
  else if length + exponent < 308 then false
  else (Nat.pow 2 54 - 1) * Nat.pow 2 970 * Nat.pow 10 (-exponent).toNat
      ≤ digits * Nat.pow 10 exponent.toNat

/-- The fraction at the front, if there is one: its digits. -/
def readFraction? : List Char → Option (List Char × List Char)
  | '.' :: s =>
    match readDigits Char.isDigit s with
    | ([], _) => none
    | read => some read
  | _ => none

/-- The exponent at the front, if there is one. -/
def readExponent? : List Char → Option (Int × List Char)
  | c :: s =>
    if c = 'e' ∨ c = 'E' then
      let (negative, s) := readSign s
      match readDigits Char.isDigit s with
      | ([], _) => none
      | (digits, rest) =>
        let n : Int := ofDigitChars 10 digits
        some (if negative then -n else n, rest)
    else none
  | [] => none

/-- The part of `s` before its end `rest`. -/
def spelling (s rest : List Char) : String :=
  String.ofList (s.take (s.length - rest.length))

/-- A float with digits: a fraction, an exponent, or both follow the whole part. A positive one must
not be too large. -/
def readDigitFloat (s : List Char) : Option (Toml × List Char) := do
  let (negative, body) := readSign s
  let (whole, rest) ← readWhole body
  let (fraction, exponent, rest) ← match readFraction? rest with
    | some (fraction, rest) =>
      match readExponent? rest with
      | some (exponent, rest) => some (fraction, exponent, rest)
      | none => some (fraction, 0, rest)
    | none => (readExponent? rest).map fun (exponent, rest) => ([], exponent, rest)
  guard (negative || !isOverflow (ofDigitChars 10 (whole ++ fraction)) (exponent - fraction.length))
  return (.float (spelling s rest), rest)

/-- A float without digits. -/
def readNamedFloat (s : List Char) : Option (Toml × List Char) :=
  match (readSign s).2 with
  | 'i' :: 'n' :: 'f' :: rest => some (.float (spelling s rest), rest)
  | 'n' :: 'a' :: 'n' :: rest => some (.float (spelling s rest), rest)
  | _ => none

/-! ## Dates and times -/

/-- A number of exactly `width` digits. -/
def readFixed (width : Nat) (s : List Char) : Option (Nat × List Char) :=
  let digits := s.take width
  if digits.length = width ∧ digits.all Char.isDigit then
    some (ofDigitChars 10 digits, s.drop width)
  else none

/-- The text behind the character `c`. -/
def expect (c : Char) : List Char → Option (List Char)
  | d :: s => if d = c then some s else none
  | [] => none

/-- The number of days in a month. -/
def daysIn (year month : Nat) : Nat :=
  if month = 2 then
    if year % 4 = 0 ∧ (year % 100 ≠ 0 ∨ year % 400 = 0) then 29 else 28
  else if month = 4 ∨ month = 6 ∨ month = 9 ∨ month = 11 then 30
  else 31

/-- What follows a date. -/
def afterDate? (s : List Char) : Option (List Char) := do
  let (year, s) ← readFixed 4 s
  let (month, s) ← readFixed 2 (← expect '-' s)
  let (day, s) ← readFixed 2 (← expect '-' s)
  guard (1 ≤ month ∧ month ≤ 12 ∧ 1 ≤ day ∧ day ≤ daysIn year month)
  return s

/-- What follows a time of day. A minute may have a sixty-first second. -/
def afterTime? (s : List Char) : Option (List Char) := do
  let (hour, s) ← readFixed 2 s
  let (minute, s) ← readFixed 2 (← expect ':' s)
  let (second, s) ← readFixed 2 (← expect ':' s)
  guard (hour ≤ 23 ∧ minute ≤ 59 ∧ second ≤ 60)
  match s with
  | '.' :: digits =>
    match digits.takeWhile Char.isDigit with
    | [] => return s
    | _ => return digits.dropWhile Char.isDigit
  | s => return s

/-- What follows the distance from universal time. -/
def afterOffset? (s : List Char) : Option (List Char) :=
  match s with
  | 'Z' :: rest => some rest
  | 'z' :: rest => some rest
  | c :: rest =>
    if c = '+' ∨ c = '-' then do
      let (hour, rest) ← readFixed 2 rest
      let (minute, rest) ← readFixed 2 (← expect ':' rest)
      guard (hour ≤ 23 ∧ minute ≤ 59)
      return rest
    else none
  | [] => none

/-- What follows a date with a time behind it. -/
def afterDateTime? (s : List Char) : Option (List Char) :=
  match s with
  | c :: s =>
    if c = 'T' ∨ c = 't' ∨ c = ' ' then do
      let rest ← afterTime? s
      return (afterOffset? rest).getD rest
    else none
  | [] => none

/-- A date, a time, or both. -/
def readDateTime (s : List Char) : Option (Toml × List Char) :=
  let rest? := match afterDate? s with
    | some rest => some ((afterDateTime? rest).getD rest)
    | none => afterTime? s
  rest?.map fun rest => (.datetime (spelling s rest), rest)

/-- Whatever begins with a digit or a sign. -/
def readNumber (s : List Char) : Option (Toml × List Char) :=
  readDateTime s <|> readDigitFloat s <|> readNamedFloat s <|> readInt s

end Weave.Toml
