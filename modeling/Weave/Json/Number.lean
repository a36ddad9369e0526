import Weave.Decimal.Shortest
import Weave.Json.Basic

/-!
# JSON numbers

A numeral is kept as it is spelled until its value is asked for. Whole numerals that fit in 64 bits,
with or without sign, are integers; all others are floats. A float is read from the leading digits
that fit in 64 bits and one power of ten, and written with the fewest digits that read back.
-/

namespace Weave.Json

/-- The digits of a number in JSON text. -/
structure Numeral where
  negative : Bool
  whole : List Nat
  /-- The digits after the point; no point, no digits. -/
  fraction : List Nat
  exponent? : Option Int
  deriving DecidableEq, Repr

/-- The number with these decimal digits. -/
def ofDigits (digits : List Nat) : Nat :=
  digits.foldl (fun n d => n * 10 + d) 0

/-- Appends digits to `n` as long as the number fits in 64 bits. Also tells how many digits were
left. -/
def appendDigits (n : Nat) : List Nat → Nat × Nat
  | [] => (n, 0)
  | d :: rest =>
    if n * 10 + d < Nat.pow 2 64 then appendDigits (n * 10 + d) rest else (n, rest.length + 1)

/-- The float `10^n`, rounded to nearest. -/
def powerOfTen (n : Nat) : Float :=
  Float.ofScientific 1 false n

/-- The float `significand · 10^exponent` by one rounding of the significand and one multiplication
or division; two divisions where the power of ten is no float. None if it is too large. -/
def scaled? (significand : Nat) (exponent : Int) : Option Float :=
  let f := Float.ofNat significand
  if 0 ≤ exponent then
    if exponent ≤ 308 then
      let product := f * powerOfTen exponent.toNat
      if product.isInf then none else some product
    else if significand = 0 then some 0 else none
  else
    let n := (-exponent).toNat
    if n ≤ 308 then some (f / powerOfTen n)
    else if n ≤ 616 then some (f / powerOfTen 308 / powerOfTen (n - 308))
    else some 0

namespace Numeral

/-- The value of a numeral as a float, if it is not too large. -/
def float? (n : Numeral) : Option Float :=
  let (whole, wholeLeft) := appendDigits 0 n.whole
  let (significand, fractionLeft) := appendDigits whole n.fraction
  let taken : Nat := n.fraction.length - fractionLeft
  let exponent : Int := wholeLeft - taken + n.exponent?.getD 0
  (scaled? significand exponent).map fun f => if n.negative then -f else f

/-- The value of a numeral. Only whole numerals are integers, of 64 bits without or with a sign;
minus zero is a float. -/
def value? (n : Numeral) : Option Json :=
  if n.fraction.isEmpty && n.exponent?.isNone then
    let magnitude := ofDigits n.whole
    if n.negative then
      if 0 < magnitude ∧ magnitude ≤ Nat.pow 2 63 then some (.int (-magnitude))
      else n.float?.map .float
    else if magnitude < Nat.pow 2 64 then some (.int magnitude)
    else n.float?.map .float
  else n.float?.map .float

end Numeral

/-- The decimal digits of a number as text. -/
def decimalDigits (n : Nat) : List Char :=
  Nat.toDigits 10 n

/-- An integer as text. -/
def writeInt : Int → List Char
  | .ofNat n => decimalDigits n
  | .negSucc n => '-' :: decimalDigits (n + 1)

/-- An exponent as text, always with its sign. -/
def writeExponent : Int → List Char
  | .ofNat n => 'e' :: '+' :: decimalDigits n
  | .negSucc n => 'e' :: '-' :: decimalDigits (n + 1)

/-- A decimal as text: positional if its first digit stands for a power of ten from `10^-5` to
`10^15`, else with an exponent. -/
def writeDecimal (d : Decimal) : List Char :=
  let digits := decimalDigits d.digits
  let lead : Int := d.exponent + digits.length - 1
  if -5 ≤ lead ∧ lead ≤ 15 then
    if 0 ≤ d.exponent then digits ++ List.replicate d.exponent.toNat '0' ++ ['.', '0']
    else if 0 ≤ lead then
      digits.take (lead + 1).toNat ++ '.' :: digits.drop (lead + 1).toNat
    else '0' :: '.' :: List.replicate (-lead - 1).toNat '0' ++ digits
  else
    match digits with
    | first :: next :: rest => first :: '.' :: next :: rest ++ writeExponent lead
    | digits => digits ++ writeExponent lead

/-- A float as text. What is no number is written as `null`. -/
def writeFloat (x : Float) : List Char :=
  let bits := x.toBits.toNat
  let fraction := bits % Nat.pow 2 52
  let exponent : Nat := bits / Nat.pow 2 52 % Nat.pow 2 11
  let sign := if bits < Nat.pow 2 63 then [] else ['-']
  if exponent = 2047 then "null".toList
  else if exponent = 0 then
    if fraction = 0 then sign ++ ['0', '.', '0']
    else sign ++ writeDecimal (.shortest fraction (-1074) false)
  else
    sign ++ writeDecimal
      (.shortest (Nat.pow 2 52 + fraction) (exponent - 1075) (fraction = 0 && 1 < exponent))

end Weave.Json
