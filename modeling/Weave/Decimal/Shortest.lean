/-!
# The shortest decimal that reads back

A positive binary number `m · 2^q` stands for every real number that rounds to it. Of the decimals
in that range `Decimal.shortest` takes one with the fewest digits, and of those the one nearest to
`m · 2^q`. Everything is exact arithmetic on natural numbers.
-/

namespace Weave

/-- The number `digits · 10^exponent`. -/
structure Decimal where
  digits : Nat
  exponent : Int
  deriving DecidableEq, Repr

/-- The real numbers that round to a binary number, as numerators over one denominator. -/
structure RoundingRange where
  low : Nat
  value : Nat
  high : Nat
  denominator : Nat
  /-- Whether the two ends belong to the range. -/
  closed : Bool

namespace RoundingRange

/-- The range of `m · 2^q`. Below a power of two the neighbours lie twice as close, unless the
number is already of the least exponent. -/
def ofBinary (m : Nat) (q : Int) (closerBelow : Bool) : RoundingRange :=
  let scale := Nat.pow 2 (q - 2).toNat
  { low := (4 * m - if closerBelow then 1 else 2) * scale
    value := 4 * m * scale
    high := (4 * m + 2) * scale
    denominator := Nat.pow 2 (2 - q).toNat
    closed := m % 2 = 0 }

/-- The decimal with exponent `k` that lies in the range, if there is one. Of the two neighbours of
the value on that grid the nearer wins, and the even one if both are equally near. -/
def onGrid? (r : RoundingRange) (k : Int) : Option Decimal :=
  let scale := Nat.pow 10 (-k).toNat
  let unit := Nat.pow 10 k.toNat * r.denominator
  let below := r.value * scale / unit
  let rest := r.value * scale % unit
  let fitsBelow :=
    if r.closed then r.low * scale ≤ below * unit else r.low * scale < below * unit
  let fitsAbove :=
    if r.closed then (below + 1) * unit ≤ r.high * scale else (below + 1) * unit < r.high * scale
  let nearerBelow := 2 * rest < unit ∨ (2 * rest = unit ∧ below % 2 = 0)
  if fitsBelow ∧ (nearerBelow ∨ ¬ fitsAbove) then some ⟨below, k⟩
  else if fitsAbove then some ⟨below + 1, k⟩
  else none

/-- The first decimal in the range on the grids from `10^k` downwards, at most `grids` of them. -/
def search (r : RoundingRange) : (grids : Nat) → (k : Int) → Decimal
  | 0, k => ⟨r.value * Nat.pow 10 (-k).toNat / (Nat.pow 10 k.toNat * r.denominator), k⟩
  | grids + 1, k => (r.onGrid? k).getD (r.search grids (k - 1))

end RoundingRange

/-- The shortest decimal that rounds to `m · 2^q`, and the nearest of those. No grid above the
number's own size can meet its range, and seventeen digits tell all binary numbers apart, so twenty
grids are enough. -/
def Decimal.shortest (m : Nat) (q : Int) (closerBelow : Bool) : Decimal :=
  let size := (m.log2 + 1 + q) * 30103 / 100000 + 1
  (RoundingRange.ofBinary m q closerBelow).search 20 size

end Weave
