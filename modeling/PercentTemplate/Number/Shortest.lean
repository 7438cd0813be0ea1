/-!
# Shortest decimals

The decimal of fewest digits that reads back as a given binary floating-point number. The numbers
that round to `m · 2^q` form an interval around it; among the decimals with one digit, then two, and
so on, the first that lies in the interval is taken, the nearer of two.

## Main definitions

- `Decimal` — digits and a power of ten
- `Binary` — a positive binary number with the interval that rounds to it
- `Binary.shortest` — its shortest decimal
-/

namespace PercentTemplate

/-- The number `digits · 10^exponent`. -/
structure Decimal where
  digits : Nat
  exponent : Int
  deriving DecidableEq, Repr

/-- The positive number `mantissa · 2^exponent`, and whether the next smaller one is only half as
far away as the next larger. -/
structure Binary where
  mantissa : Nat
  exponent : Int
  closeBelow : Bool
  deriving DecidableEq, Repr

namespace Decimal

/-- How many decimal digits `n` has; zero has one. -/
def digitCount (n : Nat) : Nat := (Nat.toDigits 10 n).length

/-- The same number without zeros at the end of its digits. -/
def dropZeros (fuel : Nat) (d : Decimal) : Decimal :=
  match fuel with
  | 0 => d
  | fuel + 1 =>
    if d.digits ≠ 0 ∧ d.digits % 10 = 0 then dropZeros fuel ⟨d.digits / 10, d.exponent + 1⟩ else d

end Decimal

namespace Binary

/-- Quarter units of the last binary digit: the lower end, the number and the upper end of the
interval that rounds to it. -/
def quarters (b : Binary) : Nat × Nat × Nat :=
  let n := 4 * b.mantissa
  (n - if b.closeBelow then 1 else 2, n, n + 2)

/-- Numerator and denominator of `quarter · 2^exponent / 4`. -/
def fraction (b : Binary) (quarter : Nat) : Nat × Nat :=
  if 0 ≤ b.exponent then (quarter * Nat.pow 2 b.exponent.toNat, 4)
  else (quarter, 4 * Nat.pow 2 (-b.exponent).toNat)

/-- The sign of `digits · 10^exponent` minus a fraction. -/
def compareScaled (digits : Nat) (exponent : Int) (f : Nat × Nat) : Ordering :=
  if 0 ≤ exponent then compare (digits * Nat.pow 10 exponent.toNat * f.2) f.1
  else compare (digits * f.2) (f.1 * Nat.pow 10 (-exponent).toNat)

/-- Whether `digits · 10^exponent` rounds to `b`: the ends of the interval count if the last binary
digit is even. -/
def contains (b : Binary) (digits : Nat) (exponent : Int) : Bool :=
  let (low, _, high) := b.quarters
  let ends := b.mantissa % 2 = 0
  let below := compareScaled digits exponent (b.fraction low)
  let above := compareScaled digits exponent (b.fraction high)
  (below = .gt || (ends && below = .eq)) && (above = .lt || (ends && above = .eq))

/-- The power of ten of the leading decimal digit of `b`. -/
def leadingExponent (b : Binary) : Int :=
  let f := b.fraction b.quarters.2.1
  (Decimal.digitCount (f.1 * Nat.pow 10 400 / f.2) : Int) - 401

/-- The largest multiple of `10^exponent` that is at most `b`, as the factor. -/
def floorScaled (b : Binary) (exponent : Int) : Nat :=
  let f := b.fraction b.quarters.2.1
  if 0 ≤ exponent then f.1 / (f.2 * Nat.pow 10 exponent.toNat)
  else f.1 * Nat.pow 10 (-exponent).toNat / f.2

/-- Whether the upper of two neighbours on the grid is nearer; of two equally near ones the even is
taken. -/
def upperNearer (b : Binary) (lower : Nat) (exponent : Int) : Bool :=
  let f := b.fraction b.quarters.2.1
  match compareScaled (2 * lower + 1) exponent (2 * f.1, f.2) with
  | .lt => true
  | .gt => false
  | .eq => lower % 2 = 1

/-- The decimal with `places` significant digits that rounds to `b` and is nearest to it. -/
def onGrid? (b : Binary) (places : Nat) : Option Decimal :=
  let exponent := b.leadingExponent - (places : Int) + 1
  let lower := b.floorScaled exponent
  let keep (digits : Nat) : Option Decimal := some ⟨digits, exponent⟩
  match b.contains lower exponent, b.contains (lower + 1) exponent with
  | true, true => keep (if b.upperNearer lower exponent then lower + 1 else lower)
  | true, false => keep lower
  | false, true => keep (lower + 1)
  | false, false => none

/-- The shortest decimal that rounds to `b`: seventeen digits always suffice. -/
def shortest (b : Binary) : Decimal :=
  let found := (List.range 17).findSome? fun k => b.onGrid? (k + 1)
  let d := found.getD ⟨b.floorScaled (b.leadingExponent - 16), b.leadingExponent - 16⟩
  d.dropZeros (Decimal.digitCount d.digits)

/-- The binary number that the bits of a positive finite double stand for. -/
def ofBits (bits : Nat) : Binary :=
  let fraction : Nat := bits % Nat.pow 2 52
  let biased : Nat := bits / Nat.pow 2 52 % Nat.pow 2 11
  if biased = 0 then ⟨fraction, -1074, false⟩
  else ⟨Nat.pow 2 52 + fraction, (biased : Int) - 1075, fraction = 0 && 1 < biased⟩

end Binary

end PercentTemplate
