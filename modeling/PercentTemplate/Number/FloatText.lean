import PercentTemplate.Number.Shortest

/-!
# Floating-point numbers as text

Writing a double with the fewest digits that read back, and reading decimal text to the nearest
double.

## Main definitions

- `FloatText.Layout` — where positional notation ends and how the special values are written
- `FloatText.render` — the text of a double
- `FloatText.ofDecimal` — the double nearest to a decimal
- `FloatText.integer?` — the integer that a double stands for
-/

namespace PercentTemplate.FloatText

/-- The decisions of a number format that its digits leave open. -/
structure Layout where
  /-- The least exponent of a leading digit that is written positionally. -/
  positionalFrom : Int
  /-- The least exponent above that again needs exponent notation. -/
  positionalBelow : Int
  exponentDigits : Nat
  infinity : String
  notNumber : String

/-- Documents show numbers positionally from `0.0001` to below `10^16`. -/
def plain : Layout := ⟨-4, 16, 2, "inf", "nan"⟩

/-- Data files use the same notation, with longer names for the special values. -/
def data : Layout := { plain with infinity := "Infinity", notNumber := "NaN" }

/-- Digits with the decimal point after the first `point` of them; a point always has a digit on
both sides. -/
def positional (digits : List Char) (point : Int) : List Char :=
  if point ≤ 0 then '0' :: '.' :: List.replicate (-point).toNat '0' ++ digits
  else
    let whole := point.toNat
    if digits.length ≤ whole then digits ++ List.replicate (whole - digits.length) '0' ++ ['.', '0']
    else digits.take whole ++ '.' :: digits.drop whole

/-- Digits in exponent notation: one digit before the point, which is left out when no digit
follows it. -/
def scientific (l : Layout) (digits : List Char) (exponent : Int) : List Char :=
  let shown := Nat.toDigits 10 exponent.natAbs
  let mantissa :=
    match digits with
    | [] => []
    | [d] => [d]
    | d :: ds => d :: '.' :: ds
  mantissa ++ 'e' :: (if exponent < 0 then '-' else '+')
    :: List.replicate (l.exponentDigits - shown.length) '0' ++ shown

def renderDecimal (l : Layout) (d : Decimal) : List Char :=
  let digits := Nat.toDigits 10 d.digits
  let leading := d.exponent + digits.length - 1
  if l.positionalFrom ≤ leading ∧ leading < l.positionalBelow then positional digits (leading + 1)
  else scientific l digits leading

/-- The text of the double with the given bits, its sign taken away. -/
def renderMagnitude (l : Layout) (bits : Nat) : List Char :=
  if bits / Nat.pow 2 52 = 2047 then
    if bits % Nat.pow 2 52 = 0 then l.infinity.toList else l.notNumber.toList
  else if bits = 0 then ['0', '.', '0']
  else renderDecimal l (Binary.ofBits bits).shortest

/-- The text of a double. The sign of zero is kept; a value that is no number has none. -/
def render (l : Layout) (x : Float) : String :=
  let bits := x.toBits.toNat
  let magnitude := bits % Nat.pow 2 63
  let negative := Nat.pow 2 63 ≤ bits && !x.isNaN
  String.ofList ((if negative then ['-'] else []) ++ renderMagnitude l magnitude)

/-- The double nearest to `digits · 10^exponent`. Exponents far outside the range of doubles are
settled without computing the power. -/
def ofDecimal (digits : Nat) (exponent : Int) : Float :=
  let leading := exponent + Decimal.digitCount digits
  if digits = 0 ∨ leading < -400 then 0.0
  else if 400 < leading then 1.0 / 0.0
  else if exponent < 0 then Float.ofScientific digits true exponent.natAbs
  else Float.ofScientific digits false exponent.toNat

/-- The integer that a floating-point number stands for, if it is finite and has no fraction. -/
def integer? (x : Float) : Option Int :=
  let bits := x.toBits.toNat
  let magnitude := bits % Nat.pow 2 63
  let sign : Int := if Nat.pow 2 63 ≤ bits then -1 else 1
  let b := Binary.ofBits magnitude
  if magnitude / Nat.pow 2 52 = 2047 then none
  else if 0 ≤ b.exponent then some (sign * (b.mantissa * Nat.pow 2 b.exponent.toNat : Nat))
  else
    let unit := Nat.pow 2 (-b.exponent).toNat
    if b.mantissa % unit = 0 then some (sign * (b.mantissa / unit : Nat)) else none

end PercentTemplate.FloatText
