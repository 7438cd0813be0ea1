/-!
# Hexadecimal digits

Lower-case hexadecimal text of a number at a least width, and the values of digits in either case.

## Main definitions

- `Text.hexText` — a number in lower-case hexadecimal, padded with zeros
- `Text.hexValue?` — the value of a hexadecimal digit
-/

namespace PercentTemplate.Text

/-- The number `n` in lower-case hexadecimal with at least `width` digits. -/
def hexText (width n : Nat) : List Char :=
  let digits := Nat.toDigits 16 n
  List.replicate (width - digits.length) '0' ++ digits

/-- The value of a hexadecimal digit in either letter case. -/
def hexValue? (c : Char) : Option Nat :=
  if c.isDigit then some (c.toNat - 48)
  else if 'a' ≤ c ∧ c ≤ 'f' then some (c.toNat - 87)
  else if 'A' ≤ c ∧ c ≤ 'F' then some (c.toNat - 55)
  else none

/-- The number that a list of hexadecimal digits stands for, the most significant first. -/
def hexNumber? (cs : List Char) : Option Nat :=
  cs.foldlM (fun n c => (hexValue? c).map (n * 16 + ·)) 0

end PercentTemplate.Text
