/-!
# Blank characters

White space as Unicode defines it, together with the four ASCII information separators, and the
smaller class that may surround an integer.

## Main definitions

- `Text.isBlank` — white space in any script
- `Text.isNumberBlank` — white space that may surround an integer literal
- `Text.trim` — a text without surrounding characters of a class
-/

namespace PercentTemplate.Text

/-- White space in any script, the information separators U+001C to U+001F included. -/
def isBlank (c : Char) : Bool :=
  let n := c.toNat
  (9 ≤ n && n ≤ 13) || (28 ≤ n && n ≤ 32) || n == 0x85 || n == 0xA0 || n == 0x1680
    || (0x2000 ≤ n && n ≤ 0x200A) || n == 0x2028 || n == 0x2029 || n == 0x202F || n == 0x205F
    || n == 0x3000

/-- White space that may surround an integer: blank, but not an information separator. -/
def isNumberBlank (c : Char) : Bool :=
  isBlank c && !(28 ≤ c.toNat && c.toNat ≤ 31)

/-- The list `cs` without the characters of the class `p` at both ends. -/
def trim (p : Char → Bool) (cs : List Char) : List Char :=
  ((cs.dropWhile p).reverse.dropWhile p).reverse

end PercentTemplate.Text
