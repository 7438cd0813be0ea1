/-!
# Upper case onto ASCII

Recognising an ASCII name in any letter case needs only those characters whose upper case is made
of ASCII letters; every other character stands for itself, so it can never make up such a name.

## Main definitions

- `Text.upperAscii` — the upper case of one character as far as it lies in ASCII
- `Text.toUpperAscii` — the same for a text
- `Text.toLowerAscii` — lower case of the ASCII letters alone
-/

namespace PercentTemplate.Text

/-- The upper case of `c` where it consists of ASCII letters, and `c` itself otherwise: besides
`a` to `z` these are the dotless i, the long s, the sharp s and the Latin ligatures. -/
def upperAscii (c : Char) : List Char :=
  match c with
  | 'ı' => ['I']
  | 'ſ' => ['S']
  | 'ß' => ['S', 'S']
  | 'ﬀ' => ['F', 'F']
  | 'ﬁ' => ['F', 'I']
  | 'ﬂ' => ['F', 'L']
  | 'ﬃ' => ['F', 'F', 'I']
  | 'ﬄ' => ['F', 'F', 'L']
  | 'ﬅ' => ['S', 'T']
  | 'ﬆ' => ['S', 'T']
  | c => [c.toUpper]

/-- The upper case of a text, exact for all results that are ASCII. -/
def toUpperAscii (cs : List Char) : List Char :=
  cs.flatMap upperAscii

/-- The lower case of the ASCII letters; every other character stays. -/
def toLowerAscii (cs : List Char) : List Char :=
  cs.map Char.toLower

end PercentTemplate.Text
