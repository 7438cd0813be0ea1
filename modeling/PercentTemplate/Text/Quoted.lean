import PercentTemplate.Text.Hex
import PercentTemplate.Text.Point
import PercentTemplate.Text.Printable

/-!
# Quoted literals

The quoted form in which messages and nested values show a text: single quotes unless the text
holds a single quote and no double quote; the quote in use, the backslash and the three common
control characters escaped by a letter; every other non-printable character escaped by its code.

## Main definitions

- `Text.quoteFor` — the quote that a text is written in
- `Text.quotedChar` — one character inside quotes
- `Text.quoted` — the quoted literal of a text
- `Text.quotedPoints` — the quoted literal of a text of code points
-/

namespace PercentTemplate.Text

/-- The quote for `cs`: the double quote only where it saves escaping a single one. -/
def quoteFor (cs : List Char) : Char :=
  if cs.contains '\x27' && !cs.contains '"' then '"' else '\x27'

/-- The shortest of the three code escapes that holds `n`. -/
def codeEscape (n : Nat) : List Char :=
  if n < 0x100 then '\\' :: 'x' :: hexText 2 n
  else if n < 0x10000 then '\\' :: 'u' :: hexText 4 n
  else '\\' :: 'U' :: hexText 8 n

def quotedChar (q c : Char) : List Char :=
  if c = q || c = '\\' then ['\\', c]
  else if c = '\n' then ['\\', 'n']
  else if c = '\r' then ['\\', 'r']
  else if c = '\t' then ['\\', 't']
  else if isPrintable c then [c]
  else codeEscape c.toNat

def quoted (s : String) : String :=
  let cs := s.toList
  let q := quoteFor cs
  String.ofList (q :: cs.flatMap (quotedChar q) ++ [q])

/-- One code point inside quotes; a surrogate is written by its code. -/
def quotedPoint (q : Char) : Point → List Char
  | .char c => quotedChar q c
  | .surrogate n => codeEscape (0xD800 + n)

def quotedPoints (ps : Points) : String :=
  let q := quoteFor (ps.map Point.shown)
  String.ofList (q :: ps.flatMap (quotedPoint q) ++ [q])

theorem quotedPoints_ofString (s : String) : quotedPoints (.ofString s) = quoted s := by
  have hshown : (Points.ofString s).map Point.shown = s.toList := by
    rw [Points.ofString, Points.ofChars, List.map_map]
    exact List.map_id _
  have hbody (q : Char) :
      (Points.ofString s).flatMap (quotedPoint q) = s.toList.flatMap (quotedChar q) := by
    rw [Points.ofString, Points.ofChars, List.flatMap_map]
    rfl
  rw [quotedPoints, quoted, hshown, hbody]

/-- How a byte is written in a quoted byte string, where ASCII alone is printable. -/
def quotedByte (q : Char) (b : UInt8) : List Char :=
  let c := Char.ofNat b.toNat
  if c = q || c = '\\' then ['\\', c]
  else if c = '\n' then ['\\', 'n']
  else if c = '\r' then ['\\', 'r']
  else if c = '\t' then ['\\', 't']
  else if 0x20 ≤ b.toNat ∧ b.toNat < 0x7F then [c]
  else codeEscape b.toNat

/-- The quoted literal of a byte string, marked by a leading `b`. -/
def quotedBytes (bytes : List UInt8) : String :=
  let q := quoteFor (bytes.map fun b => Char.ofNat b.toNat)
  String.ofList ('b' :: q :: bytes.flatMap (quotedByte q) ++ [q])

end PercentTemplate.Text
