/-!
# Code points

Texts in which a surrogate may stand alone. An escape in a data file can ask for one; no character
is one, so such a text is a sequence of code points and not of characters.

## Main definitions

- `Text.Point` — a code point
- `Text.Points` — a text of code points
- `Text.Points.ofString`, `Text.Points.toChars?` — a text of characters as one of code points, and
  back
- `Text.Points.shown` — a text with the replacement character in place of surrogates
-/

namespace PercentTemplate.Text

/-- A code point: a character, or one of the surrogates, counted from the first of them. -/
inductive Point
  | char (c : Char)
  | surrogate (n : Fin 0x800)
  deriving DecidableEq, Repr, Inhabited

/-- A text of code points. -/
abbrev Points := List Point

namespace Point

/-- The code point with a given code. -/
def ofCode (n : Nat) : Point :=
  if h : 0xD800 ≤ n ∧ n < 0xE000 then surrogate ⟨n - 0xD800, by omega⟩ else char (Char.ofNat n)

def char? : Point → Option Char
  | char c => some c
  | surrogate _ => none

/-- The character that a code point is; the replacement character for a surrogate. -/
def shown (p : Point) : Char := p.char?.getD '\ufffd'

theorem ofCode_toNat (c : Char) : ofCode c.toNat = char c := by
  have hvalid : c.toNat < 0xD800 ∨ 0xDFFF < c.toNat ∧ c.toNat < 0x110000 := c.valid
  rw [ofCode, dif_neg (by omega), Char.ofNat_toNat]

end Point

namespace Points

def ofChars (cs : List Char) : Points := cs.map .char

def ofString (s : String) : Points := ofChars s.toList

/-- The characters of a text without surrogates. -/
def toChars? (ps : Points) : Option (List Char) := ps.mapM Point.char?

/-- A text with the replacement character in place of surrogates. -/
def shown (ps : Points) : String := String.ofList (ps.map Point.shown)

theorem ofChars_append (cs ds : List Char) : ofChars (cs ++ ds) = ofChars cs ++ ofChars ds :=
  List.map_append

theorem toChars?_ofChars (cs : List Char) : toChars? (ofChars cs) = some cs := by
  induction cs with
  | nil => rfl
  | cons c cs ih =>
    rw [toChars?, ofChars] at ih
    rw [toChars?, ofChars, List.map_cons, List.mapM_cons, ih]
    rfl

theorem ofChars_injective : Function.Injective ofChars := by
  intro cs ds h
  have hchars := congrArg toChars? h
  rw [toChars?_ofChars, toChars?_ofChars] at hchars
  exact Option.some.inj hchars

theorem ofString_injective : Function.Injective ofString :=
  fun _ _ h => String.toList_injective (ofChars_injective h)

theorem shown_ofChars (cs : List Char) : shown (ofChars cs) = String.ofList cs := by
  rw [shown, ofChars, List.map_map]
  exact congrArg String.ofList (List.map_id cs)

theorem shown_ofString (s : String) : shown (ofString s) = s := by
  rw [ofString, shown_ofChars, String.ofList_toList]

end Points

end PercentTemplate.Text
