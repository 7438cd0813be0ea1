/-!
# Formats

How the value of the next key placeholder is aligned and cut.

## Main definitions

- `Format.Kind` — the side of the padding and of the cut
- `Format` — a kind and a width in characters
- `Format.unset` — the format that leaves a value alone
-/

namespace PercentTemplate

/-- The side on which a value is padded, and whether and where a longer one is cut. -/
inductive Format.Kind
  /-- Leave the value alone. -/
  | none
  /-- Pad on the right. -/
  | left
  /-- Pad on the right, cut the end. -/
  | leftTrunc
  /-- Pad on the left. -/
  | right
  /-- Pad on the left, cut the end. -/
  | rightTrunc
  /-- Pad on the left, cut the beginning. -/
  | rightLtrunc
  deriving DecidableEq, Repr, Inhabited

/-- A kind and a width in characters. Directives give positive widths, but any integer has a
meaning. -/
structure Format where
  /-- The side of the padding and of the cut. -/
  kind : Format.Kind
  /-- The width in characters. -/
  width : Int
  deriving DecidableEq, Repr, Inhabited

namespace Format

/-- The format that leaves a value alone. -/
def unset : Format := ⟨.none, 0⟩

/-- Whether a value longer than the width is cut. -/
def truncates (f : Format) : Bool :=
  match f.kind with
  | .leftTrunc | .rightTrunc | .rightLtrunc => true
  | .none | .left | .right => false

/-- Whether the padding stands before the value. -/
def padsLeft (f : Format) : Bool :=
  match f.kind with
  | .right | .rightTrunc | .rightLtrunc => true
  | .none | .left | .leftTrunc => false

/-- The name of a kind. -/
def Kind.name : Kind → String
  | none => "none"
  | left => "left"
  | leftTrunc => "left_trunc"
  | right => "right"
  | rightTrunc => "right_trunc"
  | rightLtrunc => "right_ltrunc"

/-- All kinds. -/
def Kind.all : List Kind := [none, left, leftTrunc, right, rightTrunc, rightLtrunc]

/-- The kind with a given name. -/
def Kind.ofName? (name : String) : Option Kind :=
  all.find? fun k => k.name == name

end Format

end PercentTemplate
