import PercentTemplate.Template.Format
import PercentTemplate.Text.Slice

/-!
# Layout of a value

The text that a value becomes under a format, and the width of that text computed without building
it. All lengths count characters.

## Main definitions

- `Format.layout` — a value padded or cut to a format
- `Format.layoutWidth` — the length of the result
-/

namespace PercentTemplate.Format

def ellipsis : Char := '…'

/-- The text `value` cut to the width of `f`, one character of which the ellipsis takes. -/
def cut (f : Format) (value : List Char) : List Char :=
  if f.kind = .rightLtrunc then ellipsis :: Slice.since value (value.length - (f.width - 1))
  else Slice.upTo value (f.width - 1) ++ [ellipsis]

/-- The text `value` filled up with spaces to the width of `f`. -/
def pad (f : Format) (value : List Char) : List Char :=
  let padding := List.replicate (f.width - value.length).toNat ' '
  if f.padsLeft then padding ++ value else value ++ padding

def layoutChars (f : Format) (value : List Char) : List Char :=
  if f.kind = .none then value
  else if f.truncates && decide (f.width < value.length) then f.cut value
  else if f.width ≤ value.length then value
  else f.pad value

def layout (f : Format) (value : String) : String :=
  String.ofList (f.layoutChars value.toList)

/-- The length of `value` as the format `f` shows it. -/
def layoutWidth (f : Format) (value : String) : Int :=
  if f.kind = .none then value.length
  else if f.truncates then f.width
  else max value.length f.width

end PercentTemplate.Format
