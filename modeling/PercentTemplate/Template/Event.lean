import PercentTemplate.Template.Format

/-!
# Events

What a scan reports about a template, in the order of the text.

## Main definitions

- `Stretch` — a piece of a template and where it starts
- `Event` — a character, an escape, a key placeholder or a malformed stretch
-/

namespace PercentTemplate

/-- A piece of a template. -/
structure Stretch where
  /-- The offset of its first character. -/
  start : Nat
  /-- Its characters. -/
  text : String
  deriving DecidableEq, Repr

/-- What a scan reports. -/
inductive Event
  /-- Text that stands for itself; a scan reports it character by character. -/
  | literal (text : String)
  /-- The character that an escape stands for, as a text. -/
  | escape (text : String)
  /-- A placeholder for the value of a key, with the format that is pending for it. -/
  | key (name : String) (format : Format) (source : Stretch)
  /-- A stretch that begins like a placeholder and is none. -/
  | malformed (source : Stretch)
  deriving DecidableEq, Repr

end PercentTemplate
