import PercentTemplate.Calendar
import PercentTemplate.Number.Integer
import PercentTemplate.Yaml.Source

/-!
# YAML tokens

The words of a YAML text. Block structure, which the text shows by indentation, and simple keys,
which it shows by a later colon, are tokens of their own.

## Main definitions

- `Yaml.Fault` — why a text has no value
- `Yaml.Directive` — a line that says how to read the document
- `Yaml.Token` — a word of a YAML text
-/

namespace PercentTemplate.Yaml

/-- Why a text has no value. -/
inductive Fault
  | malformed
  /-- An escape asks for a character with a code beyond the last one. -/
  | noSuchCharacter
  /-- An escape asks for a code that no machine integer holds. -/
  | codeTooLarge
  | integer (f : Integer.Fault)
  /-- A text that was declared a floating-point number is none. -/
  | notFloat (text : String)
  /-- A part of a floating-point number has too large a place value. -/
  | placeTooLarge
  | emptyNumber
  | notBool (text : String)
  | notMoment
  /-- A date is declared of a map. -/
  | momentOfMap
  | calendar (f : Calendar.Fault)
  /-- The stack is used up. -/
  | tooDeep
  /-- Anything else that a reader of documents fails with; `ofValue` if it is a fault of a value. -/
  | other (ofValue : Bool) (message : String)
  deriving DecidableEq, Repr

/-- Whether a fault is one of the value that a text stands for, rather than a breakdown of the
reading. -/
def Fault.isOfValue : Fault → Bool
  | malformed | noSuchCharacter | integer _ | notFloat _ | calendar _ => true
  | codeTooLarge | placeTooLarge | emptyNumber | notBool _ | notMoment | momentOfMap | tooDeep =>
    false
  | other ofValue _ => ofValue

/-- A line that says how to read the document. -/
inductive Directive
  /-- The version of the format; only its first number counts. -/
  | version (major : Nat)
  | handle (name stem : String)
  | other
  deriving DecidableEq, Repr

/-- A word of a YAML text. -/
inductive Token
  | directive (d : Directive)
  | documentStart
  | documentEnd
  | blockSequence
  | blockMapping
  | blockEnd
  | flowSequence
  | flowSequenceEnd
  | flowMapping
  | flowMappingEnd
  | blockEntry
  | flowEntry
  | key
  | value
  | alias (name : String)
  | anchor (name : String)
  /-- The type of the node that follows; without a handle the suffix is the whole tag. -/
  | tag (handle : Option String) (suffix : String)
  | scalar (text : Text.Points) (isPlain : Bool)
  | fault (f : Fault)
  deriving DecidableEq, Repr

/-- The result of reading something at the front of a source: it and what follows. -/
abbrev Reading (α : Type) := Except Fault (α × Source)

end PercentTemplate.Yaml
