import PercentTemplate.Log.Record
import PercentTemplate.Number.Integer
import PercentTemplate.Text.UpperCase

/-!
# Settings

What the environment decides: the largest template that is read and the least severity that is
logged. A setting that cannot be read is passed over.

## Main definitions

- `Settings.maxTemplateChars` — the largest number of characters of a template
- `Settings.logLevel` — the threshold of the log
-/

namespace PercentTemplate.Settings

/-- The number of characters allowed when nothing else is set. -/
def defaultMaxChars : Nat := 1000000

/-- The largest number of characters of a template: the setting if it is a positive integer. -/
def maxTemplateChars (setting : Option String) : Nat :=
  match setting.map (Integer.read 10) with
  | some (.ok n) => if 0 < n then n.toNat else defaultMaxChars
  | _ => defaultMaxChars

/-- The severity that a text names, in any letter case and with blanks around it. -/
def level? (s : String) : Option Log.Level :=
  Log.Level.ofName? (String.ofList (Text.toUpperAscii (Text.trim Text.isBlank s.toList)))

/-- The threshold of the log: the first of the option and the setting that names a severity. -/
def logLevel (option setting : Option String) : Log.Level :=
  ((option.bind level?).or (setting.bind level?)).getD .warning

end PercentTemplate.Settings
