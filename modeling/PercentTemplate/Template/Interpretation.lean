import PercentTemplate.Log.Record
import PercentTemplate.Mapping
import PercentTemplate.Template.Event
import PercentTemplate.Template.Layout
import PercentTemplate.Text.Quoted

/-!
# Interpretations

What a scan makes of its events. An interpretation starts from a state, takes one event after the
other into it and ends with a result.

## Main definitions

- `Interpretation` — a state, the effect of an event on it and a result
- `Interpretation.render` — the text with every value in place
- `Interpretation.measure` — the lengths of that text and of the values in it
- `Interpretation.keys` — the keys of the placeholders
- `Interpretation.record` — the events themselves
-/

namespace PercentTemplate

/-- A way to make a result of the events of a scan. -/
structure Interpretation (σ β : Type) where
  /-- The name that the log gives it. -/
  name : String
  /-- The state before the first event. -/
  start : σ
  /-- The state after one more event, given the values of the keys. -/
  handle : Mapping → σ → Event → σ
  /-- How the log describes what is done with a key that has no value, if it is mentioned. -/
  withoutValue : Option String
  /-- The result of the last state. -/
  result : σ → β
  /-- Whether a result asked for early is the state itself, so that it shows later events too. -/
  isLive : Bool

namespace Interpretation

/-- Add the text of a stretch to `fragments`; an empty one adds nothing. -/
def keep (fragments : Array String) (source : Stretch) : Array String :=
  if source.text.isEmpty then fragments else fragments.push source.text

/-- The text with every value in place. Malformed stretches and placeholders without a value are
kept as they are. -/
def render : Interpretation (Array String) String where
  name := "replace_placeholders"
  start := #[]
  handle values fragments
    | .literal text => fragments.push text
    | .escape text => fragments.push text
    | .key name format source =>
      match values.value? name with
      | some value => fragments.push (format.layout value)
      | none => keep fragments source
    | .malformed source => keep fragments source
  withoutValue := some "kept as literal text"
  result fragments := String.join fragments.toList
  isLive := false

/-- The length of a text and the lengths of the values in it. -/
structure Lengths where
  /-- The number of characters of the whole text. -/
  total : Int
  /-- The width of every value, in order. -/
  widths : Array Int
  deriving DecidableEq, Repr

/-- The total and then the widths. -/
def Lengths.toList (l : Lengths) : List Int :=
  l.total :: l.widths.toList

/-- The lengths of the rendered text, which is not built. Literal characters and escapes count one
each. -/
def measure : Interpretation Lengths Lengths where
  name := "measure_lengths"
  start := ⟨0, #[]⟩
  handle values l
    | .literal _ => { l with total := l.total + 1 }
    | .escape _ => { l with total := l.total + 1 }
    | .key name format source =>
      match values.value? name with
      | some value =>
        let width := format.layoutWidth value
        ⟨l.total + width, l.widths.push width⟩
      | none => { l with total := l.total + source.text.length }
    | .malformed source => { l with total := l.total + source.text.length }
  withoutValue := some "measured as literal text"
  result := id
  isLive := true

/-- The keys of all placeholders in order, whether or not they have a value. -/
def keys : Interpretation (Array String) (List String) where
  name := "extract_placeholder_keys"
  start := #[]
  handle _ names
    | .key name _ _ => names.push name
    | .literal _ | .escape _ | .malformed _ => names
  withoutValue := none
  result := Array.toList
  isLive := true

/-- The events themselves. -/
def record : Interpretation (Array Event) (List Event) where
  name := "record_events"
  start := #[]
  handle _ events event := events.push event
  withoutValue := none
  result := Array.toList
  isLive := true

/-- What the log says about an event: malformed stretches, and keys without a value where the
interpretation wants them mentioned. -/
def notice? {σ β : Type} (i : Interpretation σ β) (values : Mapping) : Event → Option Log.Record
  | .malformed source => some ⟨"percentfmt.engine", .debug,
      "malformed placeholder at " ++ toString source.start ++ " kept as literal "
        ++ Text.quoted source.text⟩
  | .key name _ _ =>
    if values.defines name then none
    else i.withoutValue.map fun what => ⟨"percentfmt.tasks", .debug,
      "unresolved placeholder key " ++ Text.quoted name ++ " " ++ what⟩
  | .literal _ | .escape _ => none

/-- What the log says when a text is about to be scanned. -/
def opening {σ β : Type} (i : Interpretation σ β) (text : String) : Log.Record :=
  ⟨"percentfmt.engine", .debug,
    "scan start task=" ++ i.name ++ " chars=" ++ toString text.length⟩

end Interpretation

end PercentTemplate
