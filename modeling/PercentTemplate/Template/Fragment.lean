import PercentTemplate.Mapping
import PercentTemplate.Template.Event
import PercentTemplate.Template.Layout

/-!
# Fragments

What single events contribute to a rendered template: the text of every event, and the laid out
values of the keys that have one.

## Main definitions

- `Event.text` — the text that an event becomes
- `Event.fragment?` — the laid out value of a key placeholder
- `Event.key?` — the key of a key placeholder
-/

namespace PercentTemplate.Event

/-- The laid out value of a key placeholder whose key has one. -/
def fragment? (values : Mapping) : Event → Option String
  | key name format _ => (values.value? name).map format.layout
  | literal _ | escape _ | malformed _ => none

/-- The text that an event becomes. A placeholder without a value stays as it is written. -/
def text (values : Mapping) (e : Event) : String :=
  match e with
  | literal s | escape s => s
  | key _ _ source => (e.fragment? values).getD source.text
  | malformed source => source.text

/-- The key of a key placeholder. -/
def key? : Event → Option String
  | key name _ _ => some name
  | literal _ | escape _ | malformed _ => none

/-- The text of events in a row. -/
def textAll (values : Mapping) (es : List Event) : String := String.join (es.map (text values))

/-- A key placeholder has a fragment exactly if its key has a value. -/
theorem isSome_fragment? (values : Mapping) (e : Event) :
    (e.fragment? values).isSome = e.key?.any values.defines := by
  cases e <;> simp [fragment?, key?, Mapping.defines]

theorem text_of_fragment? {values : Mapping} {e : Event} {s : String}
    (h : e.fragment? values = some s) : e.text values = s := by
  cases e with
  | key => simp [text, h]
  | literal | escape | malformed => cases h

end PercentTemplate.Event
