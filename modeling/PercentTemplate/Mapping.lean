import PercentTemplate.Keyed
import PercentTemplate.Text.Point

/-!
# Mappings

The values that placeholders stand for, under their keys. A mapping from a data file has texts of
code points; what a template sees of it is a mapping of texts of characters.

## Main definitions

- `Mapping` — texts under distinct keys, in the order of their first appearance
- `Mapping.seen` — what a template sees of a mapping from a data file
-/

namespace PercentTemplate

open Text (Points)

/-- Texts of the type `τ` under distinct keys. -/
abbrev Mapping (τ : Type := String) := List (τ × τ)

namespace Mapping

variable {τ : Type} [BEq τ]

def value? (values : Mapping τ) (key : τ) : Option τ :=
  Keyed.get? key values

def defines (values : Mapping τ) (key : τ) : Bool :=
  (values.value? key).isSome

/-- The mapping `values` with the entries of `news` set on top of it. -/
def override (values news : Mapping τ) : Mapping τ :=
  Keyed.putAll values news

/-- A mapping with its texts as texts of code points. -/
def wide (values : Mapping) : Mapping Points :=
  values.map fun e => (.ofString e.1, .ofString e.2)

/-- What a template sees of an entry: nothing if there is a surrogate in its key, which no template
names, and otherwise its value with the replacement character in place of surrogates. -/
def seenEntry (e : Points × Points) : Option (String × String) :=
  e.1.toChars?.map fun key => (String.ofList key, e.2.shown)

def seen (values : Mapping Points) : Mapping :=
  values.filterMap seenEntry

theorem seenEntry_ofString (e : String × String) :
    seenEntry (.ofString e.1, .ofString e.2) = some e := by
  simp [seenEntry, Points.ofString, Points.toChars?_ofChars, Points.shown_ofChars]

/-- Without surrogates a template sees all of a mapping. -/
theorem seen_wide (values : Mapping) : values.wide.seen = values := by
  rw [seen, wide, List.filterMap_map]
  exact (congrArg (values.filterMap ·) (funext seenEntry_ofString)).trans List.filterMap_some

end Mapping

end PercentTemplate
