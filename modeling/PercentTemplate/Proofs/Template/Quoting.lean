import PercentTemplate.Proofs.Template.Language
import PercentTemplate.Proofs.Template.Stream
import PercentTemplate.Template.Quote

/-!
# Quoted text

A quoted text is the written form of one token for each of its characters: a doubled percent sign is
an escape, and every other character stands for itself (`Token.printAll_map_ofChar`). A scan pairs
the percent signs as they were doubled, so it never comes to a placeholder, whatever the text looks
like.

Main statement: a quoted text is a template for the text itself (`Template.quote_stands_for_text`).
-/

namespace PercentTemplate

/-- The token that is a character in a quoted text. -/
def Token.ofChar (c : Char) : Token := if c = '%' then percent else literal c

/-- What a scan reports about a character of a quoted text. -/
def Event.ofChar (c : Char) : Event :=
  if c = '%' then escape (String.singleton c) else literal (String.singleton c)

namespace Token

theorem isValid_ofChar (c : Char) : (ofChar c).IsValid := by
  unfold ofChar
  split
  · trivial
  · rename_i hc
    exact hc

theorem print_ofChar (c : Char) : (ofChar c).print = Template.quoteChar c := by
  unfold ofChar Template.quoteChar
  split <;> rfl

theorem printAll_map_ofChar (cs : List Char) :
    printAll (cs.map ofChar) = Template.quoteChars cs := by
  rw [printAll, List.flatMap_map, Template.quoteChars]
  congr 1
  funext c
  exact print_ofChar c

theorem events_ofChar (offset : Nat) (pending : Format) (c : Char) :
    events offset pending [ofChar c] = [Event.ofChar c] := by
  unfold ofChar Event.ofChar
  split
  · rename_i hc
    subst hc
    rfl
  · rfl

/-- No character of a quoted text is a directive or a key, so that the pending format stays. -/
theorem leaves_ofChar (pending : Format) (c : Char) : (ofChar c).leaves pending = pending := by
  unfold ofChar
  split <;> rfl

theorem events_map_ofChar (offset : Nat) (pending : Format) (cs : List Char) :
    events offset pending (cs.map ofChar) = cs.map Event.ofChar := by
  induction cs generalizing offset with
  | nil => rfl
  | cons c cs ih =>
    rw [List.map_cons, events_cons, events_ofChar, leaves_ofChar, ih]
    rfl

end Token

namespace Event

variable {values : Mapping}

theorem text_ofChar (c : Char) : (ofChar c).text values = String.singleton c := by
  unfold ofChar
  split <;> rfl

theorem fragment?_ofChar (c : Char) : (ofChar c).fragment? values = none := by
  unfold ofChar
  split <;> rfl

theorem key?_ofChar (c : Char) : (ofChar c).key? = none := by
  unfold ofChar
  split <;> rfl

theorem ofChar_ne_malformed (c : Char) (source : Stretch) : ofChar c ≠ malformed source := by
  unfold ofChar
  split <;> rintro ⟨⟩

theorem textAll_map_ofChar (cs : List Char) :
    textAll values (cs.map ofChar) = String.ofList cs := by
  induction cs with
  | nil => rfl
  | cons c cs ih =>
    rw [List.map_cons, textAll_cons, text_ofChar, ih, String.singleton_eq_ofList,
      ← String.ofList_append, List.singleton_append]

theorem widths_map_ofChar (cs : List Char) : widths values (cs.map ofChar) = [] := by
  have hnone : (cs.map ofChar).filterMap (fragment? values) = [] := by
    rw [List.filterMap_map, List.filterMap_eq_nil_iff]
    exact fun c _ => fragment?_ofChar c
  rw [widths, hnone, List.map_nil]

end Event

namespace Template

/-- A scan goes through a quoted text character by character. -/
theorem events_quote (s : String) : events (quote s) = .ok (s.toList.map Event.ofChar) := by
  have hvalid : ∀ t ∈ s.toList.map Token.ofChar, t.IsValid := by
    intro t ht
    obtain ⟨c, -, rfl⟩ := List.mem_map.1 ht
    exact Token.isValid_ofChar c
  have hcourse := Token.course_printAll hvalid 0 Format.unset
  rw [Token.printAll_map_ofChar] at hcourse
  rw [← Token.events_map_ofChar 0 Format.unset, ← Token.flatMap_events_laps]
  exact events_of_course (by rwa [quote, String.toList_ofList])

/-- Quoting changes a text exactly if there is a percent sign in it. -/
theorem quote_eq_self_iff (s : String) : quote s = s ↔ '%' ∉ s.toList := by
  constructor
  · intro h hmem
    have hcount := count_quoteChars '%' s.toList
    rw [← String.toList_ofList (l := quoteChars s.toList), ← quote, h, if_pos rfl] at hcount
    have hpos := List.count_pos_iff.2 hmem
    omega
  · intro h
    rw [quote, quoteChars_eq_self h, String.ofList_toList]

/-- A text with every percent sign doubled is a template for the text itself, whatever values the
keys have: it renders to the text, its only length is that of the text, and it refers to no key. Its
scan reports one character after the other, no key placeholder and nothing malformed. A text without
a percent sign is its own quoted form. -/
theorem quote_stands_for_text (values : Mapping) (s : String) :
    render values (quote s) = .ok s
      ∧ (measure values (quote s)).map Interpretation.Lengths.toList = .ok [(s.length : Int)]
      ∧ keys (quote s) = .ok []
      ∧ events (quote s) = .ok (s.toList.map Event.ofChar)
      ∧ (∀ e ∈ s.toList.map Event.ofChar, e.key? = none ∧ ∀ source, e ≠ .malformed source)
      ∧ (quote s = s ↔ '%' ∉ s.toList) := by
  have hevents := events_quote s
  have htext : Event.textAll values (s.toList.map Event.ofChar) = s := by
    rw [Event.textAll_map_ofChar, String.ofList_toList]
  refine ⟨?_, ?_, ?_, hevents, ?_, quote_eq_self_iff s⟩
  · rw [render_of_events hevents, htext]
  · rw [measure_eq values hevents, htext, Event.widths_map_ofChar]
    rfl
  · have hnone : (s.toList.map Event.ofChar).filterMap Event.key? = [] := by
      rw [List.filterMap_map, List.filterMap_eq_nil_iff]
      exact fun c _ => Event.key?_ofChar c
    rw [keys_of_events hevents, hnone]
  · intro e he
    obtain ⟨c, -, rfl⟩ := List.mem_map.1 he
    exact ⟨Event.key?_ofChar c, Event.ofChar_ne_malformed c⟩

end Template

end PercentTemplate
