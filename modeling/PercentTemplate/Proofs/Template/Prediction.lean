import PercentTemplate.Proofs.Template.Layout
import PercentTemplate.Proofs.Template.Pending
import PercentTemplate.Template.Fragment

/-!
# Measuring predicts rendering

Rendering and measuring a template are two folds of its events. The rendered text is what the events
become, one after the other; the lengths measured are its length and those of the laid out values in
it, in order (`Template.measure_predicts_render`).
-/

namespace PercentTemplate

open Interpretation (Lengths)

namespace Event

theorem textAll_append (values : Mapping) (es es' : List Event) :
    textAll values (es ++ es') = textAll values es ++ textAll values es' := by
  rw [textAll, List.map_append, String.join_append]
  rfl

theorem textAll_cons (values : Mapping) (e : Event) (es : List Event) :
    textAll values (e :: es) = e.text values ++ textAll values es :=
  String.join_cons

theorem join_push (fragments : Array String) (s : String) :
    String.join (fragments.push s).toList = String.join fragments.toList ++ s := by
  rw [Array.toList_push, String.join_append, String.join_cons, String.join_nil,
    String.append_empty]

theorem join_keep (fragments : Array String) (source : Stretch) :
    String.join (Interpretation.keep fragments source).toList
      = String.join fragments.toList ++ source.text := by
  unfold Interpretation.keep
  split
  · rename_i hempty
    rw [String.isEmpty_iff.1 hempty, String.append_empty]
  · exact join_push fragments source.text

/-- One event makes the rendered text longer by the text that it becomes. -/
theorem join_handle_render (values : Mapping) (fragments : Array String) (e : Event) :
    String.join (Interpretation.render.handle values fragments e).toList
      = String.join fragments.toList ++ e.text values := by
  cases e with
  | literal s => exact join_push fragments s
  | escape s => exact join_push fragments s
  | malformed source => exact join_keep fragments source
  | key name format source =>
    cases hvalue : values.value? name with
    | none =>
      simpa only [Interpretation.render, text, fragment?, hvalue, Option.map_none,
        Option.getD_none] using join_keep fragments source
    | some value =>
      simpa only [Interpretation.render, text, fragment?, hvalue, Option.map_some,
        Option.getD_some] using join_push fragments (format.layout value)

theorem join_foldl_render (values : Mapping) (es : List Event) (fragments : Array String) :
    String.join (es.foldl (Interpretation.render.handle values) fragments).toList
      = String.join fragments.toList ++ textAll values es := by
  induction es generalizing fragments with
  | nil => exact (String.append_empty).symm
  | cons e es ih => rw [List.foldl_cons, ih, join_handle_render, textAll_cons, String.append_assoc]

/-- The lengths of the laid out values in a text, in order. -/
def widths (values : Mapping) (es : List Event) : List Int :=
  (es.filterMap (fragment? values)).map fun s => (s.length : Int)

/-- An event that is counted as it is rendered: a single character, or a key under a format whose
cut has room for the ellipsis. -/
def IsCounted : Event → Prop
  | literal s | escape s => s.length = 1
  | key _ format _ => format.truncates = true → 1 ≤ format.width
  | malformed _ => True

theorem IsScanned.isCounted {e : Event} (h : e.IsScanned) : e.IsCounted := by
  cases e with
  | literal | escape => exact h
  | key name format source =>
    have hpending : format.IsPending := h
    exact hpending.one_le_width
  | malformed => trivial

/-- One event adds the length of its text, and its width if it is that of a value. -/
theorem handle_measure (values : Mapping) (l : Lengths) {e : Event} (h : e.IsCounted) :
    Interpretation.measure.handle values l e
      = ⟨l.total + (e.text values).length, l.widths ++ (widths values [e]).toArray⟩ := by
  cases e with
  | literal s | escape s =>
    have hlength : s.length = 1 := h
    simp [Interpretation.measure, text, widths, fragment?, hlength]
  | malformed source => simp [Interpretation.measure, text, widths, fragment?]
  | key name format source =>
    cases hvalue : values.value? name with
    | none => simp [Interpretation.measure, text, widths, fragment?, hvalue]
    | some value =>
      have hlayout := Format.length_layout h value
      simp [Interpretation.measure, text, widths, fragment?, hvalue, hlayout]

theorem widths_append (values : Mapping) (es es' : List Event) :
    widths values (es ++ es') = widths values es ++ widths values es' := by
  rw [widths, List.filterMap_append, List.map_append]
  rfl

theorem widths_cons (values : Mapping) (e : Event) (es : List Event) :
    widths values (e :: es) = widths values [e] ++ widths values es :=
  widths_append values [e] es

theorem foldl_measure (values : Mapping) {es : List Event} (h : ∀ e ∈ es, e.IsCounted)
    (l : Lengths) :
    es.foldl (Interpretation.measure.handle values) l
      = ⟨l.total + (textAll values es).length, l.widths ++ (widths values es).toArray⟩ := by
  induction es generalizing l with
  | nil => simp [textAll, widths]
  | cons e es ih =>
    rw [List.foldl_cons, ih fun x hx => h x (List.mem_cons_of_mem e hx),
      handle_measure values l (h e List.mem_cons_self), textAll_cons, widths_cons values e es]
    simp [Int.add_assoc]

end Event

namespace Template

theorem render_eq (values : Mapping) (text : String) :
    render values text = (events text).map (Event.textAll values) := by
  rw [render, value_interpret]
  congr 1
  funext es
  have hjoin := Event.join_foldl_render values es #[]
  simpa [Interpretation.render] using hjoin

theorem measure_eq (values : Mapping) {text : String} {es : List Event}
    (h : events text = .ok es) :
    measure values text
      = .ok ⟨((Event.textAll values es).length : Int), (Event.widths values es).toArray⟩ := by
  have hcounted : ∀ e ∈ es, e.IsCounted := fun e he => (isScanned_of_events h e he).isCounted
  rw [measure, value_interpret, h, Except.map]
  have hfold := Event.foldl_measure values hcounted ⟨0, #[]⟩
  rw [Int.zero_add, Array.empty_append] at hfold
  exact congrArg Except.ok hfold

/-- Measuring foretells rendering: the first number is the length of the rendered text, and the
others are the lengths of the values in it, one for every placeholder whose key has a value. Both
come to a result if the scan returns, which it does unless a width has too many digits. -/
theorem measure_predicts_render (values : Mapping) (text : String) :
    (∀ es, events text = .ok es → ∃ rendered lengths,
      render values text = .ok rendered ∧ measure values text = .ok lengths
        ∧ rendered = String.join (es.map (Event.text values))
        ∧ lengths.toList = (rendered.length : Int)
          :: (es.filterMap (Event.fragment? values)).map fun s => (s.length : Int))
    ∧ ((∀ before rest digits, text.toList = before ++ rest →
        ¬Placeholder.IsRefused digits rest) → ∃ es, events text = .ok es) := by
  refine ⟨?_, exists_events⟩
  intro es h
  refine ⟨_, _, ?_, measure_eq values h, rfl, rfl⟩
  rw [render_eq, h]
  rfl

/-- A value that is cut behind a failed directive, an escape, and a key without a value. -/
theorem measure_predicts_render_mixed :
    ∃ es rendered lengths, events "%<(3,trunc)%<(0)%%%(a)%(b)" = .ok es
      ∧ render [("a", "value")] "%<(3,trunc)%<(0)%%%(a)%(b)" = .ok rendered
      ∧ measure [("a", "value")] "%<(3,trunc)%<(0)%%%(a)%(b)" = .ok lengths
      ∧ rendered = "%<(0)%va…%(b)" ∧ lengths.toList = [13, 3] := by
  have hevents : events "%<(3,trunc)%<(0)%%%(a)%(b)" = .ok
      [.malformed ⟨11, "%<("⟩, .literal "0", .literal ")", .escape "%",
        .key "a" ⟨.leftTrunc, 3⟩ ⟨18, "%(a)"⟩, .key "b" .unset ⟨22, "%(b)"⟩] :=
    events_of_toOption (by decide +kernel)
  obtain ⟨rendered, lengths, hrendered, hlengths, htext, hlist⟩ :=
    (measure_predicts_render [("a", "value")] "%<(3,trunc)%<(0)%%%(a)%(b)").1 _ hevents
  have hjoin : rendered = "%<(0)%va…%(b)" := htext.trans (by decide +kernel)
  refine ⟨_, rendered, lengths, hevents, hrendered, hlengths, hjoin, ?_⟩
  rw [hlist, hjoin]
  decide +kernel

end Template

end PercentTemplate
