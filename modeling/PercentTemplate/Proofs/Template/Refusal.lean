import PercentTemplate.Proofs.Report.Summary
import PercentTemplate.Proofs.Template.Course

/-!
# Refused templates

A scan has one fault: a width with more digits than are converted to a number. Every other text is
scanned to its end, and what is malformed in it is kept as it is. A width above its bound is
malformed like anything else, unless it has too many digits as well.

Main statement: rendering, measuring, listing keys and summarising return together, unless the scan
comes to a width of too many digits, which fails all of them alike
(`Template.results_unless_long_width`).
-/

namespace PercentTemplate.Template

open Text (Stops stops_cons)
open Placeholder (IsRefused IsWidth Side opening)

variable {text : String} {digits : Nat}

/-- The scan of a text comes to a width of so many digits, too many to be converted. -/
def ComesToLongWidth (text : String) (digits : Nat) : Prop :=
  ∃ s, Session.Reaches .record (Session.start .record [] text false) s
    ∧ IsRefused digits s.cursor.rest

/-- A width of too many digits is a fault of every interpretation under all values. -/
theorem ComesToLongWidth.interpret_eq {σ β : Type} (h : ComesToLongWidth text digits)
    (i : Interpretation σ β) (values : Mapping) (tracing : Bool) :
    (interpret i values text tracing).value = .error (.literalTooLong digits) := by
  obtain ⟨s, hreaches, hrefused⟩ := h
  obtain ⟨laps, -, hcourse⟩ := exists_course_of_reaches hreaches
  exact interpret_of_isRefused i values tracing hcourse hrefused

theorem ComesToLongWidth.results_eq (h : ComesToLongWidth text digits) (values : Mapping) :
    render values text = .error (.literalTooLong digits)
      ∧ measure values text = .error (.literalTooLong digits)
      ∧ keys text = .error (.literalTooLong digits)
      ∧ summarize values text = .error (.width (.literalTooLong digits)) := by
  have hmeasure := h.interpret_eq .measure values false
  exact ⟨h.interpret_eq .render values false, hmeasure, h.interpret_eq .keys [] false,
    summarize_of_fault hmeasure⟩

theorem exists_events_of_not_comesToLongWidth (h : ∀ digits, ¬ComesToLongWidth text digits) :
    ∃ es, events text = .ok es := by
  obtain ⟨laps, rest, hcourse, hend⟩ := exists_course 0 Format.unset text.toList
  rcases hend with rfl | ⟨digits, hrefused⟩
  · exact ⟨_, events_of_course hcourse⟩
  · -- The course leads the scan to the place where it is refused.
    obtain ⟨s, hruns, -, rfl⟩ := exists_runs_start .record [] false hcourse
    exact absurd ⟨s, hruns.reaches, hrefused⟩ (h digits)

/-- A stretch that no token is written as is reported as a whole. -/
theorem events_eq_of_forall_print_ne {es : List Event} {l : Lap} (h : events text = .ok es)
    (hl : l ∈ laps text) (hne : ∀ t : Token, t.IsValid → t.print ≠ l.chars) :
    l.events = [.malformed l.source] := by
  obtain ⟨hcourse, -⟩ := course_laps h
  rcases hcourse.isToken_or_isMalformed l hl with ⟨t, ht⟩ | hmalformed
  · exact absurd ht.print_eq (hne t ht.isValid)
  · exact hmalformed.events_eq

/-- A text is rendered, measured, searched for keys and summarised, whatever it is, unless the scan
comes to a width of too many digits, which fails all four with the number of the digits. In a text
without such a width every stretch that no token is written as is reported as a whole and stands
unchanged in the rendered text. -/
theorem results_unless_long_width (values : Mapping) (text : String) :
    (∀ digits, ComesToLongWidth text digits →
      render values text = .error (.literalTooLong digits)
        ∧ measure values text = .error (.literalTooLong digits)
        ∧ keys text = .error (.literalTooLong digits)
        ∧ summarize values text = .error (.width (.literalTooLong digits)))
    ∧ ((∀ digits, ¬ComesToLongWidth text digits) →
      ∃ rendered lengths names summary, render values text = .ok rendered
        ∧ measure values text = .ok lengths ∧ keys text = .ok names
        ∧ summarize values text = .ok summary
        ∧ ∀ before l after, laps text = before ++ l :: after →
          (∀ t : Token, t.IsValid → t.print ≠ l.chars) →
          l.events = [.malformed l.source]
            ∧ rendered = Event.textAll values (before.flatMap Lap.events) ++ l.source.text
              ++ Event.textAll values (after.flatMap Lap.events)) := by
  refine ⟨fun digits h => h.results_eq values, fun h => ?_⟩
  obtain ⟨es, hes⟩ := exists_events_of_not_comesToLongWidth h
  refine ⟨_, _, _, _, render_of_events hes values, measure_eq values hes, keys_of_events hes,
    summarize_of_events hes values, ?_⟩
  intro before l after hlaps hne
  have hl := events_eq_of_forall_print_ne hes (by simp [hlaps]) hne
  refine ⟨hl, ?_⟩
  obtain ⟨-, rfl⟩ := course_laps hes
  have hsource : Event.textAll values [.malformed l.source] = l.source.text := by
    simp [Event.textAll, Event.text]
  rw [hlaps, List.flatMap_append, List.flatMap_cons, hl, Event.textAll_append,
    Event.textAll_append, hsource, String.append_assoc]

/-- A width above its bound is kept as it is. -/
theorem results_unless_long_width_above :
    (∀ digits, ¬ComesToLongWidth "%<(4294967296)%(a)" digits)
      ∧ ∃ rendered, render [("a", "v")] "%<(4294967296)%(a)" = .ok rendered
        ∧ rendered = "%<(4294967296" ++ ")v" := by
  have hevents : events "%<(4294967296)%(a)" = .ok [.malformed ⟨0, "%<(4294967296"⟩,
      .literal ")", .key "a" Format.unset ⟨14, "%(a)"⟩] :=
    events_of_toOption (by decide +kernel)
  have hshort : ∀ digits, ¬ComesToLongWidth "%<(4294967296)%(a)" digits := by
    intro digits h
    have hkeys := ((results_unless_long_width [] _).1 digits h).2.2.1
    rw [keys_of_events hevents] at hkeys
    cases hkeys
  refine ⟨hshort, ?_⟩
  obtain ⟨rendered, -, -, -, hrender, -⟩ := (results_unless_long_width [("a", "v")] _).2 hshort
  refine ⟨rendered, hrender, ?_⟩
  rw [render_of_events hevents] at hrender
  exact (Except.ok.inj hrender).symm.trans (by decide +kernel)

/-- The scan of a text comes to a width of too many digits if the text begins with it. -/
theorem comesToLongWidth_of_opening {side : Side} {before : Nat} {width rest : List Char}
    (h : text.toList = opening side before width 0 ++ rest) (hwidth : IsWidth width)
    (hlength : width.length = digits) (hdigits : Integer.maxDigits < digits)
    (hrest : Stops Char.isDigit rest) : ComesToLongWidth text digits := by
  refine ⟨_, .refl, side, before, width, rest, ?_, hwidth, hlength, hdigits, hrest⟩
  exact (Cursor.rest_ofString text).trans h

theorem isWidth_replicate_one {n : Nat} (h : 0 < n) : IsWidth (List.replicate n '1') := by
  obtain ⟨m, rfl⟩ := Nat.exists_eq_add_of_lt h
  refine ⟨'1', List.replicate (0 + m) '1', List.replicate_succ, by decide, fun c hc => ?_⟩
  rw [List.eq_of_mem_replicate hc]
  rfl

/-- A width of ones is above its bound long before it has too many digits, but then it is not
kept. -/
theorem results_of_4301_digits :
    ∃ text : String, text.toList = "%<(".toList ++ List.replicate 4301 '1' ++ [')']
      ∧ render [] text = .error (.literalTooLong 4301)
      ∧ measure [] text = .error (.literalTooLong 4301)
      ∧ keys text = .error (.literalTooLong 4301)
      ∧ summarize [] text = .error (.width (.literalTooLong 4301)) := by
  refine ⟨_, String.toList_ofList, ComesToLongWidth.results_eq ?_ []⟩
  have htext : (String.ofList ("%<(".toList ++ List.replicate 4301 '1' ++ [')'])).toList
      = opening .left 0 (List.replicate 4301 '1') 0 ++ [')'] := by
    rw [String.toList_ofList]
    -- The digits are not looked at.
    generalize List.replicate 4301 '1' = width
    simp [opening, Directive.spaces, Side.sign]
  exact comesToLongWidth_of_opening htext (isWidth_replicate_one (by decide))
    List.length_replicate (by decide) (stops_cons.2 (by decide))

end PercentTemplate.Template
