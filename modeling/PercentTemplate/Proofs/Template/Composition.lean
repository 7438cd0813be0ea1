import PercentTemplate.Proofs.Template.Course
import PercentTemplate.Proofs.Template.Recovery
import PercentTemplate.Proofs.Template.Stream

/-!
# Composition of templates

A scan sees one character beyond what it consumes, and nothing at all beyond a placeholder that it
recognises. So it goes through a template in the same way if more text follows, unless an attempt
was given up at the very end (`Course.extend`), and what follows is scanned as it would be on its
own, at another offset (`Course.shift`) and under the format that is pending there.

Main statement: the scan of a text behind another one reports what the two scans report
(`Template.scan_append`).
-/

namespace PercentTemplate

open Placeholder (Attempt)

/-! Offsets: what a scan reports if `n` more characters come first. -/

def Stretch.shift (n : Nat) (s : Stretch) : Stretch := ⟨n + s.start, s.text⟩

def Event.shift (n : Nat) : Event → Event
  | literal text => literal text
  | escape text => escape text
  | key name format source => key name format (source.shift n)
  | malformed source => malformed (source.shift n)

def Lap.shift (n : Nat) (l : Lap) : Lap where
  source := l.source.shift n
  pending := l.pending
  events := l.events.map (Event.shift n)
  format := l.format

theorem Placeholder.shift_lap (n : Nat) (p : Placeholder) (offset : Nat) (pending : Format)
    (cs : List Char) : (p.lap offset pending cs).shift n = p.lap (n + offset) pending cs := by
  cases p <;> rfl

/-- A scan does not depend on where it starts. -/
theorem Course.shift {offset : Nat} {pending : Format} {cs rest : List Char} {laps : List Lap}
    (h : Course offset pending cs laps rest) (n : Nat) :
    Course (n + offset) pending cs (laps.map (Lap.shift n)) rest := by
  induction h with
  | done => exact .done
  | literal hc _ ih => exact .literal hc (by rwa [Nat.add_assoc])
  | attempt ha _ ih =>
    rw [List.map_cons, Placeholder.shift_lap]
    exact .attempt ha (by rwa [Nat.add_assoc])

theorem Lap.flatMap_events_shift (n : Nat) (laps : List Lap) :
    (laps.map (Lap.shift n)).flatMap Lap.events = (laps.flatMap Lap.events).map (Event.shift n) := by
  rw [List.flatMap_map, List.map_flatMap]
  rfl

/-! Formats. -/

/-- Under another pending format a scan goes the same way and reports the same keys. -/
theorem Course.exists_under {offset : Nat} {pending : Format} {cs rest : List Char}
    {laps : List Lap} (h : Course offset pending cs laps rest) (pending' : Format) :
    ∃ laps', Course offset pending' cs laps' rest
      ∧ (laps'.flatMap Lap.events).filterMap Event.key?
        = (laps.flatMap Lap.events).filterMap Event.key? := by
  induction h generalizing pending' with
  | done => exact ⟨[], .done, rfl⟩
  | literal hc _ ih =>
    obtain ⟨laps', hcourse, hkeys⟩ := ih pending'
    exact ⟨_, .literal hc hcourse, hkeys⟩
  | @attempt _ _ used _ _ p _ ha _ ih =>
    obtain ⟨laps', hcourse, hkeys⟩ := ih (p.leaves pending')
    refine ⟨_, .attempt ha hcourse, ?_⟩
    rw [List.flatMap_cons, List.flatMap_cons, List.filterMap_append, List.filterMap_append, hkeys]
    cases p <;> rfl

/-! More text. -/

/-- An attempt does not notice text that follows, unless it has been given up at the end. -/
theorem Placeholder.Attempt.append {used rest : List Char} {p : Placeholder}
    (h : Attempt used p rest) (hend : rest = [] → ∀ ofKey, p ≠ malformed ofKey)
    (more : List Char) : Attempt used p (rest ++ more) := by
  cases rest with
  | nil =>
    obtain ⟨t, hvalid, rfl, hout⟩ := h.exists_token (hend rfl)
    exact Token.attempt_print hvalid hout more
  | cons x rest => exact h.of_head?_eq rfl

/-- A scan that gives up no attempt at the end goes the same way if more text follows. -/
theorem Course.extend {offset : Nat} {pending : Format} {cs : List Char} {laps : List Lap}
    (h : Course offset pending cs laps [])
    (hend : ∀ source, Event.malformed source ∈ laps.flatMap Lap.events →
      source.start + source.text.length ≠ offset + cs.length)
    (more : List Char) : Course offset pending (cs ++ more) laps more := by
  -- The text ends where the course ends, and this has to stay known in the induction.
  generalize hrest : [] = rest at h
  induction h with
  | done =>
    subst hrest
    exact .done
  | @literal offset pending c cs rest laps hc _ ih =>
    refine .literal hc (ih (fun source hsource => ?_) hrest)
    have hne := hend source (List.mem_append_right _ hsource)
    rwa [List.length_cons, Nat.add_comm cs.length, ← Nat.add_assoc] at hne
  | @attempt offset pending used cs rest p laps ha hcourse ih =>
    rw [List.append_assoc]
    refine .attempt (ha.append ?_ more) (ih (fun source hsource => ?_) hrest)
    · rintro rfl ofKey rfl
      -- The stretch of this attempt ends where the text ends.
      refine hend ⟨offset, String.ofList used⟩ (List.mem_append_left _ List.mem_cons_self) ?_
      rw [String.length_ofList, List.append_nil]
    · have hne := hend source (List.mem_append_right _ hsource)
      rwa [List.length_append, ← Nat.add_assoc] at hne

namespace Event

variable (values : Mapping) (n : Nat) (es : List Event)

theorem textAll_shift : textAll values (es.map (shift n)) = textAll values es := by
  rw [textAll, List.map_map]
  congr 1
  exact List.map_congr_left fun e _ => by cases e <;> rfl

theorem widths_shift : widths values (es.map (shift n)) = widths values es := by
  rw [widths, List.filterMap_map]
  congr 1
  exact List.filterMap_congr fun e _ => by cases e <;> rfl

theorem filterMap_key?_shift : (es.map (shift n)).filterMap key? = es.filterMap key? := by
  rw [List.filterMap_map]
  exact List.filterMap_congr fun e _ => by cases e <;> rfl

end Event

namespace Template

/-- What a scan reports about a text that begins under a pending format. -/
def eventsUnder (pending : Format) (text : String) : Except Integer.Fault (List Event) :=
  match Session.scan .record { Session.start .record [] text false with format := pending } with
  | (_, some f) => .error f
  | (s, none) => .ok s.state.toList

/-- The format that is pending at the end of a scan. -/
def pendingBehind (text : String) : Format :=
  ((Session.start .record [] text false).scan .record).1.format

variable {text : String} {laps : List Lap}

theorem eventsUnder_of_course {pending : Format} (h : Course 0 pending text.toList laps []) :
    eventsUnder pending text = .ok (laps.flatMap Lap.events) := by
  have hstart : Course 0 pending (Cursor.ofString text).rest laps [] := by
    rwa [Cursor.rest_ofString]
  obtain ⟨t, hruns, -, hrest⟩ :=
    Session.exists_runs .record (s := { Session.start .record [] text false with format := pending })
      (Cursor.isSound_ofString text) hstart
  rw [eventsUnder, hruns.scan_eq, Session.scan_of_rest_eq_nil _ hrest]
  simp only [hruns.state_eq, Session.foldl_record]
  simp [Session.start, Interpretation.record]

theorem pendingBehind_of_course (h : Course 0 Format.unset text.toList laps []) :
    pendingBehind text = Lap.leaves Format.unset laps := by
  obtain ⟨t, hruns, -, hrest⟩ := exists_runs_start .record [] false h
  rw [pendingBehind, hruns.scan_eq, Session.scan_of_rest_eq_nil _ hrest, hruns.format_eq]
  rfl

/-- Templates compose. If no attempt is given up at the very end of a template, the scan of a longer
text that begins with it reports what the scan of the template reports and then what the scan of the
other text reports under the format that is pending there. So the keys of the two are joined, and if
no format is pending there, so are the rendered texts and the lengths. -/
theorem scan_append {s t : String} {es et : List Event} (hs : events s = .ok es)
    (ht : events t = .ok et)
    (hend : ∀ source, Event.malformed source ∈ es →
      source.start + source.text.length ≠ s.length)
    (values : Mapping) :
    (∃ et', eventsUnder (pendingBehind s) t = .ok et'
      ∧ events (s ++ t) = .ok (es ++ et'.map (Event.shift s.length)))
    ∧ (∃ ks kt, keys s = .ok ks ∧ keys t = .ok kt ∧ keys (s ++ t) = .ok (ks ++ kt))
    ∧ (pendingBehind s = Format.unset →
      (∃ rs rt, render values s = .ok rs ∧ render values t = .ok rt
        ∧ render values (s ++ t) = .ok (rs ++ rt))
      ∧ ∃ ls lt, measure values s = .ok ls ∧ measure values t = .ok lt
        ∧ measure values (s ++ t) = .ok ⟨ls.total + lt.total, ls.widths ++ lt.widths⟩) := by
  obtain ⟨hcourse, rfl⟩ := course_laps hs
  obtain ⟨hcourse', rfl⟩ := course_laps ht
  obtain ⟨behind, hbehind, hkeys⟩ := hcourse'.exists_under (pendingBehind s)
  have hjoined : events (s ++ t) = .ok ((Template.laps s).flatMap Lap.events
      ++ (behind.flatMap Lap.events).map (Event.shift s.length)) := by
    -- No attempt runs into the end of `s`, so the laps of `s` are the first ones of the longer text.
    have hfirst : Course 0 Format.unset (s.toList ++ t.toList) (Template.laps s) t.toList := by
      refine hcourse.extend (fun source hsource => ?_) t.toList
      rw [Nat.zero_add, String.length_toList]
      exact hend source hsource
    have hchars : ((Template.laps s).flatMap Lap.chars).length = s.length := by
      rw [← String.length_toList, hcourse.eq_append, List.append_nil]
    have hsecond := hbehind.shift s.length
    rw [pendingBehind_of_course hcourse, Nat.add_zero] at hsecond
    rw [← Lap.flatMap_events_shift, ← List.flatMap_append]
    refine events_of_course ?_
    rw [String.toList_append]
    exact hfirst.append (by rwa [hchars, Nat.zero_add])
  refine ⟨⟨_, eventsUnder_of_course hbehind, hjoined⟩, ?_, fun hunset => ?_⟩
  · refine ⟨_, _, keys_of_events hs, keys_of_events ht, ?_⟩
    rw [keys_of_events hjoined, List.filterMap_append, Event.filterMap_key?_shift, hkeys]
  · -- Under no format the second text is scanned as it is on its own.
    have hsame : behind.flatMap Lap.events = (Template.laps t).flatMap Lap.events := by
      rw [hunset] at hbehind
      exact Except.ok.inj ((events_of_course hbehind).symm.trans ht)
    rw [hsame] at hjoined
    constructor
    · refine ⟨_, _, render_of_events hs values, render_of_events ht values, ?_⟩
      rw [render_of_events hjoined, Event.textAll_append, Event.textAll_shift]
    · refine ⟨_, _, measure_eq values hs, measure_eq values ht, ?_⟩
      rw [measure_eq values hjoined, Event.textAll_append, Event.textAll_shift,
        Event.widths_append, Event.widths_shift, String.length_append]
      simp

/-- A directive at the end of a text stays pending for the text behind it; with an escape there
instead, the rendered texts are joined. -/
theorem scan_append_pending :
    (∃ et', eventsUnder (pendingBehind "%q%<(4)") "%(a)%(" = .ok et'
      ∧ events ("%q%<(4)" ++ "%(a)%(") = .ok ([.malformed ⟨0, "%q"⟩]
        ++ et'.map (Event.shift "%q%<(4)".length)))
      ∧ render [("a", "x")] ("%q%%" ++ "%(a)%(") = .ok ("%q%" ++ "x%(") := by
  have hfirst : events "%q%<(4)" = .ok [.malformed ⟨0, "%q"⟩] :=
    events_of_toOption (by decide +kernel)
  have hother : events "%q%%" = .ok [.malformed ⟨0, "%q"⟩, .escape "%"] :=
    events_of_toOption (by decide +kernel)
  have hsecond : events "%(a)%("
      = .ok [.key "a" Format.unset ⟨0, "%(a)"⟩, .malformed ⟨4, "%("⟩] :=
    events_of_toOption (by decide +kernel)
  have hend : ∀ source, source = (⟨0, "%q"⟩ : Stretch) →
      source.start + source.text.length ≠ "%q%<(4)".length
        ∧ source.start + source.text.length ≠ "%q%%".length := by
    rintro source rfl
    decide
  refine ⟨(scan_append hfirst hsecond (fun source h => (hend source (by simpa using h)).1)
    [("a", "x")]).1, ?_⟩
  obtain ⟨⟨rs, rt, hrs, hrt, hjoined⟩, -⟩ :=
    (scan_append hother hsecond (fun source h => (hend source (by simpa using h)).2)
      [("a", "x")]).2.2 (by decide +kernel)
  rw [render_of_events hother] at hrs
  rw [render_of_events hsecond] at hrt
  obtain rfl := Except.ok.inj hrs
  obtain rfl := Except.ok.inj hrt
  exact hjoined.trans (congrArg Except.ok (by decide +kernel))

end Template

end PercentTemplate
