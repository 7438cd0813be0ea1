import PercentTemplate.Proofs.Template.Reading
import PercentTemplate.Template.Scan

/-!
# Laps of a scan

What a scan does, turn by turn. A lap is the stretch that one turn consumes, the events that it
reports and the format that is pending before and after it. `Template.laps` observes them with the
interpretation that records its events; `Session.Runs` says that a scan with any interpretation goes
through given laps; `Course` describes the laps of a text without a cursor.

Main statements: every text has a course (`exists_course`), every interpretation runs through it
(`Session.exists_runs`), and so every result is a fold of the events (`Template.value_interpret`).
-/

namespace PercentTemplate

open Placeholder (Attempt)

/-- What one turn of a scan does. -/
structure Lap where
  /-- The stretch that it consumes. -/
  source : Stretch
  /-- The format that is pending before it. -/
  pending : Format
  /-- The events that it reports. -/
  events : List Event
  /-- The format that is pending after it. -/
  format : Format
  deriving DecidableEq, Repr

namespace Placeholder

/-- The events that the outcome of an attempt stands for. -/
def events (pending : Format) (source : Stretch) : Placeholder → List Event
  | escape c => [.escape (String.singleton c)]
  | key name => [.key name pending source]
  | directive _ => []
  | malformed _ => [.malformed source]

/-- The format that is pending after an attempt. -/
def leaves (pending : Format) : Placeholder → Format
  | escape _ | malformed false => pending
  | key _ | malformed true => Format.unset
  | directive f => f

/-- The lap of an attempt that consumes `cs`. -/
def lap (p : Placeholder) (offset : Nat) (pending : Format) (cs : List Char) : Lap where
  source := ⟨offset, String.ofList cs⟩
  pending := pending
  events := p.events pending ⟨offset, String.ofList cs⟩
  format := p.leaves pending

end Placeholder

/-- The lap of a character that stands for itself. -/
def Lap.literal (offset : Nat) (pending : Format) (c : Char) : Lap where
  source := ⟨offset, String.singleton c⟩
  pending := pending
  events := [.literal (String.singleton c)]
  format := pending

/-- A scan that has come to `cs` at an offset, under a pending format, goes through laps and comes to
`rest`. -/
inductive Course : Nat → Format → List Char → List Lap → List Char → Prop
  | done {offset : Nat} {pending : Format} {cs : List Char} : Course offset pending cs [] cs
  | literal {offset : Nat} {pending : Format} {c : Char} {cs rest : List Char} {laps : List Lap}
    (hc : c ≠ '%') (h : Course (offset + 1) pending cs laps rest) :
    Course offset pending (c :: cs) (Lap.literal offset pending c :: laps) rest
  | attempt {offset : Nat} {pending : Format} {used cs rest : List Char} {p : Placeholder}
    {laps : List Lap} (ha : Attempt used p cs)
    (h : Course (offset + used.length) (p.leaves pending) cs laps rest) :
    Course offset pending (used ++ cs) (p.lap offset pending used :: laps) rest

/-- The characters that a lap consumes. -/
def Lap.chars (l : Lap) : List Char := l.source.text.toList

/-- Laps that follow one another: each one starts where the one before it ends, under the format
that it leaves. -/
def Lap.Follow : Nat → Format → List Lap → Prop
  | _, _, [] => True
  | offset, pending, l :: laps =>
    l.source.start = offset ∧ l.pending = pending
      ∧ Follow (offset + l.chars.length) l.format laps

@[simp] theorem Lap.chars_literal (offset : Nat) (pending : Format) (c : Char) :
    (Lap.literal offset pending c).chars = [c] := by
  rw [chars, literal, String.toList_singleton]

@[simp] theorem Placeholder.chars_lap (p : Placeholder) (offset : Nat) (pending : Format)
    (cs : List Char) : (p.lap offset pending cs).chars = cs := by
  rw [Lap.chars, lap, String.toList_ofList]

namespace Session

variable {σ β : Type}

/-- Report events one after the other. -/
def emitAll (i : Interpretation σ β) (s : Session σ) (es : List Event) : Session σ :=
  es.foldl (emit i) s

/-- One turn takes the session `s` through a lap to `t`. -/
structure Performs (i : Interpretation σ β) (s : Session σ) (lap : Lap) (t : Session σ) : Prop where
  /-- The turn goes on with `t`. -/
  turn_eq : s.turn i = .next t
  /-- The lap starts at the cursor. -/
  start_eq : lap.source.start = s.cursor.position
  /-- The turn consumes what the lap consumes. -/
  passes : s.cursor.Passes lap.chars t.cursor
  /-- The lap begins under the format that is pending. -/
  pending_eq : lap.pending = s.format
  /-- The turn reports the events of the lap, leaves its format and changes nothing else. -/
  session_eq : t = { emitAll i { s with cursor := t.cursor } lap.events with format := lap.format }

/-- Turn by turn, a scan takes the session `s` through laps to `t`. -/
inductive Runs (i : Interpretation σ β) : Session σ → List Lap → Session σ → Prop
  | refl {s : Session σ} : Runs i s [] s
  | lap {s t u : Session σ} {lap : Lap} {laps : List Lap} (h : s.Performs i lap t)
    (hrest : Runs i t laps u) : Runs i s (lap :: laps) u

/-- What an interpretation that records its events sees of a turn from `s` to `t`. -/
def lapTo (s t : Session (Array Event)) : Lap where
  source := ⟨s.cursor.position, s.cursor.slice s.cursor.position t.cursor.position⟩
  pending := s.format
  events := t.state.toList.drop s.state.size
  format := t.format

/-- The laps of a scan that records its events. -/
def laps (s : Session (Array Event)) : List Lap :=
  match _h : s.turn .record with
  | .finished _ | .refused _ _ => []
  | .next t => s.lapTo t :: laps t
termination_by s.cursor.remaining
decreasing_by exact remaining_turn_lt _h

end Session

/-- The laps of the scan of a template. -/
def Template.laps (text : String) : List Lap := (Session.start .record [] text false).laps

namespace Session

variable {σ β : Type} {s t : Session σ}

/-! One turn. -/

theorem settle_eq (i : Interpretation σ β) (s : Session σ) (p : Placeholder) :
    s.settle i p
      = { emitAll i s (p.events s.format s.source) with format := p.leaves s.format } := by
  rcases p with _ | _ | _ | (_ | _) <;> rfl

theorem source_eq {cs : List Char} {d : Cursor} (s : Session σ)
    (h : s.cursor.peek.2.mark.Reads cs d) (hs : s.cursor.IsSound) :
    source { s with cursor := d } = ⟨s.cursor.position, String.ofList cs⟩ := by
  have hmark : d.marked = some s.cursor.position := h.marked_eq
  have hslice := (h.passes_of_mark hs).slice_eq hs
  simp only [source, Cursor.sliceFromMark, hmark, Option.map_some, Option.getD_some, hslice]

theorem exists_performs_literal (i : Interpretation σ β) (hs : s.cursor.IsSound) {c : Char}
    {cs : List Char} (hrest : s.cursor.rest = c :: cs) (hc : c ≠ '%') :
    ∃ t, s.Performs i (Lap.literal s.cursor.position s.format c) t := by
  have hpeek : s.cursor.peek.1 = some c := by rw [Cursor.peek_fst, hrest]; rfl
  have hreads := Cursor.reads_peek_advance hs.offset_eq hrest
  refine ⟨emit i { s with cursor := s.cursor.peek.2.advance } (.literal (String.singleton c)),
    ?_, rfl, ?_, rfl, rfl⟩
  · simp only [turn, hpeek, if_neg hc]
  · rw [Lap.chars_literal]
    exact hreads.passes hs

theorem exists_performs_attempt (i : Interpretation σ β) (hs : s.cursor.IsSound)
    {used rest : List Char} {p : Placeholder} (ha : Attempt used p rest)
    (hrest : s.cursor.rest = used ++ rest) :
    ∃ t, s.Performs i (p.lap s.cursor.position s.format used) t := by
  have hsplit : s.cursor.rest = '%' :: (used.tail ++ rest) := by
    rw [hrest, ha.eq_cons]
    rfl
  have hpeek : s.cursor.peek.1 = some '%' := by rw [Cursor.peek_fst, hsplit]; rfl
  have hoffset : s.cursor.peek.2.mark.offset = s.cursor.peek.2.mark.position := hs.offset_eq
  have hpercent := Cursor.reads_advance hoffset hsplit
  have hsound := (hpercent.passes_of_mark hs).isSound
  obtain ⟨d, hd, htail⟩ :=
    Placeholder.exists_read hsound ha (hpercent.rest_cons hsplit)
  have hreads : s.cursor.peek.2.mark.Reads used d := by
    rw [ha.eq_cons]
    exact hpercent.trans htail
  refine ⟨settle i { s with cursor := d } p, ?_, rfl, ?_, rfl, ?_⟩
  · simp only [turn, hpeek, if_pos, hd]
  · rw [cursor_settle, Placeholder.chars_lap]
    exact hreads.passes_of_mark hs
  · rw [cursor_settle, settle_eq, source_eq s hreads hs]
    rfl

theorem turn_of_isRefused (i : Interpretation σ β) (hs : s.cursor.IsSound) {digits : Nat}
    (hrefused : Placeholder.IsRefused digits s.cursor.rest) :
    s.turn i = .refused s (.literalTooLong digits) := by
  obtain ⟨tail, hsplit⟩ : ∃ tail, s.cursor.rest = '%' :: tail := by
    obtain ⟨side, before, width, rest, heq, _⟩ := hrefused
    exact ⟨_, heq⟩
  have hpeek : s.cursor.peek.1 = some '%' := by rw [Cursor.peek_fst, hsplit]; rfl
  have hoffset : s.cursor.peek.2.mark.offset = s.cursor.peek.2.mark.position := hs.offset_eq
  have hpercent := Cursor.reads_advance hoffset hsplit
  have htail : s.cursor.peek.2.mark.advance.rest = tail := hpercent.rest_cons hsplit
  rw [hsplit, ← htail] at hrefused
  have hread := Placeholder.read_of_isRefused hpercent.offset_eq hrefused
  simp only [turn, hpeek, if_pos, hread]

theorem turn_of_rest_eq_nil (i : Interpretation σ β) (hrest : s.cursor.rest = []) :
    s.turn i = .finished s := by
  have hpeek : s.cursor.peek.1 = none := by rw [Cursor.peek_fst, hrest]; rfl
  simp only [turn, hpeek]

theorem state_emitAll (i : Interpretation σ β) (s : Session σ) (es : List Event) :
    (emitAll i s es).state = es.foldl (i.handle s.values) s.state := by
  induction es generalizing s with
  | nil => rfl
  | cons e es ih => exact ih (s.emit i e)

theorem values_emitAll (i : Interpretation σ β) (s : Session σ) (es : List Event) :
    (emitAll i s es).values = s.values := by
  induction es generalizing s with
  | nil => rfl
  | cons e es ih => exact ih (s.emit i e)

namespace Performs

variable {i : Interpretation σ β} {lap : Lap}

theorem state_eq (h : s.Performs i lap t) :
    t.state = lap.events.foldl (i.handle s.values) s.state := by
  rw [h.session_eq]
  exact state_emitAll i _ lap.events

theorem values_eq (h : s.Performs i lap t) : t.values = s.values := by
  rw [h.session_eq]
  exact values_emitAll i _ lap.events

theorem format_eq (h : s.Performs i lap t) : t.format = lap.format := by
  rw [h.session_eq]

/-- Behind a lap the cursor stands where the lap ends. -/
theorem position_eq (h : s.Performs i lap t) :
    t.cursor.position = s.cursor.position + lap.chars.length :=
  h.passes.position_eq

theorem rest_eq (h : s.Performs i lap t) {cs : List Char}
    (hrest : s.cursor.rest = lap.chars ++ cs) : t.cursor.rest = cs :=
  List.append_cancel_left (h.passes.rest_eq.symm.trans hrest)

end Performs

theorem foldl_record (values : Mapping) (es : List Event) (seen : Array Event) :
    es.foldl (Interpretation.record.handle values) seen = seen ++ es.toArray := by
  induction es generalizing seen with
  | nil => simp
  | cons e es ih =>
    rw [List.foldl_cons, ih]
    simp [Interpretation.record]

/-- A recording interpretation sees what a lap is. -/
theorem lapTo_eq {s t : Session (Array Event)} {lap : Lap} (hs : s.cursor.IsSound)
    (h : s.Performs .record lap t) : s.lapTo t = lap := by
  have hsource : lap.source
      = ⟨s.cursor.position, s.cursor.slice s.cursor.position t.cursor.position⟩ := by
    have hslice := h.passes.slice_eq hs
    have htext : t.cursor.slice = s.cursor.slice := by
      unfold Cursor.slice
      rw [h.passes.text_eq]
    rw [htext, Lap.chars, String.ofList_toList] at hslice
    rw [hslice, ← h.start_eq]
  have hevents : t.state.toList.drop s.state.size = lap.events := by
    rw [h.state_eq, foldl_record, Array.toList_append, ← Array.length_toList, List.drop_left]
  rw [lapTo, ← hsource, ← h.pending_eq, hevents, h.format_eq]

/-! A whole scan. -/

theorem scan_eq_turn (i : Interpretation σ β) (s : Session σ) :
    s.scan i
      = match s.turn i with
        | .finished t => (t, none)
        | .refused t f => (t, some f)
        | .next t => t.scan i := by
  rw [scan]
  split <;> rename_i hturn <;> rw [hturn]

theorem laps_eq_turn (s : Session (Array Event)) :
    s.laps
      = match s.turn .record with
        | .finished _ | .refused _ _ => []
        | .next t => s.lapTo t :: t.laps := by
  rw [laps]
  split <;> rename_i hturn <;> rw [hturn]

/-- A scan goes through every course of what it has come to. -/
theorem exists_runs (i : Interpretation σ β) (hs : s.cursor.IsSound) {laps : List Lap}
    {rest : List Char} (hcourse : Course s.cursor.position s.format s.cursor.rest laps rest) :
    ∃ t, Runs i s laps t ∧ t.cursor.IsSound ∧ t.cursor.rest = rest := by
  generalize hposition : s.cursor.position = offset at hcourse
  generalize hformat : s.format = pending at hcourse
  generalize hrest : s.cursor.rest = cs at hcourse
  -- Each turn leaves a sound cursor where the rest of the course begins, under its format.
  induction hcourse generalizing s with
  | done => exact ⟨s, .refl, hs, hrest⟩
  | @literal offset pending c cs rest laps hc _ ih =>
    obtain ⟨t, ht⟩ := exists_performs_literal i hs hrest hc
    subst hposition hformat
    have hposition : t.cursor.position = s.cursor.position + 1 := by simpa using ht.position_eq
    obtain ⟨u, hruns, hu⟩ := ih ht.passes.isSound hposition ht.format_eq
      (ht.rest_eq (by simpa using hrest))
    exact ⟨u, .lap ht hruns, hu⟩
  | @attempt offset pending used cs rest p laps ha _ ih =>
    obtain ⟨t, ht⟩ := exists_performs_attempt i hs ha hrest
    subst hposition hformat
    have hposition : t.cursor.position = s.cursor.position + used.length := by
      simpa using ht.position_eq
    obtain ⟨u, hruns, hu⟩ := ih ht.passes.isSound hposition ht.format_eq
      (ht.rest_eq (by simpa using hrest))
    exact ⟨u, .lap ht hruns, hu⟩

namespace Runs

variable {i : Interpretation σ β} {laps : List Lap}

/-- A scan goes on where the laps end. -/
theorem scan_eq (h : Runs i s laps t) : s.scan i = t.scan i := by
  induction h with
  | refl => rfl
  | lap h _ ih =>
    rw [scan_eq_turn, h.turn_eq]
    exact ih

/-- Behind its laps the cursor stands where the last one ends. -/
theorem position_eq (h : Runs i s laps t) :
    t.cursor.position = s.cursor.position + (laps.flatMap Lap.chars).length := by
  induction h with
  | refl => rfl
  | lap h _ ih => rw [ih, h.position_eq, List.flatMap_cons, List.length_append, Nat.add_assoc]

/-- A scan has folded the events of its laps. -/
theorem state_eq (h : Runs i s laps t) :
    t.state = (laps.flatMap Lap.events).foldl (i.handle s.values) s.state := by
  induction h with
  | refl => rfl
  | lap h _ ih => rw [ih, h.values_eq, h.state_eq, List.flatMap_cons, List.foldl_append]

/-- A recording scan sees the laps that it goes through. -/
theorem laps_eq {s t : Session (Array Event)} (h : Runs .record s laps t)
    (hs : s.cursor.IsSound) : s.laps = laps ++ t.laps := by
  induction h with
  | refl => rfl
  | lap h _ ih =>
    rw [laps_eq_turn, h.turn_eq]
    dsimp only
    rw [lapTo_eq hs h, ih h.passes.isSound, List.cons_append]

end Runs

theorem scan_of_rest_eq_nil (i : Interpretation σ β) (hrest : s.cursor.rest = []) :
    s.scan i = (s, none) := by
  rw [scan_eq_turn, turn_of_rest_eq_nil i hrest]

theorem scan_of_isRefused (i : Interpretation σ β) (hs : s.cursor.IsSound) {digits : Nat}
    (hrefused : Placeholder.IsRefused digits s.cursor.rest) :
    s.scan i = (s, some (.literalTooLong digits)) := by
  rw [scan_eq_turn, turn_of_isRefused i hs hrefused]

theorem laps_of_rest_eq_nil {s : Session (Array Event)} (hrest : s.cursor.rest = []) :
    s.laps = [] := by
  rw [laps_eq_turn, turn_of_rest_eq_nil _ hrest]

end Session

/-- Every text has a course that ends with the text or at a width that is refused. -/
theorem exists_course (offset : Nat) (pending : Format) (cs : List Char) :
    ∃ laps rest, Course offset pending cs laps rest
      ∧ (rest = [] ∨ ∃ digits, Placeholder.IsRefused digits rest) := by
  generalize hlength : cs.length = n
  -- An attempt consumes at least its percent sign, so that what is left is shorter.
  induction n using Nat.strongRecOn generalizing offset pending cs with
  | ind n ih =>
    cases cs with
    | nil => exact ⟨[], [], .done, .inl rfl⟩
    | cons c cs =>
      by_cases hc : c = '%'
      · subst hc
        rcases Placeholder.exists_attempt cs with hrefused | ⟨used, p, tail, hsplit, ha⟩
        · exact ⟨[], _, .done, .inr hrefused⟩
        · have hshort : tail.length < n := by
            rw [← hlength, hsplit, ha.eq_cons, List.length_append, List.length_cons]
            omega
          obtain ⟨laps, rest, hcourse, hend⟩ :=
            ih _ hshort (offset + used.length) (p.leaves pending) tail rfl
          rw [hsplit]
          exact ⟨_, rest, .attempt ha hcourse, hend⟩
      · have hshort : cs.length < n := by
          rw [← hlength, List.length_cons]
          omega
        obtain ⟨laps, rest, hcourse, hend⟩ := ih _ hshort (offset + 1) pending cs rfl
        exact ⟨_, rest, .literal hc hcourse, hend⟩

/-- The laps of a course consume what it leaves behind. -/
theorem Course.eq_append {offset : Nat} {pending : Format} {cs rest : List Char} {laps : List Lap}
    (h : Course offset pending cs laps rest) : cs = laps.flatMap Lap.chars ++ rest := by
  induction h with
  | done => rfl
  | @literal offset pending c cs rest laps hc _ ih =>
    rw [List.flatMap_cons, Lap.chars_literal, List.append_assoc, ← ih, List.singleton_append]
  | @attempt offset pending used cs rest p laps ha _ ih =>
    rw [List.flatMap_cons, Placeholder.chars_lap, List.append_assoc, ← ih]

theorem Course.follow {offset : Nat} {pending : Format} {cs rest : List Char} {laps : List Lap}
    (h : Course offset pending cs laps rest) : Lap.Follow offset pending laps := by
  induction h with
  | done => trivial
  | literal hc _ ih => exact ⟨rfl, rfl, by rwa [Lap.chars_literal]⟩
  | attempt ha _ ih => exact ⟨rfl, rfl, by rwa [Placeholder.chars_lap]⟩

namespace Template

variable {σ β : Type} {text : String} {es : List Event} {laps : List Lap}

theorem exists_runs_start (i : Interpretation σ β) (values : Mapping) (tracing : Bool)
    {rest : List Char} (hcourse : Course 0 Format.unset text.toList laps rest) :
    ∃ t, Session.Runs i (Session.start i values text tracing) laps t
      ∧ t.cursor.IsSound ∧ t.cursor.rest = rest := by
  refine Session.exists_runs i (Cursor.isSound_ofString text) ?_
  change Course 0 Format.unset (Cursor.ofString text).rest laps rest
  rwa [Cursor.rest_ofString]

/-- A course to the end of a template makes its events the result's. -/
theorem interpret_of_course (i : Interpretation σ β) (values : Mapping) (tracing : Bool)
    (hcourse : Course 0 Format.unset text.toList laps []) :
    (interpret i values text tracing).value
      = .ok (i.result ((laps.flatMap Lap.events).foldl (i.handle values) i.start)) := by
  obtain ⟨t, hruns, _, hrest⟩ := exists_runs_start i values tracing hcourse
  simp only [interpret, hruns.scan_eq, Session.scan_of_rest_eq_nil i hrest, hruns.state_eq]
  rfl

theorem interpret_of_isRefused (i : Interpretation σ β) (values : Mapping) (tracing : Bool)
    {rest : List Char} {digits : Nat} (hcourse : Course 0 Format.unset text.toList laps rest)
    (hrefused : Placeholder.IsRefused digits rest) :
    (interpret i values text tracing).value = .error (.literalTooLong digits) := by
  obtain ⟨t, hruns, hsound, rfl⟩ := exists_runs_start i values tracing hcourse
  simp only [interpret, hruns.scan_eq, Session.scan_of_isRefused i hsound hrefused]

theorem events_of_course (hcourse : Course 0 Format.unset text.toList laps []) :
    events text = .ok (laps.flatMap Lap.events) := by
  rw [events, interpret_of_course .record [] false hcourse, Session.foldl_record]
  simp [Interpretation.record]

theorem laps_of_course (hcourse : Course 0 Format.unset text.toList laps []) :
    Template.laps text = laps := by
  obtain ⟨t, hruns, _, hrest⟩ := exists_runs_start .record [] false hcourse
  rw [Template.laps, hruns.laps_eq (Cursor.isSound_ofString text),
    Session.laps_of_rest_eq_nil hrest, List.append_nil]

/-- A scan that returns has a course to the end of the template, which is what is observed. -/
theorem course_laps (h : events text = .ok es) :
    Course 0 Format.unset text.toList (Template.laps text) []
      ∧ es = (Template.laps text).flatMap Lap.events := by
  obtain ⟨laps, rest, hcourse, rfl | ⟨digits, hrefused⟩⟩ :=
    exists_course 0 Format.unset text.toList
  · rw [laps_of_course hcourse]
    exact ⟨hcourse, Except.ok.inj (h.symm.trans (events_of_course hcourse))⟩
  · rw [events, interpret_of_isRefused .record [] false hcourse hrefused] at h
    cases h

theorem events_of_toOption (h : (events text).toOption = some es) : events text = .ok es := by
  cases hevents : events text with
  | error f =>
    rw [hevents] at h
    cases h
  | ok es' =>
    rw [hevents] at h
    exact congrArg Except.ok (Option.some.inj h)

/-- A scan returns unless it comes to a width of too many digits. -/
theorem exists_events
    (h : ∀ before rest digits, text.toList = before ++ rest → ¬Placeholder.IsRefused digits rest) :
    ∃ es, events text = .ok es := by
  obtain ⟨laps, rest, hcourse, rfl | ⟨digits, hrefused⟩⟩ :=
    exists_course 0 Format.unset text.toList
  · exact ⟨_, events_of_course hcourse⟩
  · exact absurd hrefused (h _ rest digits hcourse.eq_append)

/-- Every result is a fold of the events, and a fault is the same for every interpretation and all
values. -/
theorem value_interpret (i : Interpretation σ β) (values : Mapping) (text : String)
    (tracing : Bool) :
    (interpret i values text tracing).value
      = (events text).map fun es => i.result (es.foldl (i.handle values) i.start) := by
  obtain ⟨laps, rest, hcourse, rfl | ⟨digits, hrefused⟩⟩ :=
    exists_course 0 Format.unset text.toList
  · rw [interpret_of_course i values tracing hcourse, events_of_course hcourse, Except.map]
  · rw [interpret_of_isRefused i values tracing hcourse hrefused, events,
      interpret_of_isRefused .record [] false hcourse hrefused, Except.map]

end Template

end PercentTemplate
