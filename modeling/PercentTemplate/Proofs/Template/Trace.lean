import PercentTemplate.Proofs.Keyed
import PercentTemplate.Proofs.Template.Conservation

/-!
# The trace of a scan

A scan that is traced reports to the log as it goes: the text that it is about to scan, and then
what it cannot make anything of. What is told of a lap is written down here from the lap alone
(`Lap.told`), with the offset at which it begins, which is the number of the characters before it
(`Lap.toldAll`).

Main statement: a trace tells of the laps of the template in order and of nothing else, and whether
a scan is traced makes no difference to its result (`Template.trace_tells_of_laps`).
-/

namespace PercentTemplate

/-- What a trace has to say about events, if anything is traced. -/
def Interpretation.notices {σ β : Type} (i : Interpretation σ β) (values : Mapping)
    (tracing : Bool) (es : List Event) : List Log.Record :=
  if tracing then es.filterMap (i.notice? values) else []

namespace Lap

/-- What is told of a lap that begins at an offset: a malformed stretch is told as it is written, and
a key without a value together with what is done about it, where that is to be mentioned. -/
def told (values : Mapping) (withoutValue : Option String) (offset : Nat) (l : Lap) :
    List Log.Record :=
  match l.events with
  | [.malformed _] => [⟨"percentfmt.engine", .debug, "malformed placeholder at " ++ toString offset
      ++ " kept as literal " ++ Text.quoted (String.ofList l.chars)⟩]
  | [.key name _ _] =>
    if name ∈ Keyed.keys values then []
    else withoutValue.toList.map fun what => ⟨"percentfmt.tasks", .debug,
      "unresolved placeholder key " ++ Text.quoted name ++ " " ++ what⟩
  | _ => []

/-- What is told of laps that follow one another from an offset on. -/
def toldAll (values : Mapping) (withoutValue : Option String) : Nat → List Lap → List Log.Record
  | _, [] => []
  | offset, l :: laps =>
    l.told values withoutValue offset
      ++ toldAll values withoutValue (offset + l.chars.length) laps

end Lap

section Spec

variable {σ β : Type} {values : Mapping} {l : Lap} {laps : List Lap}

theorem Interpretation.notices_append (i : Interpretation σ β) (values : Mapping) (tracing : Bool)
    (first second : List Event) : i.notices values tracing (first ++ second)
      = i.notices values tracing first ++ i.notices values tracing second := by
  cases tracing with
  | false => rfl
  | true => exact List.filterMap_append

/-- What is noticed of the events of a lap is what is told of the lap. -/
theorem Lap.IsFaithful.notices_eq (h : l.IsFaithful) (i : Interpretation σ β) (values : Mapping) :
    i.notices values true l.events = l.told values i.withoutValue l.source.start := by
  -- A lap reports no event or one, and what it reports is determined by its stretch.
  have hlength := h.length_events_le
  rw [Interpretation.notices, if_pos rfl, told]
  match hevents : l.events with
  | [] => rfl
  | [.literal _] | [.escape _] => rfl
  | [.malformed source] =>
    obtain ⟨rfl, -⟩ := h.of_malformed source hevents
    rw [Lap.chars, String.ofList_toList]
    rfl
  | [.key name format source] =>
    have hdefines : values.defines name = true ↔ name ∈ Keyed.keys values := Keyed.isSome_get?
    by_cases hname : name ∈ Keyed.keys values
    · simp [Interpretation.notice?, hdefines.2 hname, hname]
    · rw [← hdefines, Bool.not_eq_true] at hname
      cases hwithout : i.withoutValue <;>
        simp [Interpretation.notice?, hname, ← hdefines, hwithout]
  | _ :: _ :: _ =>
    rw [hevents] at hlength
    simp at hlength

/-- Laps that follow one another are told at the offsets at which they begin. -/
theorem Lap.Follow.notices_eq {offset : Nat} {pending : Format}
    (hfollow : Lap.Follow offset pending laps) (h : ∀ l ∈ laps, l.IsFaithful)
    (i : Interpretation σ β) (values : Mapping) :
    i.notices values true (laps.flatMap Lap.events)
      = Lap.toldAll values i.withoutValue offset laps := by
  induction laps generalizing offset pending with
  | nil => rfl
  | cons l laps ih =>
    obtain ⟨rfl, -, hrest⟩ := hfollow
    obtain ⟨hl, hlaps⟩ := List.forall_mem_cons.1 h
    rw [List.flatMap_cons, Interpretation.notices_append, hl.notices_eq i values, ih hrest hlaps,
      Lap.toldAll]

/-- Without the keys a trace is the same for all values. -/
theorem Lap.filter_told (values : Mapping) (withoutValue : Option String) (offset : Nat) (l : Lap) :
    (l.told values withoutValue offset).filter (fun r => r.logger = "percentfmt.engine")
      = l.told [] none offset := by
  unfold told
  split
  · simp
  · split <;> simp [Keyed.keys]
  · rfl

theorem Lap.filter_toldAll (values : Mapping) (withoutValue : Option String) (offset : Nat)
    (laps : List Lap) : (Lap.toldAll values withoutValue offset laps).filter
      (fun r => r.logger = "percentfmt.engine") = Lap.toldAll [] none offset laps := by
  induction laps generalizing offset with
  | nil => rfl
  | cons l laps ih => rw [toldAll, List.filter_append, filter_told, ih, toldAll]

end Spec

namespace Session

variable {σ β : Type} {i : Interpretation σ β} {s t : Session σ}

theorem tracing_emitAll (i : Interpretation σ β) (s : Session σ) (es : List Event) :
    (emitAll i s es).tracing = s.tracing := by
  induction es generalizing s with
  | nil => rfl
  | cons e es ih => exact ih (s.emit i e)

theorem trace_emit (i : Interpretation σ β) (s : Session σ) (e : Event) :
    (s.emit i e).trace = s.trace ++ (i.notices s.values s.tracing [e]).toArray := by
  rw [emit, Interpretation.notices]
  by_cases htracing : s.tracing
  · cases hnotice : i.notice? s.values e <;> simp [htracing, hnotice]
  · simp [htracing]

theorem trace_emitAll (i : Interpretation σ β) (s : Session σ) (es : List Event) :
    (emitAll i s es).trace = s.trace ++ (i.notices s.values s.tracing es).toArray := by
  induction es generalizing s with
  | nil => simp [emitAll, Interpretation.notices]
  | cons e es ih =>
    have hvalues : (s.emit i e).values = s.values := rfl
    have htracing : (s.emit i e).tracing = s.tracing := rfl
    have hsplit := i.notices_append s.values s.tracing [e] es
    rw [List.singleton_append] at hsplit
    refine (ih (s.emit i e)).trans ?_
    rw [trace_emit, hvalues, htracing, hsplit, Array.append_assoc, ← List.append_toArray]

theorem Performs.tracing_eq {lap : Lap} (h : s.Performs i lap t) : t.tracing = s.tracing := by
  rw [h.session_eq]
  exact tracing_emitAll i _ lap.events

theorem Performs.trace_eq {lap : Lap} (h : s.Performs i lap t) :
    t.trace = s.trace ++ (i.notices s.values s.tracing lap.events).toArray := by
  rw [h.session_eq]
  exact trace_emitAll i _ lap.events

/-- A scan adds to its trace what it notices of the events of its laps. -/
theorem Runs.trace_eq {laps : List Lap} (h : Runs i s laps t) :
    t.trace = s.trace ++ (i.notices s.values s.tracing (laps.flatMap Lap.events)).toArray := by
  induction h with
  | refl => simp [Interpretation.notices]
  | lap h _ ih =>
    rw [ih, h.values_eq, h.tracing_eq, h.trace_eq, List.flatMap_cons,
      Interpretation.notices_append, Array.append_assoc, ← List.append_toArray]

end Session

namespace Template

variable {text : String} {es : List Event}

/-- The outcome of a scan for any purpose, with its trace. -/
theorem interpret_eq_of_events {σ β : Type} (h : events text = .ok es) (i : Interpretation σ β)
    (values : Mapping) (tracing : Bool) : interpret i values text tracing
      = ⟨.ok (i.result (es.foldl (i.handle values) i.start)),
        if tracing then i.opening text :: Lap.toldAll values i.withoutValue 0 (laps text)
        else []⟩ := by
  obtain ⟨-, hes, hfollow, -, hfaithful, hruns⟩ := scan_conserves_text h
  have hvalue : (interpret i values text tracing).value
      = .ok (i.result (es.foldl (i.handle values) i.start)) := by
    rw [value_interpret, h, Except.map]
  -- The scan goes through the same laps whether or not it is traced.
  obtain ⟨last, hruns, hscan, -⟩ := hruns i values tracing
  have htrace : (interpret i values text tracing).trace = last.trace.toList := by
    rw [interpret, hscan]
  rw [hruns.trace_eq, Array.toList_append] at htrace
  cases tracing with
  | false => exact congrArg₂ Log.Traced.mk hvalue htrace
  | true =>
    have htold := hfollow.notices_eq hfaithful i values
    refine congrArg₂ Log.Traced.mk hvalue (htrace.trans ?_)
    exact congrArg (i.opening text :: ·) htold

/-- A scan makes one result whether or not it is traced. Without a trace it tells nothing, and its
trace begins with the task and the length of the text. -/
structure IsTraced {σ β : Type} (i : Interpretation σ β) (values : Mapping) (text name : String)
    (told : List Log.Record) (r : β) : Prop where
  untraced : interpret i values text false = ⟨.ok r, []⟩
  traced : interpret i values text true = ⟨.ok r,
    ⟨"percentfmt.engine", .debug, "scan start task=" ++ name ++ " chars=" ++ toString text.length⟩
      :: told⟩

theorem isTraced_of_events {σ β : Type} (h : events text = .ok es) (i : Interpretation σ β)
    (values : Mapping) :
    IsTraced i values text i.name (Lap.toldAll values i.withoutValue 0 (laps text))
      (i.result (es.foldl (i.handle values) i.start)) :=
  ⟨interpret_eq_of_events h i values false, interpret_eq_of_events h i values true⟩

/-- A trace makes no difference to the result of a scan. It goes through the laps that make up the
text, one by one: a malformed stretch is told with the offset at which it begins and as it is
written, a key that has no value is told by its name, and nothing is told of any other lap. A scan
that lists keys tells the same without the keys. -/
theorem trace_tells_of_laps (h : events text = .ok es) (values : Mapping) :
    (laps text).flatMap Lap.chars = text.toList
      ∧ (laps text).flatMap Lap.events = es
      ∧ (∀ l ∈ laps text, l.IsFaithful)
      ∧ (∃ rendered, render values text = .ok rendered
        ∧ IsTraced .render values text "replace_placeholders"
          (Lap.toldAll values (some "kept as literal text") 0 (laps text)) rendered)
      ∧ (∃ lengths, measure values text = .ok lengths
        ∧ IsTraced .measure values text "measure_lengths"
          (Lap.toldAll values (some "measured as literal text") 0 (laps text)) lengths)
      ∧ ∃ names, keys text = .ok names
        ∧ ∀ withoutValue, IsTraced .keys [] text "extract_placeholder_keys"
          ((Lap.toldAll values withoutValue 0 (laps text)).filter
            fun r => r.logger = "percentfmt.engine") names := by
  obtain ⟨hchars, hes, -, -, hfaithful, -⟩ := scan_conserves_text h
  have hrender := isTraced_of_events h .render values
  have hmeasure := isTraced_of_events h .measure values
  have hkeys := isTraced_of_events h .keys []
  refine ⟨hchars, hes, hfaithful, ⟨_, congrArg Log.Traced.value hrender.untraced, hrender⟩,
    ⟨_, congrArg Log.Traced.value hmeasure.untraced, hmeasure⟩,
    ⟨_, congrArg Log.Traced.value hkeys.untraced, ?_⟩⟩
  intro withoutValue
  rw [Lap.filter_toldAll]
  exact hkeys

/-- A key with a value, one without, a stretch that is malformed and a percent sign at the end. -/
theorem trace_tells_of_laps_mixed :
    ∃ rendered, render [("a", "1")] "%(a)x%(b)%(c%" = .ok rendered
      ∧ interpret .render [("a", "1")] "%(a)x%(b)%(c%" true = ⟨.ok rendered,
        [⟨"percentfmt.engine", .debug, "scan start task=replace_placeholders chars=13"⟩,
          ⟨"percentfmt.tasks", .debug, "unresolved placeholder key 'b' kept as literal text"⟩,
          ⟨"percentfmt.engine", .debug, "malformed placeholder at 9 kept as literal '%(c'"⟩,
          ⟨"percentfmt.engine", .debug, "malformed placeholder at 12 kept as literal '%'"⟩]⟩ := by
  have hevents : events "%(a)x%(b)%(c%" = .ok [.key "a" Format.unset ⟨0, "%(a)"⟩, .literal "x",
      .key "b" Format.unset ⟨5, "%(b)"⟩, .malformed ⟨9, "%(c"⟩, .malformed ⟨12, "%"⟩] :=
    events_of_toOption (by decide +kernel)
  obtain ⟨-, -, -, ⟨rendered, hvalue, htraced⟩, -⟩ := trace_tells_of_laps hevents [("a", "1")]
  refine ⟨rendered, hvalue, ?_⟩
  rw [htraced.traced, Log.Traced.mk.injEq]
  exact ⟨rfl, by decide +kernel⟩

end Template

end PercentTemplate
