import PercentTemplate.Proofs.Keyed
import PercentTemplate.Proofs.Report.Summary
import PercentTemplate.Proofs.Report.Validation

/-!
# Consistency of summaries

A summary is put together from two scans, one that measures under the values and one that lists keys
and sees no values at all. Both go through the same placeholders (`Template.slots`), so what one
counts and what the other lists fit together, position by position
(`TemplateSummary.AgreesWith`).

Main statement: there is a summary of every template that is scanned to its end, it passes its own
check and agrees with the keys of the template (`Template.summary_agrees_with_keys`).
-/

namespace PercentTemplate

/-- The key that an event reports, with the format that is pending for it. -/
def Event.slot? : Event → Option (String × Format)
  | key name format _ => some (name, format)
  | literal _ | escape _ | malformed _ => none

/-- The key that a lap reports, with the format that is pending before the lap. -/
def Lap.slot? (l : Lap) : Option (String × Format) :=
  match l.events with
  | [.key name _ _] => some (name, l.pending)
  | _ => none

/-- The key placeholders of a template in order, each with the format that is pending there. -/
def Template.slots (text : String) : List (String × Format) :=
  (laps text).filterMap Lap.slot?

/-- A summary is about the keys of a template, which are `names` in order and with repetitions, and
about the values of those that have one. -/
structure TemplateSummary.AgreesWith (s : TemplateSummary) (values : Mapping) (text : String)
    (names : List String) : Prop where
  nodup_keys : s.keys.Nodup
  mem_keys_iff (key : String) : key ∈ s.keys ↔ key ∈ names
  /-- Keys stand in the order in which they occur first. -/
  pairwise_keys : s.keys.Pairwise fun j k => names.idxOf j < names.idxOf k
  missingKeys_eq : s.missingKeys = s.keys.filter fun k => k ∉ Keyed.keys values
  names_eq : names = (Template.slots text).map Prod.fst
  /-- There is a width for every occurrence of a key that has a value. -/
  placeholderWidths_eq : s.placeholderWidths = (Template.slots text).filterMap fun p =>
    (values.value? p.1).map p.2.layoutWidth
  isComplete_iff : s.isComplete = true ↔ s.placeholderWidths.length = names.length

theorem Mapping.defines_iff {values : Mapping} {key : String} :
    values.defines key = true ↔ key ∈ Keyed.keys values :=
  Keyed.isSome_get?

/-- A value for one more key changes nothing for the others. -/
theorem Mapping.defines_put (values : Mapping) (key value other : String) :
    Mapping.defines (Keyed.put key value values) other = (key == other || values.defines other) := by
  rw [defines, value?, Keyed.get?_put]
  by_cases hkey : key == other
  · simp [hkey]
  · simp [hkey, defines, value?]

namespace Event

variable {es : List Event}

theorem filterMap_key?_eq (es : List Event) :
    es.filterMap key? = (es.filterMap slot?).map Prod.fst := by
  rw [List.map_filterMap]
  exact List.filterMap_congr fun e _ => by cases e <;> rfl

theorem filterMap_width?_eq (values : Mapping) (es : List Event) :
    es.filterMap (width? values) = (es.filterMap slot?).filterMap fun p =>
      (values.value? p.1).map p.2.layoutWidth := by
  rw [List.filterMap_filterMap]
  exact List.filterMap_congr fun e _ => by cases e <;> rfl

end Event

theorem Lap.IsFaithful.filterMap_slot? {l : Lap} (h : l.IsFaithful) :
    l.events.filterMap Event.slot? = l.slot?.toList := by
  have hlength := h.length_events_le
  unfold Lap.slot?
  match hevents : l.events with
  | [] => rfl
  | [.key name format source] =>
    -- The event carries the format that is pending before the lap.
    obtain ⟨-, rfl, -⟩ := h.of_key name format source hevents
    rfl
  | [.literal _] | [.escape _] | [.malformed _] => rfl
  | _ :: _ :: _ =>
    rw [hevents] at hlength
    simp at hlength

namespace Template

variable {text : String} {es : List Event} {names : List String}

theorem filterMap_slot? (h : events text = .ok es) :
    es.filterMap Event.slot? = slots text := by
  obtain ⟨hcourse, rfl⟩ := course_laps h
  have hfaithful := hcourse.isFaithful
  rw [slots, List.filterMap_flatMap, List.filterMap_eq_flatMap_toList]
  exact List.flatMap_congr fun l hl => (hfaithful l hl).filterMap_slot?

/-- If one scan of a template returns, every scan does. -/
theorem exists_events_of_keys (h : keys text = .ok names) :
    ∃ es, events text = .ok es ∧ names = es.filterMap Event.key? := by
  cases hevents : events text with
  | error f =>
    rw [keys, value_interpret, hevents] at h
    cases h
  | ok es => exact ⟨es, rfl, Except.ok.inj (h.symm.trans (keys_of_events hevents))⟩

theorem widths_eq (h : events text = .ok es) (values : Mapping) :
    Event.widths values es = (slots text).filterMap fun p =>
      (values.value? p.1).map p.2.layoutWidth := by
  rw [← Event.filterMap_width? (isScanned_of_events h), Event.filterMap_width?_eq,
    filterMap_slot? h]

/-- There are as many widths as keys exactly if every key has a value. -/
theorem length_widths_eq_iff (h : events text = .ok es) (values : Mapping) :
    (Event.widths values es).length = (es.filterMap Event.key?).length
      ↔ ∀ key ∈ es.filterMap Event.key?, values.defines key = true := by
  rw [widths_eq h, Event.filterMap_key?_eq, filterMap_slot? h,
    List.length_filterMap_eq_countP, List.length_map, List.countP_eq_length]
  simp only [Option.isSome_map, List.forall_mem_map]
  rfl

theorem agreesWith_of_events (h : events text = .ok es) {values : Mapping}
    {summary : TemplateSummary} (hsummary : summarize values text = .ok summary) :
    summary.AgreesWith values text (es.filterMap Event.key?) := by
  obtain rfl := Except.ok.inj (hsummary.symm.trans (summarize_of_events h values))
  constructor
  case nodup_keys => exact Keyed.nodup_distinct _
  case mem_keys_iff =>
    intro key
    exact Keyed.mem_distinct
  case pairwise_keys => exact Keyed.pairwise_distinct _
  case missingKeys_eq =>
    refine List.filter_congr fun key _ => ?_
    simp [← Mapping.defines_iff]
  case names_eq => rw [Event.filterMap_key?_eq, filterMap_slot? h]
  case placeholderWidths_eq => exact widths_eq h values
  case isComplete_iff =>
    rw [length_widths_eq_iff h, TemplateSummary.isComplete, List.isEmpty_iff,
      List.filter_eq_nil_iff]
    simp

/-- A value for one of the missing keys takes this key from them and leaves the keys alone. -/
theorem exists_summarize_put (h : events text = .ok es) {values : Mapping}
    {summary : TemplateSummary} (hsummary : summarize values text = .ok summary)
    (key value : String) :
    ∃ filled, summarize (Keyed.put key value values) text = .ok filled
      ∧ filled.keys = summary.keys
      ∧ filled.missingKeys = summary.missingKeys.filter fun k => k ≠ key := by
  obtain rfl := Except.ok.inj (hsummary.symm.trans (summarize_of_events h values))
  refine ⟨_, summarize_of_events h _, rfl, ?_⟩
  rw [List.filter_filter]
  refine List.filter_congr fun k _ => ?_
  rw [Mapping.defines_put]
  by_cases hk : k = key
  · simp [hk]
  · have hne : (key == k) = false := beq_eq_false_iff_ne.2 (Ne.symm hk)
    simp [hk, hne]

/-- A template that is scanned to its end has a report and a summary that pass their own checks. The
summary agrees with the keys of the template, whatever values there are, and a value for a missing
key takes exactly this one from the missing keys. -/
theorem summary_agrees_with_keys (h : keys text = .ok names) (values : Mapping) :
    ∃ report summary, (measureReport values text false).value = .ok report
      ∧ MeasureReport.ofJson report.toJson = .ok report
      ∧ summarize values text = .ok summary
      ∧ TemplateSummary.ofJson summary.toJson = .ok summary
      ∧ summary.AgreesWith values text names
      ∧ ∀ key ∈ summary.missingKeys, ∀ value, ∃ filled,
        summarize (Keyed.put key value values) text = .ok filled
          ∧ filled.keys = summary.keys
          ∧ filled.missingKeys = summary.missingKeys.filter fun k => k ≠ key := by
  obtain ⟨es, hevents, rfl⟩ := exists_events_of_keys h
  have hreport := (value_measureReport values text).trans (reportOf_measure hevents values)
  have hsummary := summarize_of_events hevents values
  exact ⟨_, _, hreport, MeasureReport.ofJson_toJson _, hsummary, TemplateSummary.ofJson_toJson _,
    agreesWith_of_events hevents hsummary,
    fun key _ value => exists_summarize_put hevents hsummary key value⟩

/-- Two keys that occur twice, one of them under a format, and one key that is missing. -/
theorem summary_agrees_with_keys_repeated :
    ∃ summary filled, keys "%>(5)%(b)%(a)%(b)%(z)%(a)" = .ok ["b", "a", "b", "z", "a"]
      ∧ summarize [("a", "x"), ("b", "yy")] "%>(5)%(b)%(a)%(b)%(z)%(a)" = .ok summary
      ∧ summary = ⟨13, [5, 1, 2, 1], ["b", "a", "z"], ["z"]⟩
      ∧ summary.AgreesWith [("a", "x"), ("b", "yy")] "%>(5)%(b)%(a)%(b)%(z)%(a)"
        ["b", "a", "b", "z", "a"]
      ∧ summarize [("a", "x"), ("b", "yy"), ("z", "")] "%>(5)%(b)%(a)%(b)%(z)%(a)" = .ok filled
      ∧ filled.missingKeys = [] := by
  have hevents : events "%>(5)%(b)%(a)%(b)%(z)%(a)"
      = .ok [.key "b" ⟨.right, 5⟩ ⟨5, "%(b)"⟩, .key "a" Format.unset ⟨9, "%(a)"⟩,
        .key "b" Format.unset ⟨13, "%(b)"⟩, .key "z" Format.unset ⟨17, "%(z)"⟩,
        .key "a" Format.unset ⟨21, "%(a)"⟩] :=
    events_of_toOption (by decide +kernel)
  have hkeys := keys_of_events hevents
  have hsummary := summarize_of_events hevents [("a", "x"), ("b", "yy")]
  obtain ⟨-, summary, -, -, hsame, -, hagrees, hfill⟩ :=
    summary_agrees_with_keys hkeys [("a", "x"), ("b", "yy")]
  obtain rfl := Except.ok.inj (hsummary.symm.trans hsame)
  obtain ⟨filled, hfilled, -, hmissing⟩ := hfill "z" (by decide +kernel) ""
  exact ⟨_, filled, hkeys, hsummary, by decide +kernel, hagrees, hfilled,
    hmissing.trans (by decide +kernel)⟩

end Template

end PercentTemplate
