import PercentTemplate.Proofs.Report.Consistency

/-!
# What results depend on

Of the values of the keys a template sees only those that its placeholders ask for, and of such a
value lengths and summaries see only whether it is there and how long it is
(`Mapping.SameLength`).

Main statement: under two mappings that agree on the keys of a template the results are the same
(`Template.results_depend_on_referenced_keys`).
-/

namespace PercentTemplate

/-- A key has a value of the same length in both mappings, or in neither. -/
def Mapping.SameLength (v w : Mapping) (key : String) : Prop :=
  (v.value? key).map String.length = (w.value? key).map String.length

variable {v w : Mapping}

theorem Mapping.SameLength.of_value?_eq {key : String} (h : v.value? key = w.value? key) :
    v.SameLength w key :=
  congrArg (Option.map String.length) h

theorem Mapping.SameLength.defines_eq {key : String} (h : v.SameLength w key) :
    v.defines key = w.defines key := by
  have hsome := congrArg Option.isSome h
  rwa [Option.isSome_map, Option.isSome_map] at hsome

namespace Format

theorem layoutWidth_eq_of_length_eq (f : Format) {s t : String} (h : s.length = t.length) :
    f.layoutWidth s = f.layoutWidth t := by
  rw [layoutWidth, layoutWidth, h]

/-- The width of a value is determined by its length. -/
theorem map_layoutWidth_eq (f : Format) {key : String} (h : v.SameLength w key) :
    (v.value? key).map f.layoutWidth = (w.value? key).map f.layoutWidth := by
  unfold Mapping.SameLength at h
  cases hv : v.value? key with
  | none =>
    rw [hv, Option.map_none, eq_comm, Option.map_eq_none_iff] at h
    rw [h]
  | some s =>
    rw [hv, Option.map_some, eq_comm, Option.map_eq_some_iff] at h
    obtain ⟨t, ht, hlength⟩ := h
    rw [ht]
    exact congrArg some (f.layoutWidth_eq_of_length_eq hlength.symm)

end Format

namespace Event

variable {es : List Event}

/-- What holds of all keys of a template holds of the key of each event. -/
theorem forall_key? {P : String → Prop} (h : ∀ key ∈ es.filterMap key?, P key) {e : Event}
    (he : e ∈ es) : ∀ key, e.key? = some key → P key :=
  fun key hkey => h key (List.mem_filterMap.2 ⟨e, he, hkey⟩)

/-- An event becomes the same text if its key has the same value. -/
theorem text_congr {e : Event} (h : ∀ key, e.key? = some key → v.value? key = w.value? key) :
    e.text v = e.text w := by
  cases e with
  | literal | escape | malformed => rfl
  | key name format source => rw [text, text, fragment?, fragment?, h name rfl]

theorem textAll_congr (h : ∀ key ∈ es.filterMap key?, v.value? key = w.value? key) :
    textAll v es = textAll w es := by
  rw [textAll, textAll]
  congr 1
  exact List.map_congr_left fun e he => text_congr (forall_key? h he)

theorem count_congr {e : Event} (h : ∀ key, e.key? = some key → v.SameLength w key) :
    e.count v = e.count w := by
  cases e with
  | literal | escape | malformed => rfl
  | key name format source => rw [count, count, format.map_layoutWidth_eq (h name rfl)]

theorem width?_congr {e : Event} (h : ∀ key, e.key? = some key → v.SameLength w key) :
    e.width? v = e.width? w := by
  cases e with
  | literal | escape | malformed => rfl
  | key name format source => exact format.map_layoutWidth_eq (h name rfl)

end Event

namespace Template

variable {text : String} {es : List Event} {names : List String}

/-- The length of the rendered text is the same if the values have the same lengths. -/
theorem length_textAll_congr (h : events text = .ok es)
    (hkeys : ∀ key ∈ es.filterMap Event.key?, v.SameLength w key) :
    (Event.textAll v es).length = (Event.textAll w es).length := by
  have hscanned := isScanned_of_events h
  have hverbatim := isVerbatim_of_events h
  have hcount : es.map (Event.count v) = es.map (Event.count w) :=
    List.map_congr_left fun e he => Event.count_congr (Event.forall_key? hkeys he)
  -- The counts are integers, and the lengths are their sums.
  apply Int.ofNat_inj.1
  calc ((Event.textAll v es).length : Int)
      = (es.map (Event.count v)).sum := (Event.sum_count hscanned hverbatim).symm
    _ = (es.map (Event.count w)).sum := congrArg List.sum hcount
    _ = (Event.textAll w es).length := Event.sum_count hscanned hverbatim

theorem widths_congr (h : events text = .ok es)
    (hkeys : ∀ key ∈ es.filterMap Event.key?, v.SameLength w key) :
    Event.widths v es = Event.widths w es := by
  have hscanned := isScanned_of_events h
  rw [← Event.filterMap_width? hscanned, ← Event.filterMap_width? hscanned]
  exact List.filterMap_congr fun e he => Event.width?_congr (Event.forall_key? hkeys he)

theorem measure_congr (h : events text = .ok es)
    (hkeys : ∀ key ∈ es.filterMap Event.key?, v.SameLength w key) :
    measure v text = measure w text := by
  rw [measure_eq v h, measure_eq w h, length_textAll_congr h hkeys, widths_congr h hkeys]

theorem summarize_congr (h : events text = .ok es)
    (hkeys : ∀ key ∈ es.filterMap Event.key?, v.SameLength w key) :
    summarize v text = summarize w text := by
  have hmissing : ((Keyed.distinct (es.filterMap Event.key?)).filter fun k => !v.defines k)
      = (Keyed.distinct (es.filterMap Event.key?)).filter fun k => !w.defines k := by
    refine List.filter_congr fun k hk => ?_
    rw [(hkeys k (Keyed.mem_distinct.1 hk)).defines_eq]
  rw [summarize_of_events h v, summarize_of_events h w, length_textAll_congr h hkeys,
    widths_congr h hkeys, hmissing]

/-- Results depend on the values of the keys that a template refers to, and on no others. If two
mappings agree on these keys, the rendered text, the lengths and the summary are the same. If they
only have values of the same lengths there, the lengths and the summary are still the same, and so is
the length of the rendered text. -/
theorem results_depend_on_referenced_keys (h : keys text = .ok names) (v w : Mapping) :
    ((∀ key ∈ names, v.value? key = w.value? key) →
      ∃ rendered lengths summary, render v text = .ok rendered ∧ render w text = .ok rendered
        ∧ measure v text = .ok lengths ∧ measure w text = .ok lengths
        ∧ summarize v text = .ok summary ∧ summarize w text = .ok summary)
    ∧ ((∀ key ∈ names, (v.value? key).map String.length = (w.value? key).map String.length) →
      ∃ rendered rendered' lengths summary,
        render v text = .ok rendered ∧ render w text = .ok rendered'
        ∧ rendered.length = rendered'.length
        ∧ measure v text = .ok lengths ∧ measure w text = .ok lengths
        ∧ summarize v text = .ok summary ∧ summarize w text = .ok summary) := by
  obtain ⟨es, hevents, rfl⟩ := exists_events_of_keys h
  constructor
  · intro hvalues
    have hkeys : ∀ key ∈ es.filterMap Event.key?, v.SameLength w key :=
      fun key hkey => .of_value?_eq (hvalues key hkey)
    refine ⟨_, _, _, render_of_events hevents v, ?_, measure_eq v hevents, ?_,
      summarize_of_events hevents v, ?_⟩
    · rw [render_of_events hevents, Event.textAll_congr hvalues]
    · rw [← measure_congr hevents hkeys, measure_eq v hevents]
    · rw [← summarize_congr hevents hkeys, summarize_of_events hevents v]
  · intro hkeys
    refine ⟨_, _, _, _, render_of_events hevents v, render_of_events hevents w,
      length_textAll_congr hevents hkeys, measure_eq v hevents, ?_,
      summarize_of_events hevents v, ?_⟩
    · rw [← measure_congr hevents hkeys, measure_eq v hevents]
    · rw [← summarize_congr hevents hkeys, summarize_of_events hevents v]

/-- A mapping with other entries in another order, and one with other values of the same lengths. -/
theorem results_depend_on_referenced_keys_other :
    keys "%<(3,trunc)%(a)%(z)%(b)" = .ok ["a", "z", "b"]
      ∧ (∃ rendered, render [("a", "value"), ("b", "x"), ("c", "1")] "%<(3,trunc)%(a)%(z)%(b)"
            = .ok rendered
          ∧ render [("d", "2"), ("b", "x"), ("a", "value")] "%<(3,trunc)%(a)%(z)%(b)" = .ok rendered
          ∧ rendered = "va…%(z)x")
      ∧ ∃ lengths, measure [("a", "value"), ("b", "x"), ("c", "1")] "%<(3,trunc)%(a)%(z)%(b)"
            = .ok lengths
          ∧ measure [("b", "%"), ("a", "12345")] "%<(3,trunc)%(a)%(z)%(b)" = .ok lengths
          ∧ lengths = ⟨8, #[3, 1]⟩ := by
  have hevents : events "%<(3,trunc)%(a)%(z)%(b)"
      = .ok [.key "a" ⟨.leftTrunc, 3⟩ ⟨11, "%(a)"⟩, .key "z" Format.unset ⟨15, "%(z)"⟩,
        .key "b" Format.unset ⟨19, "%(b)"⟩] :=
    events_of_toOption (by decide +kernel)
  have hkeys := keys_of_events hevents
  have hrender := render_of_events hevents [("a", "value"), ("b", "x"), ("c", "1")]
  have hmeasure := measure_eq [("a", "value"), ("b", "x"), ("c", "1")] hevents
  obtain ⟨rendered, -, -, hv, hw, -⟩ := (results_depend_on_referenced_keys hkeys
    [("a", "value"), ("b", "x"), ("c", "1")] [("d", "2"), ("b", "x"), ("a", "value")]).1
    (by decide +kernel)
  obtain ⟨-, -, lengths, -, -, -, -, hv', hw', -⟩ := (results_depend_on_referenced_keys hkeys
    [("a", "value"), ("b", "x"), ("c", "1")] [("b", "%"), ("a", "12345")]).2 (by decide +kernel)
  obtain rfl := Except.ok.inj (hrender.symm.trans hv)
  obtain rfl := Except.ok.inj (hmeasure.symm.trans hv')
  exact ⟨hkeys, ⟨_, hv, hw, by decide +kernel⟩, _, hv', hw', by decide +kernel⟩

end Template

end PercentTemplate
