import Mathlib.Algebra.Ring.Int.Defs
import Mathlib.Data.List.Basic
import PercentTemplate.Proofs.Template.Conservation
import PercentTemplate.Proofs.Template.Prediction

/-!
# One stream of events

What an interpretation makes of a template it makes of one stream of events, which depends on the
template alone. Rendering, measuring and listing keys are three folds of that stream, written down
here event by event without a scan: `Event.piece` is what an event adds to the text, `Event.count`
and `Event.width?` are what it adds to the lengths.

Main statement: every interpretation is told the same events, and the three results are these folds
(`Template.results_fold_events`).
-/

namespace PercentTemplate

namespace Event

/-- The written form of a key placeholder. -/
def verbatim (name : String) : String := "%(" ++ name ++ ")"

/-- What an event adds to the rendered text. A key without a value is written out again. -/
def piece (values : Mapping) : Event → String
  | literal s | escape s => s
  | key name format _ => ((values.value? name).map format.layout).getD (verbatim name)
  | malformed source => source.text

/-- The number of characters that an event adds to the total length. -/
def count (values : Mapping) : Event → Int
  | literal _ | escape _ => 1
  | key name format _ =>
    ((values.value? name).map format.layoutWidth).getD (verbatim name).length
  | malformed source => source.text.length

/-- The width that an event adds to the widths. -/
def width? (values : Mapping) : Event → Option Int
  | key name format _ => (values.value? name).map format.layoutWidth
  | literal _ | escape _ | malformed _ => none

/-- An event whose key, if it has one, stands in its stretch. -/
def IsVerbatim (e : Event) : Prop :=
  ∀ name format source, e = key name format source → source.text = verbatim name

variable {values : Mapping} {e : Event} {es : List Event}

theorem text_eq_piece (h : e.IsVerbatim) : e.text values = e.piece values := by
  cases e with
  | literal | escape | malformed => rfl
  | key name format source => rw [text, piece, fragment?, h name format source rfl]

theorem textAll_eq_join_piece (h : ∀ e ∈ es, e.IsVerbatim) :
    textAll values es = String.join (es.map (piece values)) := by
  rw [textAll, List.map_congr_left fun e he => text_eq_piece (h e he)]

/-- What an event counts is the length of the text that it becomes. -/
theorem count_eq_length (hscanned : e.IsScanned) (h : e.IsVerbatim) :
    e.count values = (e.text values).length := by
  cases e with
  | literal s | escape s =>
    have hlength : s.length = 1 := hscanned
    rw [count, text, hlength]
    rfl
  | malformed source => rfl
  | key name format source =>
    have hpending : format.IsPending := hscanned
    rw [text_eq_piece h, count, piece]
    cases values.value? name with
    | none => rfl
    | some value => exact (Format.length_layout hpending.one_le_width value).symm

theorem sum_count (hscanned : ∀ e ∈ es, e.IsScanned) (h : ∀ e ∈ es, e.IsVerbatim) :
    (es.map (count values)).sum = (textAll values es).length := by
  induction es with
  | nil => rfl
  | cons e es ih =>
    obtain ⟨hscanned_e, hscanned_es⟩ := List.forall_mem_cons.1 hscanned
    obtain ⟨he, hes⟩ := List.forall_mem_cons.1 h
    rw [List.map_cons, List.sum_cons, ih hscanned_es hes, count_eq_length hscanned_e he,
      textAll_cons, String.length_append, Int.natCast_add]

theorem width?_eq (hscanned : e.IsScanned) :
    e.width? values = (e.fragment? values).map fun s => (s.length : Int) := by
  cases e with
  | literal | escape | malformed => rfl
  | key name format source =>
    have hpending : format.IsPending := hscanned
    rw [width?, fragment?, Option.map_map]
    congr 1
    funext value
    exact (Format.length_layout hpending.one_le_width value).symm

theorem filterMap_width? (hscanned : ∀ e ∈ es, e.IsScanned) :
    es.filterMap (width? values) = widths values es := by
  rw [widths, List.map_filterMap]
  exact List.filterMap_congr fun e he => width?_eq (hscanned e he)

theorem foldl_keys (values : Mapping) (es : List Event) (names : Array String) :
    es.foldl (Interpretation.keys.handle values) names = names ++ (es.filterMap key?).toArray := by
  induction es generalizing names with
  | nil => simp
  | cons e es ih =>
    rw [List.foldl_cons, ih]
    cases e <;> simp [Interpretation.keys, List.filterMap_cons, key?]

end Event

/-- A key is reported with a stretch in which it stands. -/
theorem Course.isVerbatim {offset : Nat} {pending : Format} {cs rest : List Char}
    {laps : List Lap} (h : Course offset pending cs laps rest) :
    ∀ e ∈ laps.flatMap Lap.events, e.IsVerbatim := by
  rintro e he name format source rfl
  obtain ⟨l, hl, hkey⟩ := List.mem_flatMap.1 he
  have hfaithful := h.isFaithful l hl
  have hevents : l.events = [.key name format source] := by
    have hlength := hfaithful.length_events_le
    obtain ⟨e, heq⟩ := List.length_eq_one_iff.1
      (Nat.le_antisymm hlength (List.length_pos_of_mem hkey))
    rw [heq, List.mem_singleton] at hkey
    rw [heq, hkey]
  obtain ⟨hchars, -, rfl⟩ := hfaithful.of_key name format source hevents
  rw [← String.toList_inj, show l.source.text.toList = l.chars from rfl, hchars]
  simp [Event.verbatim]

/-- An interpretation that also keeps the events that it is told. -/
def Interpretation.witnessed {σ β : Type} (i : Interpretation σ β) :
    Interpretation (σ × Array Event) (β × List Event) where
  name := i.name
  start := (i.start, #[])
  handle values s e := (i.handle values s.1 e, s.2.push e)
  withoutValue := i.withoutValue
  result s := (i.result s.1, s.2.toList)
  isLive := i.isLive

theorem Interpretation.foldl_witnessed {σ β : Type} (i : Interpretation σ β) (values : Mapping)
    (es : List Event) (s : σ) (seen : Array Event) :
    es.foldl (i.witnessed.handle values) (s, seen)
      = (es.foldl (i.handle values) s, seen ++ es.toArray) := by
  induction es generalizing s seen with
  | nil => simp
  | cons e es ih =>
    rw [List.foldl_cons, List.foldl_cons]
    refine (ih (i.handle values s e) (seen.push e)).trans ?_
    simp

namespace Template

variable {text : String} {es : List Event}

theorem render_of_events (h : events text = .ok es) (values : Mapping) :
    render values text = .ok (Event.textAll values es) := by
  rw [render_eq, h]
  rfl

theorem keys_of_events (h : events text = .ok es) : keys text = .ok (es.filterMap Event.key?) := by
  rw [keys, value_interpret, h, Except.map]
  have hkeys := Event.foldl_keys [] es #[]
  rw [Array.empty_append] at hkeys
  exact congrArg (fun names => Except.ok names.toList) hkeys

theorem isVerbatim_of_events (h : events text = .ok es) : ∀ e ∈ es, e.IsVerbatim := by
  obtain ⟨hcourse, rfl⟩ := course_laps h
  exact hcourse.isVerbatim

/-- Whatever a scan is for and whatever values the keys have, it goes through the same laps, which
consume the template and nothing else, and reports the same events. Its result is a fold of them: the
rendered text is put together from the pieces of the events, the lengths from their counts and
widths, and the keys are those of the key placeholders. -/
theorem results_fold_events (h : events text = .ok es) (values : Mapping) :
    (laps text).flatMap Lap.chars = text.toList
      ∧ (laps text).flatMap Lap.events = es
      ∧ (∀ {σ β : Type} (i : Interpretation σ β) (tracing : Bool),
        (∃ last, Session.Runs i (Session.start i values text tracing) (laps text) last
          ∧ (Session.start i values text tracing).scan i = (last, none))
        ∧ (interpret i values text tracing).value
          = .ok (i.result (es.foldl (i.handle values) i.start))
        ∧ (interpret i.witnessed values text tracing).value
          = .ok (i.result (es.foldl (i.handle values) i.start), es))
      ∧ render values text = .ok (String.join (es.map (Event.piece values)))
      ∧ measure values text = .ok ⟨(es.map (Event.count values)).sum,
        (es.filterMap (Event.width? values)).toArray⟩
      ∧ keys text = .ok (es.filterMap Event.key?) := by
  obtain ⟨hcourse, hes⟩ := course_laps h
  have hscanned : ∀ e ∈ es, e.IsScanned := hes ▸ hcourse.isScanned (.inl rfl)
  have hverbatim : ∀ e ∈ es, e.IsVerbatim := hes ▸ hcourse.isVerbatim
  refine ⟨?_, hes.symm, ?_, ?_, ?_, ?_⟩
  · rw [hcourse.eq_append, List.append_nil]
  · intro σ β i tracing
    refine ⟨?_, ?_, ?_⟩
    · -- The course does not mention the interpretation, and every interpretation can run it.
      obtain ⟨last, hruns, -, hrest⟩ := exists_runs_start i values tracing hcourse
      exact ⟨last, hruns, by rw [hruns.scan_eq, Session.scan_of_rest_eq_nil i hrest]⟩
    · rw [value_interpret, h, Except.map]
    · rw [value_interpret, h, Except.map]
      have hfold := i.foldl_witnessed values es i.start #[]
      rw [Array.empty_append] at hfold
      exact congrArg (fun s => Except.ok (i.result s.1, s.2.toList)) hfold
  · rw [render_of_events h, Event.textAll_eq_join_piece hverbatim]
  · rw [measure_eq values h, Event.sum_count hscanned hverbatim, Event.filterMap_width? hscanned]
  · exact keys_of_events h

/-- A value that looks like a template is put in as it is, while the template around it is read. -/
theorem results_fold_events_percent :
    ∃ es, events "%(a)%%%>(5)%(a)%(z)%" = .ok es
      ∧ es = [.key "a" Format.unset ⟨0, "%(a)"⟩, .escape "%", .key "a" ⟨.right, 5⟩ ⟨11, "%(a)"⟩,
        .key "z" Format.unset ⟨15, "%(z)"⟩, .malformed ⟨19, "%"⟩]
      ∧ render [("a", "%(z)"), ("b", "%n")] "%(a)%%%>(5)%(a)%(z)%" = .ok "%(z)% %(z)%(z)%"
      ∧ measure [("a", "%(z)"), ("b", "%n")] "%(a)%%%>(5)%(a)%(z)%" = .ok ⟨15, #[4, 5]⟩
      ∧ keys "%(a)%%%>(5)%(a)%(z)%" = .ok ["a", "a", "z"] := by
  have hevents : events "%(a)%%%>(5)%(a)%(z)%"
      = .ok [.key "a" Format.unset ⟨0, "%(a)"⟩, .escape "%", .key "a" ⟨.right, 5⟩ ⟨11, "%(a)"⟩,
        .key "z" Format.unset ⟨15, "%(z)"⟩, .malformed ⟨19, "%"⟩] :=
    events_of_toOption (by decide +kernel)
  obtain ⟨-, -, -, hrender, hmeasure, hkeys⟩ :=
    results_fold_events hevents [("a", "%(z)"), ("b", "%n")]
  refine ⟨_, hevents, rfl, hrender.trans ?_, hmeasure.trans ?_, hkeys⟩
  · exact congrArg Except.ok (by decide +kernel)
  · exact congrArg Except.ok (by decide +kernel)

end Template

end PercentTemplate
