import Mathlib.Algebra.GroupWithZero.Nat
import PercentTemplate.Proofs.Template.Prediction
import PercentTemplate.Template.Session

/-!
# Measuring keeps step with rendering

Two sessions over one template, one that renders and one that measures, driven by the same steps. The
steps come in any order, also in one that no scan takes: stretches are given up before there is a
mark, or twice over one mark, and keys follow one another under the same format.
`Session.InStep` says what holds between the two sessions.

Main statement: behind every step they are at the same place under the same format, and the lengths
measured are those of the fragments rendered (`Session.measure_keeps_step_with_render`).
-/

namespace PercentTemplate.Session

open Interpretation (Lengths)

/-- Characters come one at a time, and a format that cuts has room for the ellipsis. -/
def Step.IsRegular : Step → Prop
  | format f => f.truncates = true → 1 ≤ f.width
  | literal text | escape text => text.length = 1
  | peek | next _ | mark | reset | key _ | malformed | finish => True

instance : DecidablePred Step.IsRegular := fun step =>
  match step with
  | .format f => inferInstanceAs (Decidable (f.truncates = true → 1 ≤ f.width))
  | .literal text | .escape text => inferInstanceAs (Decidable (text.length = 1))
  | .peek | .next _ | .mark | .reset | .key _ | .malformed | .finish => isTrue trivial

/-- Whether a step is a key placeholder whose key has a value. -/
def Step.isResolved (values : Mapping) : Step → Bool
  | key name => values.defines name
  | peek | next _ | mark | format _ | reset | literal _ | escape _ | malformed | finish => false

/-- The fragments that rendering adds in steps that are key placeholders with a value. -/
def placed (s : Session (Array String)) : List Step → List String
  | [] => []
  | step :: steps =>
    -- What a step adds is what the state behind it has in addition.
    let t := (s.perform .render step).2
    (if step.isResolved s.values then t.state.toList.drop s.state.size else []) ++ t.placed steps

/-- The session `t` has measured what `s` has rendered, and `fragments` are the values in it. -/
structure InStep (s : Session (Array String)) (t : Session Lengths) (fragments : List String) :
    Prop where
  values_eq : t.values = s.values
  cursor_eq : t.cursor = s.cursor
  format_eq : t.format = s.format
  /-- Whatever is pending has room for the ellipsis. -/
  one_le_width : s.format.truncates = true → 1 ≤ s.format.width
  total_eq : t.state.total = (String.join s.state.toList).length
  widths_eq : t.state.widths.toList = fragments.map fun f => (f.length : Int)

variable {s : Session (Array String)} {t : Session Lengths} {fragments : List String}

theorem inStep_start (values : Mapping) (text : String) (tracing : Bool) :
    InStep (start .render values text tracing) (start .measure values text tracing) [] where
  values_eq := rfl
  cursor_eq := rfl
  format_eq := rfl
  one_le_width := fun h => nomatch h
  total_eq := rfl
  widths_eq := rfl

/-- A key placeholder places the value of its key as the pending format lays it out. -/
theorem placed_key (s : Session (Array String)) (name : String) :
    s.placed [.key name] = ((s.values.value? name).map s.format.layout).toList := by
  cases hvalue : s.values.value? name with
  | none => simp [placed, Step.isResolved, Mapping.defines, hvalue]
  | some value =>
    have hpush : (s.perform .render (.key name)).2.state = s.state.push (s.format.layout value) := by
      simp [Session.perform, emitKey, emit, Interpretation.render, hvalue]
    simp [placed, Step.isResolved, Mapping.defines, hvalue, hpush]

namespace InStep

theorem source_eq (h : InStep s t fragments) : t.source = s.source := by
  rw [source, source, h.cursor_eq]

theorem move (h : InStep s t fragments) (f : Cursor → Cursor) :
    InStep { s with cursor := f s.cursor } { t with cursor := f t.cursor } fragments :=
  ⟨h.values_eq, congrArg f h.cursor_eq, h.format_eq, h.one_le_width, h.total_eq, h.widths_eq⟩

theorem setFormat (h : InStep s t fragments) {f : Format} (hf : f.truncates = true → 1 ≤ f.width) :
    InStep { s with format := f } { t with format := f } fragments :=
  ⟨h.values_eq, h.cursor_eq, rfl, hf, h.total_eq, h.widths_eq⟩

/-- Both sessions take an event in, and its value if it has one. -/
theorem emit (h : InStep s t fragments) {e : Event} (he : e.IsCounted) :
    InStep (s.emit .render e) (t.emit .measure e)
      (fragments ++ (e.fragment? s.values).toList) := by
  have hmeasured : (t.emit .measure e).state = ⟨t.state.total + (e.text s.values).length,
      t.state.widths ++ (Event.widths s.values [e]).toArray⟩ := by
    rw [← h.values_eq]
    exact Event.handle_measure t.values t.state he
  have hrendered : String.join (s.emit .render e).state.toList
      = String.join s.state.toList ++ e.text s.values :=
    Event.join_handle_render s.values s.state e
  have hwidths : Event.widths s.values [e]
      = (e.fragment? s.values).toList.map fun f => (f.length : Int) := by
    cases hfragment : e.fragment? s.values <;> simp [Event.widths, hfragment]
  refine ⟨h.values_eq, h.cursor_eq, h.format_eq, h.one_le_width, ?_, ?_⟩
  · rw [hmeasured, hrendered, h.total_eq, String.length_append, Int.natCast_add]
  · rw [hmeasured, Array.toList_append, h.widths_eq, List.map_append, hwidths]

/-- One step keeps two sessions in step. -/
theorem perform (h : InStep s t fragments) {step : Step} (hstep : step.IsRegular) :
    InStep (s.perform .render step).2 (t.perform .measure step).2
      (fragments ++ s.placed [step]) := by
  have hother : step.isResolved s.values = false → fragments ++ s.placed [step] = fragments := by
    intro hresolved
    simp [placed, hresolved]
  cases step with
  | peek =>
    rw [hother rfl]
    exact h.move fun c => c.peek.2
  | next count =>
    rw [hother rfl]
    exact h.move fun c => (nextMany [] c count).2
  | mark =>
    rw [hother rfl]
    exact h.move Cursor.mark
  | format f =>
    rw [hother rfl]
    exact h.setFormat hstep
  | reset =>
    rw [hother rfl]
    exact h.setFormat (f := Format.unset) fun hcut => nomatch hcut
  | finish =>
    rw [hother rfl]
    exact h
  | literal text => exact h.emit (e := .literal text) hstep
  | escape text => exact h.emit (e := .escape text) hstep
  | malformed =>
    show InStep (s.emit .render (.malformed s.source)) (t.emit .measure (.malformed t.source)) _
    rw [h.source_eq]
    exact h.emit (e := .malformed s.source) trivial
  | key name =>
    -- The format is the one that any step before has set, not one that a directive can set.
    have hcounted : (Event.key name s.format s.source).IsCounted := h.one_le_width
    show InStep (s.emit .render (.key name s.format s.source))
      (t.emit .measure (.key name t.format t.source)) _
    rw [placed_key, h.format_eq, h.source_eq]
    exact h.emit hcounted

end InStep

theorem placed_cons (s : Session (Array String)) (step : Step) (steps : List Step) :
    s.placed (step :: steps) = s.placed [step] ++ (s.perform .render step).2.placed steps := by
  simp [placed]

theorem length_performAll {σ β : Type} (i : Interpretation σ β) (s : Session σ)
    (steps : List Step) : (s.performAll i steps).length = steps.length := by
  induction steps generalizing s with
  | nil => rfl
  | cons step steps ih => exact congrArg (· + 1) (ih _)

/-- Any number of steps keeps two sessions in step. -/
theorem InStep.performAll (h : InStep s t fragments) {steps : List Step}
    (hsteps : ∀ step ∈ steps, step.IsRegular) {n : Nat} {a : Answer String} {b : Answer Lengths}
    {s' : Session (Array String)} {t' : Session Lengths}
    (hs : (s.performAll .render steps)[n]? = some (a, s'))
    (ht : (t.performAll .measure steps)[n]? = some (b, t')) :
    InStep s' t' (fragments ++ s.placed (steps.take (n + 1))) := by
  induction steps generalizing s t fragments n with
  | nil => cases hs
  | cons step steps ih =>
    obtain ⟨hstep, hrest⟩ := List.forall_mem_cons.1 hsteps
    have hnext := h.perform hstep
    cases n with
    | zero =>
      cases hs
      cases ht
      exact hnext
    | succ n =>
      -- The fragments of the first step go over to those that are there already.
      have htail := ih hnext hrest hs ht
      rw [List.append_assoc, ← placed_cons] at htail
      exact htail

/-- Whatever steps are taken in a session that renders and in one that measures, behind every one of
them both have the same cursor, hence the same place and the same mark, and the same format. The
total is the length of all fragments rendered, and the widths are the lengths of those that key
placeholders with a value have added, in order. -/
theorem measure_keeps_step_with_render (values : Mapping) (text : String) (tracing : Bool)
    {steps : List Step} (h : ∀ step ∈ steps, step.IsRegular) :
    ((start .render values text tracing).performAll .render steps).length = steps.length
      ∧ ((start .measure values text tracing).performAll .measure steps).length = steps.length
      ∧ ∀ n a b s t,
        ((start .render values text tracing).performAll .render steps)[n]? = some (a, s) →
        ((start .measure values text tracing).performAll .measure steps)[n]? = some (b, t) →
        t.cursor = s.cursor ∧ t.format = s.format
          ∧ t.state.total = (((s.state.toList.map String.length).sum : Nat) : Int)
          ∧ t.state.widths.toList = ((start .render values text tracing).placed
            (steps.take (n + 1))).map fun f => (f.length : Int) := by
  refine ⟨length_performAll _ _ _, length_performAll _ _ _, ?_⟩
  intro n a b s t hs ht
  have hinStep := (inStep_start values text tracing).performAll h hs ht
  rw [List.nil_append] at hinStep
  refine ⟨hinStep.cursor_eq, hinStep.format_eq, ?_, hinStep.widths_eq⟩
  rw [hinStep.total_eq, String.length_join]

/-- A stretch given up before there is a mark and again twice over one, and a key three times under
formats that stay pending, one of them with a width that no directive has. -/
theorem measure_keeps_step_with_render_unmarked :
    ∃ (steps : List Step) (a : _) (b : _) (s : _) (t : _),
      steps = [.malformed, .next 1, .mark, .format ⟨.rightLtrunc, 3⟩, .key "a", .key "a", .next 2,
          .malformed, .malformed, .key "b", .format ⟨.left, -2⟩, .key "a", .literal "q"]
        ∧ (∀ step ∈ steps, step.IsRegular)
        ∧ ((start .render [("a", "value")] "%(b)" false).performAll .render steps)[12]? = some (a, s)
        ∧ ((start .measure [("a", "value")] "%(b)" false).performAll .measure steps)[12]?
          = some (b, t)
        ∧ s.state.toList = ["…ue", "…ue", "(b", "(b", "(b", "value", "q"]
        ∧ t.cursor = s.cursor ∧ t.state.total = 18 ∧ t.state.widths.toList = [3, 3, 5] := by
  have hregular : ∀ step ∈ ([.malformed, .next 1, .mark, .format ⟨.rightLtrunc, 3⟩, .key "a",
      .key "a", .next 2, .malformed, .malformed, .key "b", .format ⟨.left, -2⟩, .key "a",
      .literal "q"] : List Step), step.IsRegular := by decide
  obtain ⟨hcursor, -, htotal, hwidths⟩ :=
    (measure_keeps_step_with_render [("a", "value")] "%(b)" false hregular).2.2 12 _ _ _ _ rfl rfl
  exact ⟨_, _, _, _, _, rfl, hregular, rfl, rfl, by decide +kernel, hcursor,
    htotal.trans (by decide +kernel), hwidths.trans (by decide +kernel)⟩

end PercentTemplate.Session
