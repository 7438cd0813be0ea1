import PercentTemplate.Proofs.Template.Lap

/-!
# Courses and moments

Courses that follow one another, and the moments of a scan. `Lap.leaves` is the format that laps
leave behind; `Session.Reaches` says that turns lead from one session to another, so that it covers
scans that come to a fault as well.

Main statements: courses compose (`Course.append`), and every moment of a scan lies behind the laps
of a course (`Session.Reaches.exists_runs`).
-/

namespace PercentTemplate

open Placeholder (Attempt)

/-- The format that is pending behind laps. -/
def Lap.leaves : Format → List Lap → Format
  | pending, [] => pending
  | _, l :: laps => leaves l.format laps

/-- A lap begins under the format that the laps before it leave. -/
theorem Lap.Follow.pending_eq {offset : Nat} {pending : Format} {before after : List Lap} {l : Lap}
    (h : Follow offset pending (before ++ l :: after)) : l.pending = leaves pending before := by
  induction before generalizing offset pending with
  | nil => exact h.2.1
  | cons m before ih => exact ih h.2.2

theorem Course.append {offset : Nat} {pending : Format} {cs mid rest : List Char}
    {laps laps' : List Lap} (h : Course offset pending cs laps mid)
    (h' : Course (offset + (laps.flatMap Lap.chars).length) (Lap.leaves pending laps) mid laps'
      rest) : Course offset pending cs (laps ++ laps') rest := by
  induction h with
  | done => exact h'
  | literal hc _ ih =>
    refine .literal hc (ih ?_)
    rw [List.flatMap_cons, Lap.chars_literal, List.length_append, ← Nat.add_assoc] at h'
    exact h'
  | attempt ha _ ih =>
    refine .attempt ha (ih ?_)
    rw [List.flatMap_cons, Placeholder.chars_lap, List.length_append, ← Nat.add_assoc] at h'
    exact h'

namespace Session

variable {σ β : Type} {i : Interpretation σ β} {s t u : Session σ} {laps : List Lap}

theorem Runs.format_eq (h : Runs i s laps t) : t.format = Lap.leaves s.format laps := by
  induction h with
  | refl => rfl
  | lap h _ ih => rw [ih, h.format_eq, Lap.leaves]

/-- Turns of a scan lead from one session to another. -/
inductive Reaches (i : Interpretation σ β) : Session σ → Session σ → Prop
  | refl {s : Session σ} : Reaches i s s
  | turn {s t u : Session σ} (h : s.turn i = .next t) (hrest : Reaches i t u) : Reaches i s u

theorem Runs.reaches (h : Runs i s laps t) : Reaches i s t := by
  induction h with
  | refl => exact .refl
  | lap h _ ih => exact .turn h.turn_eq ih

/-- What a turn does is a course of one lap. -/
theorem exists_performs_of_turn (hs : s.cursor.IsSound) (h : s.turn i = .next t) :
    ∃ lap, s.Performs i lap t
      ∧ Course s.cursor.position s.format s.cursor.rest [lap] t.cursor.rest := by
  have hunique : ∀ {lap u}, s.Performs i lap u → u = t := by
    intro lap u hu
    have hturn := hu.turn_eq.symm.trans h
    cases hturn
    rfl
  cases hrest : s.cursor.rest with
  | nil =>
    rw [turn_of_rest_eq_nil i hrest] at h
    cases h
  | cons c cs =>
    by_cases hc : c = '%'
    · subst hc
      rcases Placeholder.exists_attempt cs with ⟨digits, hrefused⟩ | ⟨used, p, rest, hsplit, ha⟩
      · rw [← hrest] at hrefused
        rw [turn_of_isRefused i hs hrefused] at h
        cases h
      · obtain ⟨u, hu⟩ := exists_performs_attempt i hs ha (hrest.trans hsplit)
        obtain rfl := hunique hu
        have hbehind : u.cursor.rest = rest := hu.rest_eq (by simpa using hrest.trans hsplit)
        refine ⟨_, hu, ?_⟩
        rw [hsplit, hbehind]
        exact .attempt ha .done
    · obtain ⟨u, hu⟩ := exists_performs_literal i hs hrest hc
      obtain rfl := hunique hu
      have hbehind : u.cursor.rest = cs := hu.rest_eq (by simpa using hrest)
      refine ⟨_, hu, ?_⟩
      rw [hbehind]
      exact .literal hc .done

/-- Every moment of a scan lies behind the laps of a course. -/
theorem Reaches.exists_runs (h : Reaches i s t) (hs : s.cursor.IsSound) :
    ∃ laps, Runs i s laps t
      ∧ Course s.cursor.position s.format s.cursor.rest laps t.cursor.rest := by
  induction h with
  | refl => exact ⟨[], .refl, .done⟩
  | turn h _ ih =>
    obtain ⟨lap, hperforms, hlap⟩ := exists_performs_of_turn hs h
    obtain ⟨laps, hruns, hcourse⟩ := ih hperforms.passes.isSound
    refine ⟨lap :: laps, .lap hperforms hruns, ?_⟩
    -- The second course starts where the first lap has left the cursor and the format.
    rw [hperforms.position_eq, hperforms.format_eq] at hcourse
    refine hlap.append ?_
    rw [List.flatMap_singleton]
    exact hcourse

end Session

/-- A moment of the scan of a template lies behind laps of the template. -/
theorem Template.exists_course_of_reaches {σ β : Type} {i : Interpretation σ β} {values : Mapping}
    {text : String} {tracing : Bool} {s : Session σ}
    (h : Session.Reaches i (Session.start i values text tracing) s) :
    ∃ laps, Session.Runs i (Session.start i values text tracing) laps s
      ∧ Course 0 Format.unset text.toList laps s.cursor.rest := by
  obtain ⟨laps, hruns, hcourse⟩ := h.exists_runs (Cursor.isSound_ofString text)
  refine ⟨laps, hruns, ?_⟩
  change Course 0 Format.unset (Cursor.ofString text).rest laps s.cursor.rest at hcourse
  rwa [Cursor.rest_ofString] at hcourse

end PercentTemplate
