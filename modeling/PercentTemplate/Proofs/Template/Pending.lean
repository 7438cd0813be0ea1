import PercentTemplate.Proofs.Template.Lap

/-!
# The pending format

A pending format is either unset or one that a directive can set, in particular one whose width is
positive (`Course.isScanned`).
-/

namespace PercentTemplate

/-- A format that can be pending. -/
def Format.IsPending (f : Format) : Prop :=
  f = Format.unset ∨ f.kind ≠ .none ∧ 1 ≤ f.width ∧ f.width ≤ Placeholder.maxWidth

theorem Format.IsPending.one_le_width {f : Format} (h : f.IsPending) (hcut : f.truncates = true) :
    1 ≤ f.width := by
  rcases h with rfl | ⟨_, hwidth, _⟩
  · cases hcut
  · exact hwidth

/-- An event as a scan reports it: one character at a time, and a key under a format that can be
pending. -/
def Event.IsScanned : Event → Prop
  | literal s | escape s => s.length = 1
  | key _ format _ => format.IsPending
  | malformed _ => True

namespace Placeholder

theorem Side.plain_ne_none (side : Side) : side.plain ≠ .none := by
  cases side <;> decide

theorem Side.ne_none_of_keyword? {side : Side} {word : String} {kind : Format.Kind}
    (h : side.keyword? word = some kind) : kind ≠ .none := by
  rintro rfl
  unfold Side.keyword? at h
  split at h <;> cases h

/-- The format of a directive can be pending. -/
theorem Attempt.isPending {used rest : List Char} {f : Format}
    (h : Attempt used (.directive f) rest) : f.IsPending := by
  generalize hp : Placeholder.directive f = p at h
  cases h with
  | directive side before hwidth hmax _ hend =>
    have hpos := hwidth.ofDigits_pos
    have hbounds : (1 : Int) ≤ Integer.ofDigits _ ∧ (Integer.ofDigits _ : Int) ≤ maxWidth :=
      ⟨Int.ofNat_le.2 hpos, Int.ofNat_le.2 hmax⟩
    cases hend with
    | plain after =>
      cases hp
      exact .inr ⟨side.plain_ne_none, hbounds⟩
    | word after comma last hword hlast =>
      unfold Side.outcome at hp
      split at hp
      · rename_i kind hkind
        cases hp
        exact .inr ⟨Side.ne_none_of_keyword? hkind, hbounds⟩
      · cases hp
    | openWidth | openWord => cases hp
  | _ => cases hp

/-- An attempt keeps the pending format one that can be pending. -/
theorem Attempt.isPending_leaves {used rest : List Char} {p : Placeholder} {pending : Format}
    (h : Attempt used p rest) (hpending : pending.IsPending) : (p.leaves pending).IsPending := by
  rcases p with _ | _ | f | (_ | _)
  · exact hpending
  · exact .inl rfl
  · exact h.isPending
  · exact hpending
  · exact .inl rfl

end Placeholder

theorem Course.isScanned {offset : Nat} {pending : Format} {cs rest : List Char}
    {laps : List Lap} (h : Course offset pending cs laps rest) (hpending : pending.IsPending) :
    ∀ e ∈ laps.flatMap Lap.events, e.IsScanned := by
  induction h with
  | done => exact fun e he => nomatch he
  | literal hc _ ih =>
    intro e he
    rcases List.mem_append.1 he with he | he
    · rw [List.mem_singleton.1 he]
      exact String.length_singleton
    · exact ih hpending e he
  | @attempt offset pending used cs rest p laps ha _ ih =>
    intro e he
    rcases List.mem_append.1 he with he | he
    · rcases p with _ | _ | _ | _
      · rw [List.mem_singleton.1 he]
        exact String.length_singleton
      · rw [List.mem_singleton.1 he]
        exact hpending
      · cases he
      · rw [List.mem_singleton.1 he]
        trivial
    · exact ih (ha.isPending_leaves hpending) e he

theorem Template.isScanned_of_events {text : String} {es : List Event} (h : events text = .ok es) :
    ∀ e ∈ es, e.IsScanned := by
  obtain ⟨hcourse, rfl⟩ := course_laps h
  exact hcourse.isScanned (.inl rfl)

end PercentTemplate
