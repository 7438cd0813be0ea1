import PercentTemplate.Report.Summary

/-!
# Reports pass their own checks

Every report and every summary is read back from its JSON object, whatever its numbers and keys are
(`MeasureReport.ofJson_toJson`, `TemplateSummary.ofJson_toJson`).
-/

namespace PercentTemplate

namespace Schema

theorem gather_map_ok {α : Type} (xs : List α) : gather (xs.map Except.ok) = .ok xs := by
  have hproblems : (xs.map Except.ok).flatMap (problems : Checked α → List Problem) = [] := by
    rw [List.flatMap_map]
    exact List.flatMap_eq_nil_iff.2 fun x _ => rfl
  have hvalues : (xs.map (Except.ok : α → Checked α)).filterMap Except.toOption = xs := by
    rw [List.filterMap_map]
    exact List.filterMap_some
  rw [gather, hproblems, hvalues]
  rfl

/-- A list of items that each pass their check passes its own. -/
theorem listOf_map {α : Type} {item : Json → Checked α} {write : α → Json}
    (h : ∀ x, item (write x) = .ok x) (xs : List α) :
    listOf item (.arr (xs.map write)) = .ok xs := by
  have hchecks : (xs.map write).mapIdx (fun i v => within (.item i) (item v))
      = xs.map Except.ok := by
    refine List.ext_getElem (by simp) ?_
    intro i _ _
    simp [h, within]
  rw [listOf, hchecks, gather_map_ok]

theorem listOf_integer (ns : List Int) : listOf integer (.arr (ns.map .int)) = .ok ns := by
  have hitem : ∀ n, integer (.int n) = .ok n := fun _ => rfl
  exact listOf_map hitem ns

theorem listOf_text (ss : List String) : listOf text (.arr (ss.map .str)) = .ok ss := by
  have hitem : ∀ s, text (.str s) = .ok s := fun _ => rfl
  exact listOf_map hitem ss

theorem natural_int (n : Nat) : natural (.int n) = .ok n := by
  rw [natural, integer]
  exact if_neg (Int.not_lt.2 (Int.natCast_nonneg n))

end Schema

theorem MeasureReport.ofJson_toJson (r : MeasureReport) : ofJson r.toJson = .ok r := by
  simp [ofJson, toJson, Schema.field, Schema.unknown, Schema.within, Keyed.get?,
    Schema.natural_int, Schema.listOf_integer]

theorem TemplateSummary.ofJson_toJson (s : TemplateSummary) : ofJson s.toJson = .ok s := by
  simp [ofJson, toJson, Schema.field, Schema.unknown, Schema.within, Keyed.get?,
    Schema.natural_int, Schema.listOf_integer, Schema.listOf_text]

end PercentTemplate
