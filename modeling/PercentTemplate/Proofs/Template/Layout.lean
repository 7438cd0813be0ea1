import Mathlib.Data.List.DropRight
import PercentTemplate.Template.Layout

/-!
# The layout of a value

The width that is computed for a value is the length of its layout, for every format whose cut has
room for the ellipsis (`Format.length_layout`). A cut without room still shows an ellipsis, so that
the width is wrong for every other format and value, but for the empty value at width 0
(`Format.layoutWidth_eq_length_iff`).

`Format.Kind.shown` says without signed positions what each kind shows of a value.

Main statement: with room for the ellipsis, that is what a layout shows, and a layout is laid out as
it is (`Format.layout_shows_value`).
-/

namespace PercentTemplate.Format

variable {f : Format}

/-- A cut value has exactly the width of the format. -/
theorem length_cut {value : List Char} (hwidth : 1 ≤ f.width) (hlong : f.width < value.length) :
    ((f.cut value).length : Int) = f.width := by
  unfold cut
  split
  · simp only [Slice.since, Slice.bound, List.length_cons, List.length_drop]
    split <;> omega
  · simp only [Slice.upTo, Slice.bound, List.length_append, List.length_take, List.length_singleton]
    split <;> omega

theorem length_pad (f : Format) (value : List Char) :
    ((f.pad value).length : Int) = max (value.length : Int) f.width := by
  unfold pad
  split <;> simp only [List.length_append, List.length_replicate] <;> omega

theorem length_layoutChars (h : f.truncates = true → 1 ≤ f.width) (value : List Char) :
    ((f.layoutChars value).length : Int)
      = if f.kind = .none then (value.length : Int)
        else if f.truncates then f.width else max (value.length : Int) f.width := by
  unfold layoutChars
  by_cases hkind : f.kind = .none
  · rw [if_pos hkind, if_pos hkind]
  · rw [if_neg hkind, if_neg hkind]
    by_cases hcut : f.truncates = true
    · by_cases hlong : f.width < value.length
      · simp only [hcut, hlong, decide_true, Bool.and_self, ↓reduceIte]
        exact length_cut (h hcut) hlong
      · simp only [hcut, hlong, decide_false, Bool.and_false, Bool.false_eq_true, ↓reduceIte]
        split
        · omega
        · rw [length_pad]
          omega
    · simp only [hcut, Bool.false_and, Bool.false_eq_true, ↓reduceIte]
      split
      · omega
      · exact length_pad f value

/-- The width computed for a value is the length of its layout. -/
theorem length_layout (h : f.truncates = true → 1 ≤ f.width) (value : String) :
    ((f.layout value).length : Int) = f.layoutWidth value := by
  rw [layout, String.length_ofList, length_layoutChars h, layoutWidth, String.length_toList]

/-! Formats without room for the ellipsis. -/

theorem ne_none_of_truncates (h : f.truncates = true) : f.kind ≠ .none := by
  intro hnone
  simp [truncates, hnone] at h

theorem layoutChars_of_lt (hcut : f.truncates = true) {value : List Char}
    (hlong : f.width < value.length) : f.layoutChars value = f.cut value := by
  simp [layoutChars, ne_none_of_truncates hcut, hcut, hlong]

theorem length_cut_pos (f : Format) (value : List Char) : 0 < (f.cut value).length := by
  unfold cut
  split
  · exact Nat.succ_pos _
  · rw [List.length_append, List.length_singleton]
    exact Nat.succ_pos _

/-- Without room for the ellipsis a layout is longer than the width, unless there is nothing to show
in no room. -/
theorem lt_length_layout (hcut : f.truncates = true) (hwidth : f.width ≤ 0) {value : String}
    (h : ¬(f.width = 0 ∧ value = "")) : f.width < (f.layout value).length := by
  rw [layout, String.length_ofList]
  by_cases hlong : f.width < value.toList.length
  · have hpos := f.length_cut_pos value.toList
    rw [layoutChars_of_lt hcut hlong]
    omega
  · have hlength : value.toList.length = 0 := by omega
    have hempty : value = "" := by
      rwa [String.length_toList, String.length_eq_zero_iff] at hlength
    exact absurd ⟨by omega, hempty⟩ h

/-- The width computed for a value is the length of its layout exactly if the format does not cut,
its cut has room for the ellipsis, or the empty value is shown in no room. -/
theorem layoutWidth_eq_length_iff (f : Format) (value : String) :
    f.layoutWidth value = (f.layout value).length
      ↔ f.truncates = false ∨ 1 ≤ f.width ∨ f.width = 0 ∧ value = "" := by
  by_cases hroom : f.truncates = true → 1 ≤ f.width
  · have hlength := length_layout hroom value
    refine iff_of_true hlength.symm ?_
    cases hcut : f.truncates with
    | false => exact .inl rfl
    | true => exact .inr (.inl (hroom hcut))
  · obtain ⟨hcut, hwidth⟩ := Classical.not_imp.1 hroom
    have hkind := ne_none_of_truncates hcut
    have hcomputed : f.layoutWidth value = f.width := by
      rw [layoutWidth, if_neg hkind, if_pos hcut]
    rw [hcomputed]
    constructor
    · intro heq
      by_cases hnothing : f.width = 0 ∧ value = ""
      · exact .inr (.inr hnothing)
      · have hlt := lt_length_layout hcut (by omega) hnothing
        omega
    · rintro (hfalse | hpos | ⟨hzero, rfl⟩)
      · rw [hcut] at hfalse
        cases hfalse
      · exact absurd hpos hwidth
      · simp [layout, layoutChars, hkind, hzero]

/-! What a layout shows. -/

/-- The spaces that a value needs to be `width` characters long. -/
def filling (width : Nat) (value : List Char) : List Char :=
  List.replicate (width - value.length) ' '

/-- What a kind shows of a value at a positive width: all of it and the spaces that it needs, or, if
it is longer and the kind cuts, as much of its beginning or end as leaves room for the ellipsis. -/
def Kind.shown (width : Nat) (value : List Char) : Kind → List Char
  | none => value
  | left => value ++ filling width value
  | right => filling width value ++ value
  | leftTrunc =>
    if value.length ≤ width then value ++ filling width value
    else value.take (width - 1) ++ [ellipsis]
  | rightTrunc =>
    if value.length ≤ width then filling width value ++ value
    else value.take (width - 1) ++ [ellipsis]
  | rightLtrunc =>
    if value.length ≤ width then filling width value ++ value
    else ellipsis :: value.rtake (width - 1)

theorem pad_eq (f : Format) (value : List Char) :
    f.pad value = if f.padsLeft then filling f.width.toNat value ++ value
      else value ++ filling f.width.toNat value := by
  have hcount : (f.width - value.length).toNat = f.width.toNat - value.length := by omega
  rw [pad, hcount]
  rfl

theorem pad_eq_self {value : List Char} (h : f.width ≤ value.length) : f.pad value = value := by
  have hnone : filling f.width.toNat value = [] := by
    rw [filling, List.replicate_eq_nil_iff]
    omega
  rw [pad_eq, hnone, List.nil_append, List.append_nil, ite_self]

/-- A value that is not cut is padded, if only with no space. -/
theorem layoutChars_of_fits (hkind : f.kind ≠ .none) {value : List Char}
    (h : f.truncates = true → value.length ≤ f.width) : f.layoutChars value = f.pad value := by
  have hwhole : (f.truncates && decide (f.width < value.length)) = false := by
    rw [Bool.and_eq_false_imp]
    intro hcut
    exact decide_eq_false (Int.not_lt.2 (h hcut))
  rw [layoutChars, if_neg hkind, hwhole, if_neg Bool.false_ne_true]
  split
  · rename_i hle
    exact (pad_eq_self hle).symm
  · rfl

theorem pad_eq_shown (hkind : f.kind ≠ .none) {value : List Char}
    (h : f.truncates = true → value.length ≤ f.width) :
    f.pad value = f.kind.shown f.width.toNat value := by
  rw [pad_eq]
  obtain ⟨kind, width⟩ := f
  cases kind with
  | none => exact absurd rfl hkind
  | left | right => rfl
  | leftTrunc | rightTrunc | rightLtrunc =>
    have hfits : value.length ≤ width.toNat := by
      have hle := h rfl
      dsimp only at hle
      omega
    rw [Kind.shown, if_pos hfits]
    rfl

theorem cut_eq_shown (hcut : f.truncates = true) (hwidth : 1 ≤ f.width) {value : List Char}
    (hlong : f.width < value.length) : f.cut value = f.kind.shown f.width.toNat value := by
  obtain ⟨kind, width⟩ := f
  dsimp only at hwidth hlong
  have hover : ¬value.length ≤ width.toNat := by omega
  cases kind with
  | none | left | right => cases hcut
  | leftTrunc | rightTrunc =>
    have hbound : Slice.bound value.length (width - 1) = width.toNat - 1 := by
      unfold Slice.bound
      split <;> omega
    simp [cut, Kind.shown, hover, Slice.upTo, hbound]
  | rightLtrunc =>
    have hbound : Slice.bound value.length (value.length - (width - 1))
        = value.length - (width.toNat - 1) := by
      unfold Slice.bound
      split <;> omega
    simp [cut, Kind.shown, hover, Slice.since, hbound, List.rtake]

theorem layoutChars_eq_shown (h : f.kind = .none ∨ 1 ≤ f.width) (value : List Char) :
    f.layoutChars value = f.kind.shown f.width.toNat value := by
  by_cases hkind : f.kind = .none
  · rw [layoutChars, if_pos hkind, hkind, Kind.shown]
  · have hwidth : 1 ≤ f.width := h.resolve_left hkind
    by_cases hlong : f.truncates = true ∧ f.width < value.length
    · rw [layoutChars_of_lt hlong.1 hlong.2, cut_eq_shown hlong.1 hwidth hlong.2]
    · have hfits : f.truncates = true → value.length ≤ f.width :=
        fun hcut => Int.not_lt.1 fun hlt => hlong ⟨hcut, hlt⟩
      rw [layoutChars_of_fits hkind hfits, pad_eq_shown hkind hfits]

/-- A layout is as long as the width or longer, and longer only if the format does not cut, so that
nothing is left to be done. -/
theorem layoutChars_layoutChars (h : f.kind = .none ∨ 1 ≤ f.width) (value : List Char) :
    f.layoutChars (f.layoutChars value) = f.layoutChars value := by
  by_cases hkind : f.kind = .none
  · rw [layoutChars, if_pos hkind]
  · have hwidth : 1 ≤ f.width := h.resolve_left hkind
    have hlength := length_layoutChars (fun _ => hwidth) value
    rw [if_neg hkind] at hlength
    have hfits : f.truncates = true → (f.layoutChars value).length ≤ f.width := by
      intro hcut
      rw [if_pos hcut] at hlength
      exact Int.le_of_eq hlength
    rw [layoutChars_of_fits hkind hfits, pad_eq_self]
    rw [hlength]
    split
    · exact Int.le_refl _
    · exact Int.le_max_right _ _

/-- Under a format of a positive width, or one that leaves values alone, a layout shows of a value
what its kind is meant to show. It is exactly as long as the width if the value is cut. A layout is
laid out as it is. -/
theorem layout_shows_value (h : f.kind = .none ∨ 1 ≤ f.width) (value : String) :
    (f.layout value).toList = f.kind.shown f.width.toNat value.toList
      ∧ (f.truncates = true → f.width < value.length → (f.layout value).length = f.width)
      ∧ f.layout (f.layout value) = f.layout value := by
  refine ⟨?_, ?_, ?_⟩
  · rw [layout, String.toList_ofList, layoutChars_eq_shown h]
  · intro hcut hlong
    have hwidth : 1 ≤ f.width := h.resolve_left (ne_none_of_truncates hcut)
    rw [length_layout (fun _ => hwidth), layoutWidth, if_neg (ne_none_of_truncates hcut),
      if_pos hcut]
  · have hagain := layoutChars_layoutChars h value.toList
    rw [layout, layout, String.toList_ofList, hagain]

/-- At width 1 there is no room for any of the value beside the ellipsis. -/
theorem layout_shows_value_one :
    1 ≤ (Format.mk .rightLtrunc 1).width
      ∧ (layout ⟨.rightLtrunc, 1⟩ "abc").toList = Kind.shown 1 "abc".toList .rightLtrunc
      ∧ layout ⟨.rightLtrunc, 1⟩ "abc" = "…"
      ∧ (layout ⟨.rightLtrunc, 1⟩ "abc").length = (1 : Int)
      ∧ layout ⟨.rightLtrunc, 1⟩ "…" = "…" := by
  have hwidth : 1 ≤ (Format.mk .rightLtrunc 1).width := by decide
  obtain ⟨hshown, hlength, hagain⟩ := layout_shows_value (.inr hwidth) "abc"
  have hellipsis : layout ⟨.rightLtrunc, 1⟩ "abc" = "…" := by
    rw [← String.toList_inj, hshown]
    rfl
  rw [hellipsis] at hagain
  exact ⟨hwidth, hshown, hellipsis, hlength rfl (by decide), hagain⟩

end PercentTemplate.Format
