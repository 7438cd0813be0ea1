import PercentTemplate.Json.Emission
import PercentTemplate.Proofs.Json.Writing

/-!
# What comes out of writing JSON

What comes out is the text of the value if all of its integers can be converted, and a beginning of
that text otherwise (`Json.writes_emit`).
-/

namespace PercentTemplate.Json

section Convertible

variable {τ : Type}

/-- All integers in a value have a text: none has more digits than are converted. -/
inductive IsConvertible : Json τ → Prop
  | null : IsConvertible .null
  | bool (b : Bool) : IsConvertible (.bool b)
  | int {n : Int} (h : (Nat.toDigits 10 n.natAbs).length ≤ Integer.maxDigits) :
    IsConvertible (.int n)
  | float (x : Float) : IsConvertible (.float x)
  | str (s : τ) : IsConvertible (.str s)
  | arr {items : List (Json τ)} (h : ∀ v ∈ items, IsConvertible v) : IsConvertible (.arr items)
  | obj {members : List (τ × Json τ)} (h : ∀ m ∈ members, IsConvertible m.2) :
    IsConvertible (.obj members)

theorem IsExact.isConvertible {v : Json} (h : v.IsExact) : v.IsConvertible := by
  induction h with
  | null => exact .null
  | bool b => exact .bool b
  | int h => exact .int h
  | str s => exact .str s
  | arr _ ih => exact .arr ih
  | obj _ ih => exact .obj ih

theorem isConvertible_int {n : Int} :
    IsConvertible (.int n : Json τ) ↔ (Nat.toDigits 10 n.natAbs).length ≤ Integer.maxDigits :=
  ⟨fun h => by cases h; assumption, .int⟩

theorem isConvertible_arr {items : List (Json τ)} :
    IsConvertible (.arr items) ↔ ∀ v ∈ items, v.IsConvertible :=
  ⟨fun h => by cases h; assumption, .arr⟩

theorem isConvertible_obj {members : List (τ × Json τ)} :
    IsConvertible (.obj members) ↔ ∀ m ∈ members, m.2.IsConvertible :=
  ⟨fun h => by cases h; assumption, .obj⟩

end Convertible

/-- An emission is of a text: it comes to its end exactly if `whole` holds, and then it is the text;
it is a beginning of the text in any case. -/
structure Emission.Writes (e : Emission) (cs : List Char) (whole : Prop) : Prop where
  fault_eq_none_iff : e.fault = none ↔ whole
  chars_eq : e.fault = none → e.chars = cs
  chars_prefix : e.chars <+: cs

namespace Emission

variable {e e' : Emission} {cs cs' : List Char} {whole whole' : Prop}

theorem writes_ofChars (cs : List Char) : (ofChars cs).Writes cs True where
  fault_eq_none_iff := iff_of_true rfl trivial
  chars_eq _ := rfl
  chars_prefix := List.prefix_refl cs

theorem writes_ofInteger (lead : List Char) (n : Int) :
    (ofInteger lead n).Writes (lead ++ Json.chars (.int n)) (.int n : Json).IsConvertible := by
  rw [isConvertible_int, ofInteger, Integer.text]
  split
  · rename_i s heq
    split at heq
    · cases heq
    rename_i hle
    cases heq
    exact ⟨iff_of_true rfl (Nat.le_of_not_lt hle), fun _ => rfl, List.prefix_refl _⟩
  · rename_i f heq
    split at heq
    · rename_i hlt
      exact ⟨iff_of_false nofun (Nat.not_le_of_lt hlt), nofun, List.nil_prefix⟩
    · cases heq

theorem Writes.andThen (h : e.Writes cs whole) (h' : e'.Writes cs' whole') :
    (e.andThen e').Writes (cs ++ cs') (whole ∧ whole') := by
  rw [Emission.andThen]
  cases hfault : e.fault with
  | none =>
    have heq := h.chars_eq hfault
    have hwhole := h.fault_eq_none_iff.1 hfault
    exact {
      fault_eq_none_iff := h'.fault_eq_none_iff.trans (and_iff_right hwhole).symm
      chars_eq := fun hnone => congrArg₂ (· ++ ·) heq (h'.chars_eq hnone)
      chars_prefix := heq ▸ (List.prefix_append_right_inj e.chars).2 h'.chars_prefix }
  | some f =>
    have hwhole : ¬whole := fun hwhole => by simp [h.fault_eq_none_iff.2 hwhole] at hfault
    exact {
      fault_eq_none_iff := iff_of_false nofun fun hand => hwhole hand.1
      chars_eq := nofun
      chars_prefix := h.chars_prefix.trans (List.prefix_append cs cs') }

theorem Writes.congr (h : e.Writes cs whole) (hcs : cs = cs') (hwhole : whole ↔ whole') :
    e.Writes cs' whole' :=
  ⟨h.fault_eq_none_iff.trans hwhole, hcs ▸ h.chars_eq, hcs ▸ h.chars_prefix⟩

theorem writes_ofMembers {α : Type} {emission : α → Emission} {text : α → List Char}
    {whole : α → Prop} {members : List α}
    (h : ∀ m ∈ members, (emission m).Writes (text m) (whole m)) :
    (ofMembers (members.map emission)).Writes (joinComma (members.map text) ++ ['\x7d'])
      (∀ m ∈ members, whole m) := by
  induction members with
  | nil => exact (writes_ofChars _).congr rfl (by simp)
  | cons m rest ih =>
    have hm := h m List.mem_cons_self
    cases rest with
    | nil => exact (hm.andThen (writes_ofChars _)).congr rfl (by simp)
    | cons n rest =>
      have hrest := ih fun x hx => h x (List.mem_cons_of_mem m hx)
      refine (hm.andThen ((writes_ofChars [',']).andThen hrest)).congr ?_ ?_
      · simp only [List.map_cons, joinComma_cons_cons, List.append_assoc, List.cons_append,
          List.nil_append]
      · rw [true_and, List.forall_mem_cons (a := m)]

end Emission

open Emission

/-- The emission of an item behind its lead. -/
theorem writes_item {v : Json} (lead : Char) {rest : List Json} {cs : List Char} {whole : Prop}
    (hv : v.emit.Writes (chars v) v.IsConvertible) (hrest : (emitItems ',' rest).Writes cs whole) :
    (emitItems lead (v :: rest)).Writes (lead :: chars v ++ cs) (v.IsConvertible ∧ whole) := by
  have hlead : ((ofChars [lead]).andThen (v.emit.andThen (emitItems ',' rest))).Writes
      (lead :: chars v ++ cs) (v.IsConvertible ∧ whole) :=
    ((writes_ofChars [lead]).andThen (hv.andThen hrest)).congr rfl (.of_eq (true_and _))
  cases v with
  | int n => exact (writes_ofInteger [lead] n).andThen hrest
  | null | bool | float | str | arr | obj => exact hlead

theorem writes_emitItems {items : List Json}
    (h : ∀ v ∈ items, v.emit.Writes (chars v) v.IsConvertible) (hne : items ≠ []) (lead : Char) :
    (emitItems lead items).Writes (lead :: joinComma (items.map chars) ++ [']'])
      (∀ v ∈ items, v.IsConvertible) := by
  induction items generalizing lead with
  | nil => exact absurd rfl hne
  | cons v rest ih =>
    have hv := h v List.mem_cons_self
    cases rest with
    | nil =>
      have hend : (emitItems ',' []).Writes [']'] True := writes_ofChars [']']
      exact (writes_item lead hv hend).congr (by simp [joinComma]) (by simp)
    | cons w rest =>
      have hrest := ih (fun x hx => h x (List.mem_cons_of_mem v hx)) (by simp) ','
      refine (writes_item lead hv hrest).congr ?_ List.forall_mem_cons.symm
      simp only [List.map_cons, joinComma_cons_cons, List.append_assoc, List.cons_append]

theorem emitMembers_eq_map (members : List (String × Json)) :
    emitMembers members
      = members.map fun m => (m.1, (ofChars (textChars m.1 ++ [':'])).andThen m.2.emit) := by
  induction members with
  | nil => rfl
  | cons m rest ih => rw [emitMembers, ih, List.map_cons]

/-- A value is written as a whole exactly if all of its integers can be converted. -/
theorem writes_emit (v : Json) : v.emit.Writes (chars v) v.IsConvertible := by
  induction v with
  | null => exact (writes_ofChars _).congr rfl (iff_of_true trivial .null)
  | bool b => exact (writes_ofChars _).congr rfl (iff_of_true trivial (.bool b))
  | int n => exact writes_ofInteger [] n
  | float x => exact (writes_ofChars _).congr rfl (iff_of_true trivial (.float x))
  | str s => exact (writes_ofChars _).congr rfl (iff_of_true trivial (.str s))
  | arr items ih =>
    rw [emit, chars_arr, isConvertible_arr]
    cases items with
    | nil => exact (writes_ofChars _).congr rfl (by simp)
    | cons v rest => exact writes_emitItems ih (by simp) '['
  | obj members ih =>
    have hmember : ∀ m ∈ sortMembers members,
        ((ofChars (textChars m.1 ++ [':'])).andThen m.2.emit).Writes (memberText m)
          m.2.IsConvertible := by
      intro m hm
      have hm := ih m ((sortMembers_perm members).mem_iff.1 hm)
      exact ((writes_ofChars _).andThen hm).congr (by simp [memberText]) (.of_eq (true_and _))
    rw [emit, chars_obj, isConvertible_obj, emitMembers_eq_map, sortMembers_map, List.map_map]
    refine ((writes_ofChars ['\x7b']).andThen (writes_ofMembers hmember)).congr rfl ?_
    rw [true_and]
    exact forall_congr' fun m => imp_congr_left (sortMembers_perm members).mem_iff

end PercentTemplate.Json
