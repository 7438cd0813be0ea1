import PercentTemplate.Json.Writer
import PercentTemplate.Proofs.Keyed
import PercentTemplate.Proofs.Number.Digits

/-!
# What is written for a JSON value

The texts of arrays and objects in terms of the texts of what they hold. A text of a value holds no
control character: those in strings are escaped, and nothing else brings one
(`Json.IsExact.le_toNat_of_mem`).
-/

namespace PercentTemplate.Json

/-- A value whose numbers are integers with no more digits than are converted. -/
inductive IsExact : Json → Prop
  | null : IsExact .null
  | bool (b : Bool) : IsExact (.bool b)
  | int {n : Int} (h : (Nat.toDigits 10 n.natAbs).length ≤ Integer.maxDigits) : IsExact (.int n)
  | str (s : String) : IsExact (.str s)
  | arr {items : List Json} (h : ∀ v ∈ items, IsExact v) : IsExact (.arr items)
  | obj {members : List (String × Json)} (h : ∀ m ∈ members, IsExact m.2) : IsExact (.obj members)

theorem itemChars_eq_map (items : List Json) : itemChars items = items.map chars := by
  induction items with
  | nil => rfl
  | cons v rest ih => rw [itemChars, ih, List.map_cons]

/-- The text of a member of an object. -/
def memberText (m : String × Json) : List Char := textChars m.1 ++ ':' :: chars m.2

theorem memberChars_eq_map (members : List (String × Json)) :
    memberChars members = members.map fun m => (m.1, memberText m) := by
  induction members with
  | nil => rfl
  | cons m rest ih => rw [memberChars, ih, List.map_cons, memberText]

/-- What is done to the values of members leaves their order alone. -/
theorem sortMembers_map {α β : Type} (f : String × α → β) (members : List (String × α)) :
    sortMembers (members.map fun m => (m.1, f m))
      = (sortMembers members).map fun m => (m.1, f m) := by
  unfold sortMembers
  rw [List.map_mergeSort]
  intro a _ b _
  rfl

theorem sortMembers_perm {α : Type} (members : List (String × α)) :
    (sortMembers members).Perm members :=
  List.mergeSort_perm members _

theorem sortMembers_nodup {α : Type} {members : List (String × α)}
    (h : (Keyed.keys members).Nodup) : (Keyed.keys (sortMembers members)).Nodup :=
  ((sortMembers_perm members).map Prod.fst).nodup_iff.2 h

theorem joinComma_cons_cons (first second : List Char) (rest : List (List Char)) :
    joinComma (first :: second :: rest) = first ++ ',' :: joinComma (second :: rest) := rfl

theorem chars_arr (items : List Json) :
    chars (.arr items) = '[' :: joinComma (items.map chars) ++ [']'] := by
  rw [chars, itemChars_eq_map]

theorem chars_obj (members : List (String × Json)) :
    chars (.obj members)
      = '\x7b' :: joinComma ((sortMembers members).map memberText) ++ ['\x7d'] := by
  rw [chars, memberChars_eq_map, sortMembers_map, List.map_map]
  rfl

/-- The characters with an escape of one letter, each with its letter. -/
def shortEscapes : List (Char × Char) :=
  [('"', '"'), ('\\', '\\'), ('\n', 'n'), ('\r', 'r'), ('\t', 't'), ('\x08', 'b'), ('\x0c', 'f')]

/-- A character is written as an escape of one letter, as an escape of four digits, or as it is. -/
theorem textChar_cases (c : Char) :
    (∃ letter, (c, letter) ∈ shortEscapes ∧ textChar c = ['\\', letter])
      ∨ (c.toNat < 0x20 ∧ textChar c = '\\' :: 'u' :: Text.hexText 4 c.toNat)
      ∨ (c ≠ '"' ∧ c ≠ '\\' ∧ ¬c.toNat < 0x20 ∧ textChar c = [c]) := by
  by_cases hshort : c ∈ Keyed.keys shortEscapes
  · obtain ⟨⟨c, letter⟩, hmem, rfl⟩ := List.mem_map.1 hshort
    refine .inl ⟨letter, hmem, ?_⟩
    simp only [shortEscapes, List.mem_cons, Prod.mk.injEq, List.not_mem_nil, or_false] at hmem
    rcases hmem with ⟨rfl, rfl⟩ | ⟨rfl, rfl⟩ | ⟨rfl, rfl⟩ | ⟨rfl, rfl⟩ | ⟨rfl, rfl⟩ | ⟨rfl, rfl⟩ |
      ⟨rfl, rfl⟩ <;> rfl
  · simp only [shortEscapes, Keyed.keys, List.map_cons, List.map_nil, List.mem_cons,
      List.not_mem_nil, or_false, not_or] at hshort
    by_cases hcontrol : c.toNat < 0x20
    · exact .inr (.inl ⟨hcontrol, by simp [textChar, hshort, hcontrol]⟩)
    · exact .inr (.inr ⟨hshort.1, hshort.2.1, hcontrol, by simp [textChar, hshort, hcontrol]⟩)

/-- What is tested of every character holds of every member. -/
theorem le_toNat_of_all {cs : List Char} (h : cs.all (fun x => 0x20 ≤ x.toNat) = true) :
    ∀ x ∈ cs, 0x20 ≤ x.toNat :=
  fun x hx => of_decide_eq_true (List.all_eq_true.1 h x hx)

theorem all_hexText : ∀ n < 0x20, (Text.hexText 4 n).all (fun x => 0x20 ≤ x.toNat) = true := by
  decide

theorem all_shortEscapes : shortEscapes.all (fun p => 0x20 ≤ p.2.toNat) = true := by
  decide

theorem le_toNat_of_mem_textChar {c x : Char} (h : x ∈ textChar c) : 0x20 ≤ x.toNat := by
  have hbackslash : 0x20 ≤ ('\\' : Char).toNat := by decide
  rcases textChar_cases c with ⟨letter, hmem, htext⟩ | ⟨hcontrol, htext⟩ | ⟨-, -, hplain, htext⟩
  · rw [htext, List.mem_cons, List.mem_singleton] at h
    rcases h with rfl | rfl
    · exact hbackslash
    · exact of_decide_eq_true (List.all_eq_true.1 all_shortEscapes (c, x) hmem)
  · rw [htext, List.mem_cons, List.mem_cons] at h
    rcases h with rfl | rfl | h
    · exact hbackslash
    · decide
    · exact le_toNat_of_all (all_hexText c.toNat hcontrol) x h
  · rw [htext, List.mem_singleton] at h
    rw [h]
    omega

/-- Quotes and brackets around a text are no control characters. -/
theorem le_toNat_of_mem_enclosed {opening closing : Char} {cs : List Char}
    (hopening : 0x20 ≤ opening.toNat) (hclosing : 0x20 ≤ closing.toNat)
    (h : ∀ x ∈ cs, 0x20 ≤ x.toNat) : ∀ x ∈ opening :: cs ++ [closing], 0x20 ≤ x.toNat := by
  rw [List.cons_append, List.forall_mem_cons, List.forall_mem_append, List.forall_mem_singleton]
  exact ⟨hopening, h, hclosing⟩

theorem le_toNat_of_mem_textChars {s : String} : ∀ x ∈ textChars s, 0x20 ≤ x.toNat := by
  refine le_toNat_of_mem_enclosed (by decide) (by decide) fun x hx => ?_
  obtain ⟨c, -, hc⟩ := List.mem_flatMap.1 hx
  exact le_toNat_of_mem_textChar hc

theorem le_toNat_of_mem_integer (n : Int) : ∀ x ∈ (toString n).toList, 0x20 ≤ x.toNat := by
  have hdigits : ∀ x ∈ Nat.toDigits 10 n.natAbs, 0x20 ≤ x.toNat := by
    intro x hx
    have hcode := Integer.toNat_of_isDigit
      (Nat.isDigit_of_mem_toDigits (by decide) (by decide) hx)
    omega
  rw [Integer.toList_toString]
  split
  · exact List.forall_mem_cons.2 ⟨by decide, hdigits⟩
  · exact hdigits

theorem le_toNat_of_mem_joinComma {pieces : List (List Char)} {x : Char}
    (h : ∀ piece ∈ pieces, ∀ y ∈ piece, 0x20 ≤ y.toNat) (hx : x ∈ joinComma pieces) :
    0x20 ≤ x.toNat := by
  fun_induction joinComma pieces with
  | case1 => cases hx
  | case2 piece => exact h piece (List.mem_singleton_self piece) x hx
  | case3 piece rest _ ih =>
    rcases List.mem_append.1 hx with hx | hx
    · exact h piece List.mem_cons_self x hx
    rcases List.mem_cons.1 hx with rfl | hx
    · decide
    exact ih (fun p hp => h p (List.mem_cons_of_mem piece hp)) hx

/-- No control character stands in the text of a value. -/
theorem IsExact.le_toNat_of_mem {v : Json} (h : v.IsExact) :
    ∀ x ∈ chars v, 0x20 ≤ x.toNat := by
  induction h with
  | null => exact le_toNat_of_all (by decide)
  | bool b => cases b <;> exact le_toNat_of_all (by decide)
  | @int n _ => exact le_toNat_of_mem_integer n
  | str s => exact le_toNat_of_mem_textChars
  | arr _ ih =>
    rw [chars_arr]
    refine le_toNat_of_mem_enclosed (by decide) (by decide) fun x hx =>
      le_toNat_of_mem_joinComma ?_ hx
    rintro piece hpiece
    obtain ⟨v, hv, rfl⟩ := List.mem_map.1 hpiece
    exact ih v hv
  | @obj members _ ih =>
    rw [chars_obj]
    refine le_toNat_of_mem_enclosed (by decide) (by decide) fun x hx =>
      le_toNat_of_mem_joinComma ?_ hx
    rintro piece hpiece
    obtain ⟨m, hm, rfl⟩ := List.mem_map.1 hpiece
    exact List.forall_mem_append.2 ⟨le_toNat_of_mem_textChars, List.forall_mem_cons.2
      ⟨by decide, ih m ((sortMembers_perm members).mem_iff.1 hm)⟩⟩

end PercentTemplate.Json
