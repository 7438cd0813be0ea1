import PercentTemplate.Number.Integer

/-!
# Decimal digits and numbers

Digits without a leading zero and positive numbers stand for each other: writing a number and
reading the digits gives it back (`Integer.ofDigits_toDigits`), and reading digits and writing the
number gives the digits back (`Integer.toDigits_ofDigits`).
-/

namespace PercentTemplate.Integer

theorem toNat_of_isDigit {c : Char} (h : c.isDigit = true) : 48 ≤ c.toNat ∧ c.toNat ≤ 57 := by
  simp only [Char.isDigit, Bool.and_eq_true, decide_eq_true_eq, ge_iff_le,
    UInt32.le_iff_toNat_le] at h
  exact h

theorem exists_digitChar {c : Char} (h : c.isDigit = true) :
    ∃ d, d < 10 ∧ c = Nat.digitChar d ∧ c.toNat - 48 = d := by
  have hcode := toNat_of_isDigit h
  have hd : c.toNat - 48 < 10 := by omega
  refine ⟨c.toNat - 48, hd, ?_, rfl⟩
  rw [← Char.toNat_inj, Nat.toNat_digitChar_of_lt_ten hd]
  omega

theorem ofDigits_toDigits (n : Nat) : ofDigits (Nat.toDigits 10 n) = n := by
  have hfold : ∀ cs, ofDigits cs = Nat.ofDigitChars 10 cs 0 := by
    intro cs
    simp only [ofDigits, Nat.ofDigitChars, Nat.mul_comm]
    rfl
  rw [hfold, Nat.ofDigitChars_ten_toDigits]

/-- Digits behind those of a positive number are the digits of the number that they lead to. -/
theorem toDigits_append_eq {digits : List Char} (h : ∀ c ∈ digits, c.isDigit = true) {n : Nat}
    (hn : 0 < n) :
    Nat.toDigits 10 n ++ digits
      = Nat.toDigits 10 (digits.foldl (fun n c => n * 10 + (c.toNat - 48)) n) := by
  induction digits generalizing n with
  | nil => rw [List.append_nil, List.foldl_nil]
  | cons c digits ih =>
    obtain ⟨d, hd, hc, hvalue⟩ := exists_digitChar (h c List.mem_cons_self)
    have hstep : Nat.toDigits 10 n ++ [c] = Nat.toDigits 10 (n * 10 + d) := by
      rw [hc, ← Nat.toDigits_of_lt_base hd, Nat.toDigits_append_toDigits (by decide) hn hd,
        Nat.mul_comm]
    have hrest := ih (fun x hx => h x (List.mem_cons_of_mem c hx)) (n := n * 10 + d) (by omega)
    rw [List.foldl_cons, hvalue, ← hrest, ← hstep, List.append_assoc, List.singleton_append]

theorem toDigits_ofDigits {first : Char} {digits : List Char} (hfirst : first.isDigit = true)
    (hne : first ≠ '0') (h : ∀ c ∈ digits, c.isDigit = true) :
    Nat.toDigits 10 (ofDigits (first :: digits)) = first :: digits := by
  obtain ⟨d, hd, hchar, hvalue⟩ := exists_digitChar hfirst
  have hpos : 0 < d := by
    refine Nat.pos_of_ne_zero ?_
    rintro rfl
    exact hne hchar
  have hrest := toDigits_append_eq h hpos
  rw [Nat.toDigits_of_lt_base hd, ← hchar, List.singleton_append] at hrest
  have hfold : ofDigits (first :: digits)
      = digits.foldl (fun n c => n * 10 + (c.toNat - 48)) d := by
    rw [ofDigits, List.foldl_cons, hvalue, Nat.zero_mul, Nat.zero_add]
  rw [hfold, ← hrest]

/-- A positive number is written without a leading zero. -/
theorem head?_toDigits_ne {n : Nat} (hn : 0 < n) : (Nat.toDigits 10 n).head? ≠ some '0' := by
  induction n using Nat.strongRecOn with
  | ind n ih =>
    by_cases hlt : n < 10
    · have hall : ∀ m, m < 10 → 0 < m → m.digitChar ≠ '0' := by decide
      rw [Nat.toDigits_of_lt_base hlt]
      simpa using hall n hlt hn
    · have hhead := ih (n / 10) (by omega) (by omega)
      rw [Nat.toDigits_of_base_le (by decide) (Nat.le_of_not_lt hlt),
        List.head?_append, List.head?_eq_some_head Nat.toDigits_ne_nil]
      rwa [List.head?_eq_some_head Nat.toDigits_ne_nil] at hhead

theorem toList_toString (n : Int) :
    (toString n).toList
      = if n < 0 then '-' :: Nat.toDigits 10 n.natAbs else Nat.toDigits 10 n.natAbs := by
  rw [Int.toString_eq_repr, Int.repr_eq_if]
  by_cases hn : n < 0
  · have habs : (-n).toNat = n.natAbs := by omega
    rw [if_neg (by omega), if_pos hn, habs]
    simp
  · have habs : n.toNat = n.natAbs := by omega
    rw [if_pos (by omega), if_neg hn, habs]
    simp

end PercentTemplate.Integer
