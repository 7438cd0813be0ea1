import PercentTemplate.Text.Utf8

/-!
# UTF-8 round trip

Bytes are decoded to a text exactly if they encode it (`Text.Utf8.decode_eq_ok_iff`). A character
has one of four forms. The decoder has an equation for each (`Text.Utf8.decodeAux_one` to
`Text.Utf8.decodeAux_four`), and what it makes of the bytes is encoded as them again
(`Text.Utf8.encodeCode_two` to `Text.Utf8.encodeCode_four`).
-/

namespace PercentTemplate.Text.Utf8

section Equations

variable {lead second third fourth : UInt8} (pos : Nat) (done : List Char) (rest : List UInt8)

theorem decodeAux_one (h : lead.toNat < 0x80) :
    decodeAux pos done (lead :: rest)
      = decodeAux (pos + 1) (Char.ofNat lead.toNat :: done) rest := by
  rw [decodeAux.eq_def]
  simp only
  rw [if_pos h]

theorem decodeAux_two (hlow : 0xC2 ≤ lead.toNat) (hhigh : lead.toNat < 0xE0)
    (hsecond : isContinuation second = true) :
    decodeAux pos done (lead :: second :: rest)
      = decodeAux (pos + 2) (Char.ofNat (lead.toNat % 32 * 64 + bits second) :: done) rest := by
  have hstart : (lead.toNat < 0xC2 || 0xF5 ≤ lead.toNat) = false := by simp; omega
  rw [decodeAux.eq_def]
  simp only [hstart, hsecond, if_pos hhigh]
  rw [if_neg (by omega)]
  rfl

theorem decodeAux_three (hlow : 0xE0 ≤ lead.toNat) (hhigh : lead.toNat < 0xF0)
    (hsecond : isSecond lead.toNat second = true) (hthird : isContinuation third = true) :
    decodeAux pos done (lead :: second :: third :: rest)
      = decodeAux (pos + 3)
        (Char.ofNat (lead.toNat % 16 * 4096 + bits second * 64 + bits third) :: done) rest := by
  have hstart : (lead.toNat < 0xC2 || 0xF5 ≤ lead.toNat) = false := by simp; omega
  rw [decodeAux.eq_def]
  simp only [hstart, hsecond, hthird, if_pos hhigh]
  rw [if_neg (by omega), if_neg (by decide), if_neg (by omega)]
  rfl

theorem decodeAux_four (hlow : 0xF0 ≤ lead.toNat) (hhigh : lead.toNat < 0xF5)
    (hsecond : isSecond lead.toNat second = true) (hthird : isContinuation third = true)
    (hfourth : isContinuation fourth = true) :
    decodeAux pos done (lead :: second :: third :: fourth :: rest)
      = decodeAux (pos + 4)
        (Char.ofNat (lead.toNat % 8 * 262144 + bits second * 4096 + bits third * 64 + bits fourth)
          :: done) rest := by
  have hstart : (lead.toNat < 0xC2 || 0xF5 ≤ lead.toNat) = false := by simp; omega
  rw [decodeAux.eq_def]
  simp only [hstart, hsecond, hthird, hfourth]
  rw [if_neg (by omega), if_neg (by decide), if_neg (by omega)]
  simp only [Bool.not_true, Bool.false_eq_true, if_false, if_true]
  rw [if_neg (by omega)]

end Equations

theorem toNat_ofNat {n : Nat} (h : n < 256) : (UInt8.ofNat n).toNat = n := by
  rw [UInt8.toNat_ofNat']
  exact Nat.mod_eq_of_lt h

/-- The byte that carries six bits behind the lead byte. -/
theorem toNat_continuation {n : Nat} (h : n < 64) : (UInt8.ofNat (0x80 + n)).toNat = 0x80 + n :=
  toNat_ofNat (by omega)

theorem isContinuation_ofNat {n : Nat} (h : n < 64) :
    isContinuation (.ofNat (0x80 + n)) = true := by
  simp only [isContinuation, toNat_continuation h, Bool.and_eq_true, decide_eq_true_eq]
  omega

theorem bits_ofNat {n : Nat} (h : n < 64) : bits (.ofNat (0x80 + n)) = n := by
  rw [bits, toNat_continuation h]
  omega

theorem isSecond_ofNat {lead n : Nat} (h : n < 64) (hE0 : lead = 0xE0 → 0x20 ≤ n)
    (hED : lead = 0xED → n < 0x20) (hF0 : lead = 0xF0 → 0x10 ≤ n)
    (hF4 : lead = 0xF4 → n < 0x10) : isSecond lead (.ofNat (0x80 + n)) = true := by
  simp only [isSecond, isContinuation_ofNat h, toNat_continuation h, Bool.and_eq_true,
    Bool.or_eq_true, bne_iff_ne, ne_eq, decide_eq_true_eq, true_and]
  omega

/-- The bytes of a character are decoded to it. -/
theorem decodeAux_encodeCode (c : Char) (pos : Nat) (done : List Char) (rest : List UInt8) :
    ∃ width, decodeAux pos done (encodeCode c.toNat ++ rest)
      = decodeAux (pos + width) (c :: done) rest := by
  have hvalid : c.toNat < 0xD800 ∨ 0xDFFF < c.toNat ∧ c.toNat < 0x110000 := c.valid
  have hchar : ∀ n, n = c.toNat → Char.ofNat n = c := by
    rintro n rfl
    exact Char.ofNat_toNat c
  generalize c.toNat = n at hvalid hchar ⊢
  unfold encodeCode
  split
  · have hlead : (UInt8.ofNat n).toNat = n := toNat_ofNat (by omega)
    refine ⟨1, ?_⟩
    rw [List.singleton_append, decodeAux_one _ _ _ (by omega), hlead, hchar n rfl]
  split
  · have hlead : (UInt8.ofNat (0xC0 + n / 64)).toNat = 0xC0 + n / 64 := toNat_ofNat (by omega)
    have hlast : n % 64 < 64 := Nat.mod_lt _ (by decide)
    refine ⟨2, ?_⟩
    rw [List.cons_append, List.singleton_append,
      decodeAux_two _ _ _ (by omega) (by omega) (isContinuation_ofNat hlast),
      hlead, bits_ofNat hlast, hchar _ (by omega)]
  split
  · have hlead : (UInt8.ofNat (0xE0 + n / 4096)).toNat = 0xE0 + n / 4096 :=
      toNat_ofNat (by omega)
    have hmid : n / 64 % 64 < 64 := Nat.mod_lt _ (by decide)
    have hlast : n % 64 < 64 := Nat.mod_lt _ (by decide)
    -- The second byte excludes overlong forms and surrogates, which no character has.
    have hsecond : isSecond (UInt8.ofNat (0xE0 + n / 4096)).toNat (.ofNat (0x80 + n / 64 % 64))
        = true := by
      rw [hlead]
      exact isSecond_ofNat hmid (by omega) (by omega) (by omega) (by omega)
    refine ⟨3, ?_⟩
    rw [List.cons_append, List.cons_append, List.singleton_append,
      decodeAux_three _ _ _ (by omega) (by omega) hsecond (isContinuation_ofNat hlast),
      hlead, bits_ofNat hmid, bits_ofNat hlast, hchar _ (by omega)]
  · have hlead : (UInt8.ofNat (0xF0 + n / 262144)).toNat = 0xF0 + n / 262144 :=
      toNat_ofNat (by omega)
    have hhigh : n / 4096 % 64 < 64 := Nat.mod_lt _ (by decide)
    have hmid : n / 64 % 64 < 64 := Nat.mod_lt _ (by decide)
    have hlast : n % 64 < 64 := Nat.mod_lt _ (by decide)
    have hsecond : isSecond (UInt8.ofNat (0xF0 + n / 262144)).toNat
        (.ofNat (0x80 + n / 4096 % 64)) = true := by
      rw [hlead]
      exact isSecond_ofNat hhigh (by omega) (by omega) (by omega) (by omega)
    refine ⟨4, ?_⟩
    rw [List.cons_append, List.cons_append, List.cons_append, List.singleton_append,
      decodeAux_four _ _ _ (by omega) (by omega) hsecond (isContinuation_ofNat hmid)
        (isContinuation_ofNat hlast),
      hlead, bits_ofNat hhigh, bits_ofNat hmid, bits_ofNat hlast, hchar _ (by omega)]

theorem decodeAux_flatMap (cs : List Char) (pos : Nat) (done : List Char) :
    decodeAux pos done (cs.flatMap fun c => encodeCode c.toNat) = .ok (done.reverse ++ cs) := by
  induction cs generalizing pos done with
  | nil => simp [decodeAux]
  | cons c cs ih =>
    obtain ⟨width, hstep⟩ := decodeAux_encodeCode c pos done
      (cs.flatMap fun c => encodeCode c.toNat)
    rw [List.flatMap_cons, hstep, ih, List.reverse_cons, List.append_assoc,
      List.singleton_append]

/-- Decoding the bytes of a text gives the text back. -/
theorem decode_encode (s : String) : decode (encode s) = .ok s.toList :=
  decodeAux_flatMap s.toList 0 []

theorem encode_prefix {cs cs' : List Char} (h : cs <+: cs') :
    encode (String.ofList cs) <+: encode (String.ofList cs') := by
  obtain ⟨rest, rfl⟩ := h
  rw [encode, encode, String.toList_ofList, String.toList_ofList, List.flatMap_append]
  exact List.prefix_append _ _

/-! Encoding what has been decoded. -/

section Inverse

variable {lead second third fourth : UInt8}

theorem isContinuation_iff {b : UInt8} :
    isContinuation b = true ↔ 0x80 ≤ b.toNat ∧ b.toNat < 0xC0 := by
  simp [isContinuation]

theorem isSecond_iff {n : Nat} :
    isSecond n second = true ↔ (0x80 ≤ second.toNat ∧ second.toNat < 0xC0)
      ∧ (n = 0xE0 → 0xA0 ≤ second.toNat) ∧ (n = 0xED → second.toNat < 0xA0)
      ∧ (n = 0xF0 → 0x90 ≤ second.toNat) ∧ (n = 0xF4 → second.toNat < 0x90) := by
  simp only [isSecond, isContinuation, Bool.and_eq_true, Bool.or_eq_true, bne_iff_ne, ne_eq,
    decide_eq_true_eq, Decidable.imp_iff_not_or, and_assoc]

theorem toNat_char_ofNat {n : Nat} (h : n < 0xD800 ∨ 0xDFFF < n ∧ n < 0x110000) :
    (Char.ofNat n).toNat = n := by
  have hvalid : n.isValidChar := h
  rw [Char.ofNat, dif_pos hvalid]
  rfl

theorem ofNat_eq_of_toNat {n : Nat} {b : UInt8} (h : n = b.toNat) : UInt8.ofNat n = b := by
  rw [h, UInt8.ofNat_toNat]

theorem encodeCode_one (h : lead.toNat < 0x80) :
    encodeCode (Char.ofNat lead.toNat).toNat = [lead] := by
  rw [toNat_char_ofNat (by omega), encodeCode, if_pos h, ofNat_eq_of_toNat rfl]

theorem encodeCode_two (hlow : 0xC2 ≤ lead.toNat) (hhigh : lead.toNat < 0xE0)
    (hsecond : isContinuation second = true) :
    encodeCode (Char.ofNat (lead.toNat % 32 * 64 + bits second)).toNat = [lead, second] := by
  rw [isContinuation_iff] at hsecond
  rw [bits]
  have hlead : 0xC0 + (lead.toNat % 32 * 64 + second.toNat % 64) / 64 = lead.toNat := by omega
  have hlast : 0x80 + (lead.toNat % 32 * 64 + second.toNat % 64) % 64 = second.toNat := by omega
  rw [toNat_char_ofNat (by omega), encodeCode, if_neg (by omega), if_pos (by omega),
    ofNat_eq_of_toNat hlead, ofNat_eq_of_toNat hlast]

theorem encodeCode_three (hlow : 0xE0 ≤ lead.toNat) (hhigh : lead.toNat < 0xF0)
    (hsecond : isSecond lead.toNat second = true) (hthird : isContinuation third = true) :
    encodeCode (Char.ofNat (lead.toNat % 16 * 4096 + bits second * 64 + bits third)).toNat
      = [lead, second, third] := by
  rw [isContinuation_iff] at hthird
  rw [isSecond_iff] at hsecond
  rw [bits, bits]
  generalize hn : lead.toNat % 16 * 4096 + second.toNat % 64 * 64 + third.toNat % 64 = n
  have hlead : 0xE0 + n / 4096 = lead.toNat := by omega
  have hmid : 0x80 + n / 64 % 64 = second.toNat := by omega
  have hlast : 0x80 + n % 64 = third.toNat := by omega
  rw [toNat_char_ofNat (by omega), encodeCode, if_neg (by omega), if_neg (by omega),
    if_pos (by omega), ofNat_eq_of_toNat hlead, ofNat_eq_of_toNat hmid, ofNat_eq_of_toNat hlast]

theorem encodeCode_four (hlow : 0xF0 ≤ lead.toNat) (hhigh : lead.toNat < 0xF5)
    (hsecond : isSecond lead.toNat second = true) (hthird : isContinuation third = true)
    (hfourth : isContinuation fourth = true) :
    encodeCode (Char.ofNat (lead.toNat % 8 * 262144 + bits second * 4096 + bits third * 64
      + bits fourth)).toNat = [lead, second, third, fourth] := by
  rw [isContinuation_iff] at hthird hfourth
  rw [isSecond_iff] at hsecond
  rw [bits, bits, bits]
  generalize hn : lead.toNat % 8 * 262144 + second.toNat % 64 * 4096 + third.toNat % 64 * 64
    + fourth.toNat % 64 = n
  have hlead : 0xF0 + n / 262144 = lead.toNat := by omega
  have hhigh : 0x80 + n / 4096 % 64 = second.toNat := by omega
  have hmid : 0x80 + n / 64 % 64 = third.toNat := by omega
  have hlast : 0x80 + n % 64 = fourth.toNat := by omega
  rw [toNat_char_ofNat (by omega), encodeCode, if_neg (by omega), if_neg (by omega),
    if_neg (by omega), ofNat_eq_of_toNat hlead, ofNat_eq_of_toNat hhigh, ofNat_eq_of_toNat hmid,
    ofNat_eq_of_toNat hlast]

end Inverse

/-- Bytes that are decoded encode the characters that they are decoded to. -/
theorem exists_of_decodeAux {pos : Nat} {done cs : List Char} {bytes : List UInt8}
    (h : decodeAux pos done bytes = .ok cs) :
    ∃ tail, cs = done.reverse ++ tail ∧ bytes = tail.flatMap fun c => encodeCode c.toNat := by
  -- A character that goes to the result comes with the bytes in front of the rest.
  have hstep : ∀ {c : Char} {front rest : List UInt8} {done : List Char},
      encodeCode c.toNat = front →
      (∃ tail, cs = (c :: done).reverse ++ tail ∧ rest = tail.flatMap fun c => encodeCode c.toNat) →
      ∃ tail, cs = done.reverse ++ tail
        ∧ front ++ rest = tail.flatMap fun c => encodeCode c.toNat := by
    rintro c front rest done rfl ⟨tail, rfl, rfl⟩
    exact ⟨c :: tail, by simp, by rw [List.flatMap_cons]⟩
  fun_induction decodeAux pos done bytes with
  | case1 pos done => exact ⟨[], by cases h; simp, rfl⟩
  | case2 pos done lead rest n hone ih => exact hstep (encodeCode_one hone) (ih h)
  | case5 pos done lead n _ hstart second rest htwo hsecond ih =>
    simp only [Bool.or_eq_true, decide_eq_true_eq, not_or, Nat.not_lt] at hstart
    exact hstep (encodeCode_two hstart.1 htwo hsecond) (ih h)
  | case10 pos done lead n _ _ second htwo hsecond third rest hthird hthree ih =>
    simp only [Bool.not_eq_true', Bool.not_eq_false] at hsecond hthird
    exact hstep (encodeCode_three (Nat.not_lt.1 htwo) hthree hsecond hthird) (ih h)
  | case12 pos done lead n _ hstart second _ hsecond third hthird hthree fourth rest hfourth ih =>
    simp only [Bool.or_eq_true, decide_eq_true_eq, not_or, Nat.not_le] at hstart
    simp only [Bool.not_eq_true', Bool.not_eq_false] at hsecond hthird
    exact hstep (encodeCode_four (Nat.not_lt.1 hthree) hstart.2 hsecond hthird hfourth) (ih h)
  | _ => cases h

/-- Bytes are decoded just if they encode a text. -/
theorem decode_eq_ok_iff {bytes : List UInt8} {cs : List Char} :
    decode bytes = .ok cs ↔ bytes = encode (String.ofList cs) := by
  constructor
  · intro h
    obtain ⟨tail, rfl, rfl⟩ := exists_of_decodeAux h
    rw [encode, String.toList_ofList]
  · rintro rfl
    rw [decode_encode, String.toList_ofList]

end PercentTemplate.Text.Utf8
