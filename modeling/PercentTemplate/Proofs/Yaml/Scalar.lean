import PercentTemplate.Proofs.Yaml.Portable
import PercentTemplate.Yaml.Scalar

/-!
# Values of JSON scalars in YAML

A scalar word of JSON, written as a plain scalar, has the type and the value that it has in JSON, if
a number with a fraction or an exponent has a point and a sign at the exponent
(`Yaml.Scalar.value_of_isSpelled`).
-/

namespace PercentTemplate.Yaml

open Json.Token (IsExponent IsPlaces IsSpelled IsWhole decimal fractionText signText)
open Plain (isScalarChar)

/-- What holds of the ASCII characters of numbers and names holds of all characters of them. -/
theorem Plain.of_isScalarChar {p : Char → Prop}
    (h : ∀ n < 128, isScalarChar (Char.ofNat n) = true → p (Char.ofNat n)) {c : Char}
    (hc : isScalarChar c = true) : p c := by
  have hlt : c.toNat < 128 := by
    simp only [isScalarChar, Char.isAlphanum, Bool.or_eq_true, decide_eq_true_eq] at hc
    rcases hc with (((hletter | hdigit) | rfl) | rfl) | rfl
    · rcases Bool.or_eq_true_iff.1 hletter with hupper | hlower
      · have hle : c.val ≤ 90 := (of_decide_eq_true hupper).2
        exact Nat.lt_of_le_of_lt hle (by decide)
      · have hle : c.val ≤ 122 := of_decide_eq_true (Bool.and_eq_true_iff.1 hlower).2
        exact Nat.lt_of_le_of_lt hle (by decide)
    · have hle := (Integer.toNat_of_isDigit hdigit).2
      omega
    · decide
    · decide
    · decide
  have hofNat := h c.toNat hlt
  rw [Char.ofNat_toNat] at hofNat
  exact hofNat hc

theorem Plain.isScalarChar_of_isDigit {c : Char} (hc : c.isDigit = true) :
    isScalarChar c = true := by
  simp [isScalarChar, Char.isAlphanum, hc]

section Spelling

variable {exponent whole places : List Char} {power : Int}

theorem isDigit_of_isWhole (h : IsWhole whole) : ∀ c ∈ whole, c.isDigit = true := by
  cases h with
  | zero => simp
  | run hd hne hdigits => exact List.forall_mem_cons.2 ⟨hd, hdigits⟩

theorem isScalarChar_of_isExponent (h : IsExponent exponent power) :
    ∀ c ∈ exponent, isScalarChar c = true := by
  have hdigits : ∀ digits, IsPlaces digits → ∀ c ∈ digits, isScalarChar c = true :=
    fun digits hplaces c hc => Plain.isScalarChar_of_isDigit (hplaces.2 c hc)
  cases h with
  | absent => simp
  | plus he hsign hplaces =>
    rcases he with rfl | rfl <;> rcases hsign with rfl | rfl <;>
      simpa [isScalarChar] using hdigits _ hplaces
  | minus he hplaces =>
    rcases he with rfl | rfl <;> simpa [isScalarChar] using hdigits _ hplaces

/-- Numbers and names are made of letters, digits, points and signs. -/
theorem isScalarChar_of_isSpelled {v : Json Text.Points} {spelling : List Char}
    (h : IsSpelled (.scalar v) spelling) : ∀ c ∈ spelling, isScalarChar c = true := by
  have hsigned : ∀ negative, ∀ c ∈ signText negative, isScalarChar c = true := by
    intro negative
    cases negative <;> simp [signText, isScalarChar]
  have hdigits : ∀ digits : List Char, (∀ c ∈ digits, c.isDigit = true) →
      ∀ c ∈ digits, isScalarChar c = true :=
    fun digits h c hc => Plain.isScalarChar_of_isDigit (h c hc)
  cases h with
  | name hname =>
    have hall : ∀ n ∈ Json.Token.names, n.1.toList.all isScalarChar = true := by
      simp [Json.Token.names, isScalarChar]
    exact List.all_eq_true.1 (hall _ hname)
  | int negative hwhole =>
    exact List.forall_mem_append.2 ⟨hsigned negative, hdigits _ (isDigit_of_isWhole hwhole)⟩
  | @float whole exponent places power negative hwhole hplaces hexponent =>
    have hfraction : ∀ c ∈ fractionText places, isScalarChar c = true := by
      cases places with
      | none => simp [fractionText]
      | some places =>
        exact List.forall_mem_cons.2 ⟨rfl, hdigits places (hplaces places rfl).2⟩
    exact List.forall_mem_append.2 ⟨hsigned negative, List.forall_mem_append.2
      ⟨hdigits _ (isDigit_of_isWhole hwhole),
        List.forall_mem_append.2 ⟨hfraction, isScalarChar_of_isExponent hexponent⟩⟩⟩

/-- An exponent with a sign, or none. -/
inductive IsSignedExponent : List Char → Int → Prop
  | absent : IsSignedExponent [] 0
  | plus {e : Char} {digits : List Char} (he : e = 'e' ∨ e = 'E') (hdigits : IsPlaces digits) :
    IsSignedExponent (e :: '+' :: digits) (Integer.ofDigits digits)
  | minus {e : Char} {digits : List Char} (he : e = 'e' ∨ e = 'E') (hdigits : IsPlaces digits) :
    IsSignedExponent (e :: '-' :: digits) (-(Integer.ofDigits digits : Int))

/-- Digits have no point, and neither has an exponent. -/
theorem point_not_mem_digits {digits : List Char} (h : ∀ c ∈ digits, c.isDigit = true) :
    '.' ∉ digits :=
  fun hmem => absurd (h '.' hmem) (by decide)

theorem point_not_mem_exponent (h : IsExponent exponent power) : '.' ∉ exponent := by
  cases h with
  | absent => simp
  | plus he hplus hdigits =>
    rcases he with rfl | rfl <;> rcases hplus with rfl | rfl <;>
      simpa using point_not_mem_digits hdigits.2
  | minus he hdigits =>
    rcases he with rfl | rfl <;> simpa using point_not_mem_digits hdigits.2

/-- The parts of a number with a point whose exponent has a sign. -/
theorem exists_of_isPointed {x : Float} {spelling : List Char}
    (h : IsSpelled (.scalar (.float x)) spelling) (hpointed : IsPointed spelling) :
    ∃ negative whole places exponent power,
      spelling = signText negative ++ (whole ++ '.' :: (places ++ exponent))
        ∧ x = decimal negative whole places power ∧ IsWhole whole ∧ IsPlaces places
        ∧ IsSignedExponent exponent power := by
  obtain ⟨hpoint, hsign⟩ := hpointed
  cases h with
  | name hname =>
    have hall : ∀ n ∈ Json.Token.names, '.' ∉ n.1.toList := by simp [Json.Token.names]
    exact absurd hpoint (hall _ hname)
  | @float whole exponent places power negative hwhole hplaces hexponent =>
    cases places with
    | none =>
      have hsigned : '.' ∉ signText negative := by cases negative <;> simp [signText]
      simp [fractionText, hsigned, point_not_mem_exponent hexponent,
        point_not_mem_digits (isDigit_of_isWhole hwhole)] at hpoint
    | some places =>
      have hsplit : signText negative ++ (whole ++ (fractionText (some places) ++ exponent))
          = (signText negative ++ whole ++ '.' :: places) ++ exponent := by
        simp [fractionText]
      refine ⟨negative, whole, places, exponent, power, rfl, rfl, hwhole, hplaces places rfl, ?_⟩
      rw [hsplit] at hsign
      cases hexponent with
      | absent => exact .absent
      | minus he hdigits => exact .minus he hdigits
      | plus he hplus hdigits =>
        rcases hplus with rfl | rfl
        · obtain ⟨sign, more, rfl, hchar⟩ := hsign _ _ _ rfl he
          have hdigit := hdigits.2 sign List.mem_cons_self
          rcases hchar with rfl | rfl <;> cases hdigit
        · exact .plus he hdigits

end Spelling

namespace Scalar

variable {cs whole : List Char} {afterDigit : Bool}

theorem trim_eq_self {p : Char → Bool} (h : ∀ c ∈ cs, p c = false) : Text.trim p cs = cs := by
  have hdrop : ∀ ds : List Char, (∀ c ∈ ds, p c = false) → ds.dropWhile p = ds := by
    intro ds hds
    refine Text.dropWhile_eq_self fun c hc => hds c (List.mem_of_head? hc)
  rw [Text.trim, hdrop cs h, hdrop cs.reverse (by simpa using h), List.reverse_reverse]

theorem isNumberBlank_of_isScalarChar {c : Char} (h : isScalarChar c = true) :
    Text.isNumberBlank c = false :=
  Plain.of_isScalarChar (p := (Text.isNumberBlank · = false)) (by decide) h

theorem takeSign_signText {c : Char} (hc : c.isDigit = true) (negative : Bool) (cs : List Char) :
    Integer.takeSign (signText negative ++ c :: cs) = (negative, c :: cs) := by
  cases negative with
  | true => rfl
  | false =>
    unfold Integer.takeSign
    split
    · rename_i h
      cases h
      cases hc
    · rename_i h
      cases h
      cases hc
    · rfl

theorem takeSign_of_isDigit {c : Char} (hc : c.isDigit = true) (cs : List Char) :
    Integer.takeSign (c :: cs) = (false, c :: cs) :=
  takeSign_signText hc false cs

theorem digitValue?_of_isDigit {c : Char} (hc : c.isDigit = true) :
    Integer.digitValue? 10 c = some (c.toNat - 48) := by
  obtain ⟨d, hd, rfl, -⟩ := Integer.exists_digitChar hc
  revert d
  decide

theorem digitRun?_eq {digits : List Char} (h : ∀ c ∈ digits, c.isDigit = true)
    (hne : digits ≠ [] ∨ afterDigit = true) :
    Integer.digitRun? 10 afterDigit digits = some (digits.map fun c => c.toNat - 48, []) := by
  induction digits generalizing afterDigit with
  | nil => simpa [Integer.digitRun?] using hne
  | cons c digits ih =>
    have hc := h c List.mem_cons_self
    have hgap : c ≠ '_' := by
      rintro rfl
      cases hc
    rw [Integer.digitRun?, if_neg hgap, digitValue?_of_isDigit hc,
      ih (fun d hd => h d (List.mem_cons_of_mem c hd)) (.inr rfl)]
    rfl

/-- A run of digits that does not begin with zero is a decimal integer. -/
theorem read_digits {d : Char} {digits : List Char} (hd : d.isDigit = true) (hne : d ≠ '0')
    (h : ∀ c ∈ digits, c.isDigit = true) (hlength : (d :: digits).length ≤ Integer.maxDigits) :
    Integer.read 10 (String.ofList (d :: digits)) = .ok (Integer.ofDigits (d :: digits)) := by
  have hall : ∀ c ∈ d :: digits, c.isDigit = true := List.forall_mem_cons.2 ⟨hd, h⟩
  have htrim : Text.trim Text.isNumberBlank (d :: digits) = d :: digits :=
    trim_eq_self fun c hc =>
      isNumberBlank_of_isScalarChar (Plain.isScalarChar_of_isDigit (hall c hc))
  have hmark : Integer.dropBaseMark 10 (d :: digits) = d :: digits := by
    unfold Integer.dropBaseMark
    split
    · rename_i heq
      cases heq
      exact absurd rfl hne
    · rfl
  have hsum : (digits.map fun c => c.toNat - 48).foldl (fun n d => n * 10 + d) (d.toNat - 48)
      = Integer.ofDigits (d :: digits) := by
    rw [List.foldl_map, Integer.ofDigits, List.foldl_cons, Nat.zero_mul, Nat.zero_add]
  rw [Integer.read, String.toList_ofList, htrim, takeSign_of_isDigit hd]
  simp only [hmark, digitRun?_eq hall (.inl (List.cons_ne_nil d digits)), List.length_map]
  rw [if_neg (by omega)]
  simp only [List.isEmpty_nil, if_true, Bool.false_eq_true, if_false, List.map_cons,
    List.foldl_cons, Nat.zero_mul, Nat.zero_add, hsum]

theorem magnitude_of_isWhole (h : IsWhole whole) (hlength : whole.length ≤ Integer.maxDigits) :
    magnitude whole = .ok (Integer.ofDigits whole) := by
  cases h with
  | zero => rfl
  | @run d digits hd hne hdigits =>
    have hall : ∀ c ∈ d :: digits, c.isDigit = true := List.forall_mem_cons.2 ⟨hd, hdigits⟩
    have hcontains : (d :: digits).contains ':' = false := by
      rw [Bool.eq_false_iff]
      exact fun h => absurd (hall ':' (List.contains_iff_mem.1 h)) (by decide)
    unfold magnitude
    split
    · rename_i heq; cases heq
    · rename_i heq; cases heq; exact absurd rfl hne
    · rename_i heq; cases heq; exact absurd rfl hne
    · rename_i heq; cases heq; exact absurd rfl hne
    · rename_i heq; cases heq; exact absurd rfl hne
    · rw [hcontains, readInteger, read_digits hd hne hdigits hlength]
      rfl

theorem filter_of_isScalarChar (h : ∀ c ∈ cs, isScalarChar c = true) :
    cs.filter (· != '_') = cs := by
  refine List.filter_eq_self.2 fun c hc => ?_
  simpa using Plain.ne_of_isScalarChar (h c hc) (by decide)

theorem exists_isDigit_of_isWhole (h : IsWhole whole) :
    ∃ d digits, whole = d :: digits ∧ d.isDigit = true := by
  cases h with
  | zero => exact ⟨_, _, rfl, rfl⟩
  | run hd => exact ⟨_, _, rfl, hd⟩

theorem integer_of_isWhole (negative : Bool) (h : IsWhole whole)
    (hlength : whole.length ≤ Integer.maxDigits) :
    integer (String.ofList (signText negative ++ whole))
      = .ok (if negative then -(Integer.ofDigits whole : Int) else Integer.ofDigits whole) := by
  have hall : ∀ c ∈ signText negative ++ whole, isScalarChar c = true :=
    isScalarChar_of_isSpelled (.int negative h hlength)
  have hmagnitude := magnitude_of_isWhole h hlength
  obtain ⟨d, digits, rfl, hd⟩ := exists_isDigit_of_isWhole h
  have hsign : sign (signText negative ++ d :: digits) = .ok (negative, d :: digits) := by
    rw [sign, takeSign_signText hd, if_neg (by simp)]
  rw [integer, String.toList_ofList, filter_of_isScalarChar hall, hsign]
  simp only [hmagnitude]
  rfl

theorem asciiDigits_of_isScalarChar (h : ∀ c ∈ cs, isScalarChar c = true) :
    asciiDigits cs = cs := by
  have hkeep : ∀ c ∈ cs,
      ((Text.decimalValue? c).map fun d => Char.ofNat (48 + d)).getD c = c := fun c hc =>
    Plain.of_isScalarChar
      (p := fun c => ((Text.decimalValue? c).map fun d => Char.ofNat (48 + d)).getD c = c)
      (by decide) (h c hc)
  rw [asciiDigits, List.map_congr_left hkeep, List.map_id']

theorem toLower_of_isDigit {c : Char} (hc : c.isDigit = true) : c.toLower = c := by
  obtain ⟨d, hd, rfl, -⟩ := Integer.exists_digitChar hc
  revert d
  decide

theorem toLowerAscii_digits {digits : List Char} (h : ∀ c ∈ digits, c.isDigit = true) :
    Text.toLowerAscii digits = digits := by
  rw [Text.toLowerAscii, List.map_congr_left fun c hc => toLower_of_isDigit (h c hc), List.map_id']

theorem takeWhile_ne_point (h : IsWhole whole) (rest : List Char) :
    (whole ++ '.' :: rest).takeWhile (· != '.') = whole
      ∧ (whole ++ '.' :: rest).dropWhile (· != '.') = '.' :: rest := by
  have hne : ∀ c ∈ whole, (c != '.') = true := by
    intro c hc
    have hdigit := isDigit_of_isWhole h c hc
    rw [bne_iff_ne]
    rintro rfl
    cases hdigit
  have hstop : Text.Stops (· != '.') ('.' :: rest) := Text.stops_cons.2 rfl
  exact ⟨Text.takeWhile_run hne hstop, Text.dropWhile_run hne hstop⟩

variable {exponent places : List Char} {power : Int}

theorem isExponent_of_isSignedExponent (h : IsSignedExponent exponent power) :
    Tag.isExponent exponent = true ∧ Text.Stops Tag.isDigitOrGap exponent := by
  cases h with
  | absent => exact ⟨rfl, Text.stops_nil _⟩
  | @plus e digits he hdigits | @minus e digits he hdigits =>
    obtain ⟨hne, hall⟩ := hdigits
    obtain ⟨d, digits, rfl⟩ := List.exists_cons_of_ne_nil hne
    have hrun := List.all_eq_true.2 hall
    refine ⟨?_, Text.stops_cons.2 ?_⟩
    · rcases he with rfl | rfl <;> simp only [Tag.isExponent, hrun] <;> rfl
    · rcases he with rfl | rfl <;> rfl

theorem isDigits_of_isWhole (h : IsWhole whole) : Tag.isDigits whole = true := by
  have hall := isDigit_of_isWhole h
  obtain ⟨d, digits, rfl, hd⟩ := exists_isDigit_of_isWhole h
  have hdigits : digits.all Tag.isDigitOrGap = true :=
    List.all_eq_true.2 fun c hc => by
      simp [Tag.isDigitOrGap, hall c (List.mem_cons_of_mem d hc)]
  rw [Tag.isDigits, hd, hdigits]
  rfl

theorem dropSign_signText {d : Char} (hd : d.isDigit = true) (negative : Bool) (cs : List Char) :
    Tag.dropSign (signText negative ++ d :: cs) = d :: cs := by
  have hplus : d ≠ '+' := by rintro rfl; cases hd
  have hminus : d ≠ '-' := by rintro rfl; cases hd
  cases negative with
  | true => rfl
  | false =>
    change Tag.dropSign (d :: cs) = d :: cs
    rw [Tag.dropSign, if_neg (by simp [hplus, hminus])]

/-- A number with a point looks like one. -/
theorem isFloat_of_point (negative : Bool) (hwhole : IsWhole whole) (hplaces : IsPlaces places)
    (hexponent : IsSignedExponent exponent power) :
    Tag.isFloat (signText negative ++ (whole ++ '.' :: (places ++ exponent))) = true := by
  obtain ⟨htake, hdrop⟩ := takeWhile_ne_point hwhole (places ++ exponent)
  obtain ⟨hexponent, hstop⟩ := isExponent_of_isSignedExponent hexponent
  have hrun : (places ++ exponent).dropWhile Tag.isDigitOrGap = exponent :=
    Text.dropWhile_run (fun c hc => by simp [Tag.isDigitOrGap, hplaces.2 c hc]) hstop
  have hunsigned : Tag.dropSign (signText negative ++ (whole ++ '.' :: (places ++ exponent)))
      = whole ++ '.' :: (places ++ exponent) := by
    obtain ⟨d, digits, rfl, hd⟩ := exists_isDigit_of_isWhole hwhole
    exact dropSign_signText hd negative _
  have hpoint : (whole ++ '.' :: (places ++ exponent)).contains '.' = true := by simp
  simp only [Tag.isFloat, hunsigned, htake, hdrop, List.drop_one, List.tail_cons, hrun, hexponent,
    hpoint, isDigits_of_isWhole hwhole, Bool.and_self, Bool.true_or]

theorem isExponent_of_signed (h : IsSignedExponent exponent power) :
    IsExponent exponent power := by
  cases h with
  | absent => exact .absent
  | plus he hdigits => exact .plus he (.inr rfl) hdigits
  | minus he hdigits => exact .minus he hdigits

/-- Lower case does not change what an exponent is. -/
theorem isSignedExponent_toLowerAscii (h : IsSignedExponent exponent power) :
    IsSignedExponent (Text.toLowerAscii exponent) power := by
  cases h with
  | absent => exact .absent
  | @plus e digits he hdigits =>
    have hlower : Text.toLowerAscii (e :: '+' :: digits) = 'e' :: '+' :: digits := by
      have hrest := toLowerAscii_digits hdigits.2
      rw [Text.toLowerAscii] at hrest ⊢
      rcases he with rfl | rfl <;> rw [List.map_cons, List.map_cons, hrest] <;> rfl
    rw [hlower]
    exact .plus (.inl rfl) hdigits
  | @minus e digits he hdigits =>
    have hlower : Text.toLowerAscii (e :: '-' :: digits) = 'e' :: '-' :: digits := by
      have hrest := toLowerAscii_digits hdigits.2
      rw [Text.toLowerAscii] at hrest ⊢
      rcases he with rfl | rfl <;> rw [List.map_cons, List.map_cons, hrest] <;> rfl
    rw [hlower]
    exact .minus (.inl rfl) hdigits

theorem exponent?_of_signed (h : IsSignedExponent exponent power) :
    exponent? exponent = some power := by
  cases h with
  | absent => rfl
  | @plus e digits he hdigits | @minus e digits he hdigits =>
    have hempty : digits.isEmpty = false := List.isEmpty_eq_false_iff.2 hdigits.1
    have hall : digits.all Char.isDigit = true := List.all_eq_true.2 hdigits.2
    simp [exponent?, he, Integer.takeSign, hempty, hall]

theorem stops_isDigit_of_signed (h : IsSignedExponent exponent power) :
    Text.Stops Char.isDigit exponent := by
  cases h with
  | absent => exact Text.stops_nil _
  | plus he | minus he => rcases he with rfl | rfl <;> exact Text.stops_cons.2 rfl

theorem decimal?_of_point (hwhole : IsWhole whole) (hplaces : IsPlaces places)
    (hexponent : IsSignedExponent exponent power) :
    decimal? (whole ++ '.' :: (places ++ exponent)) = some (decimal false whole places power) := by
  have hall := isDigit_of_isWhole hwhole
  have hstop : Text.Stops Char.isDigit ('.' :: (places ++ exponent)) := Text.stops_cons.2 rfl
  have hexponentStop := stops_isDigit_of_signed hexponent
  have hempty : whole.isEmpty = false := by
    obtain ⟨d, digits, rfl, -⟩ := exists_isDigit_of_isWhole hwhole
    rfl
  rw [decimal?, Text.takeWhile_run hall hstop, Text.dropWhile_run hall hstop]
  simp only [takeFraction, Text.takeWhile_run hplaces.2 hexponentStop,
    Text.dropWhile_run hplaces.2 hexponentStop, hempty, exponent?_of_signed hexponent]
  rfl

/-- A text that begins otherwise is another one. -/
theorem beq_ofList_eq_false {c : Char} {s : String} (h : s.toList.head? ≠ some c)
    (cs : List Char) : (String.ofList (c :: cs) == s) = false := by
  rw [beq_eq_false_iff_ne]
  rintro rfl
  rw [String.toList_ofList] at h
  exact h rfl

theorem isScalarChar_of_point (negative : Bool) (hwhole : IsWhole whole) (hplaces : IsPlaces places)
    (hexponent : IsSignedExponent exponent power) :
    ∀ c ∈ signText negative ++ (whole ++ '.' :: (places ++ exponent)), isScalarChar c = true :=
  isScalarChar_of_isSpelled (.float negative hwhole
    (fun ps (hps : ps ∈ some places) => Option.some.inj hps ▸ hplaces)
    (isExponent_of_signed hexponent))

theorem readFloat_of_point (hwhole : IsWhole whole) (hplaces : IsPlaces places)
    (hexponent : IsSignedExponent exponent power) :
    readFloat (whole ++ '.' :: (places ++ exponent)) = .ok (decimal false whole places power) := by
  have hscalar : ∀ c ∈ whole ++ '.' :: (places ++ exponent), isScalarChar c = true :=
    isScalarChar_of_point false hwhole hplaces hexponent
  have hdecimal := decimal?_of_point hwhole hplaces hexponent
  have htrim : Text.trim Text.isNumberBlank (whole ++ '.' :: (places ++ exponent))
      = whole ++ '.' :: (places ++ exponent) :=
    trim_eq_self fun c hc => isNumberBlank_of_isScalarChar (hscalar c hc)
  have hascii := asciiDigits_of_isScalarChar hscalar
  obtain ⟨d, digits, rfl, hd⟩ := exists_isDigit_of_isWhole hwhole
  have hlower : Text.toLowerAscii (d :: digits ++ '.' :: (places ++ exponent))
      = d :: Text.toLowerAscii (digits ++ '.' :: (places ++ exponent)) := by
    rw [List.cons_append, Text.toLowerAscii, List.map_cons, toLower_of_isDigit hd]
    rfl
  have hname : ∀ s ∈ ["inf", "infinity", "nan"], (String.ofList
      (Text.toLowerAscii (d :: digits ++ '.' :: (places ++ exponent))) == s) = false := by
    have hhead : ∀ s ∈ ["inf", "infinity", "nan"], s.toList.head?.any Char.isDigit = false := by
      decide
    intro s hs
    rw [hlower]
    refine beq_ofList_eq_false (fun hc => ?_) _
    have hany := hhead s hs
    rw [hc, Option.any_some, hd] at hany
    cases hany
  simp only [List.forall_mem_cons] at hname
  obtain ⟨hinf, hinfinity, hnan, -⟩ := hname
  rw [readFloat, htrim, hascii, List.cons_append, takeSign_of_isDigit hd, ← List.cons_append]
  simp only [hinf, hinfinity, hnan, hdecimal, Bool.or_self, Bool.false_eq_true, if_false]

theorem floatMagnitude_of_point (hwhole : IsWhole whole) (hplaces : IsPlaces places)
    (hexponent : IsSignedExponent exponent power) :
    floatMagnitude (whole ++ '.' :: (places ++ exponent))
      = .ok (decimal false whole places power) := by
  have hscalar : ∀ c ∈ whole ++ '.' :: (places ++ exponent), isScalarChar c = true :=
    isScalarChar_of_point false hwhole hplaces hexponent
  have hread := readFloat_of_point hwhole hplaces hexponent
  have hcolon : (whole ++ '.' :: (places ++ exponent)).contains ':' = false := by
    rw [Bool.eq_false_iff]
    exact fun h => absurd (hscalar ':' (List.contains_iff_mem.1 h)) (by decide)
  obtain ⟨d, digits, rfl, hd⟩ := exists_isDigit_of_isWhole hwhole
  have hpoint : d ≠ '.' := by
    rintro rfl
    cases hd
  rw [List.cons_append] at hread hcolon ⊢
  unfold floatMagnitude
  rw [if_neg (by simp [hpoint]), if_neg (by simp [hpoint]), hcolon, if_neg (by decide), hread]

/-- A number with a point has the value that it has in JSON. -/
theorem float_of_point (negative : Bool) (hwhole : IsWhole whole) (hplaces : IsPlaces places)
    (hexponent : IsSignedExponent exponent power) :
    float (String.ofList (signText negative ++ (whole ++ '.' :: (places ++ exponent))))
      = .ok (decimal negative whole places power) := by
  have hscalar := isScalarChar_of_point negative hwhole hplaces hexponent
  have hlower : Text.toLowerAscii (signText negative ++ (whole ++ '.' :: (places ++ exponent)))
      = signText negative ++ (whole ++ '.' :: (places ++ Text.toLowerAscii exponent)) := by
    have hsigned : Text.toLowerAscii (signText negative) = signText negative := by
      cases negative <;> rfl
    have hwhole' := toLowerAscii_digits (isDigit_of_isWhole hwhole)
    have hplaces' := toLowerAscii_digits hplaces.2
    simp only [Text.toLowerAscii, List.map_append, List.map_cons] at hsigned hwhole' hplaces' ⊢
    rw [hsigned, hwhole', hplaces']
    rfl
  have hmagnitude :=
    floatMagnitude_of_point hwhole hplaces (isSignedExponent_toLowerAscii hexponent)
  obtain ⟨d, digits, rfl, hd⟩ := exists_isDigit_of_isWhole hwhole
  have hsign : ∀ cs, sign (signText negative ++ (d :: digits ++ cs))
      = .ok (negative, d :: digits ++ cs) := by
    intro cs
    rw [sign, List.cons_append, takeSign_signText hd, if_neg (by simp)]
  rw [float, String.toList_ofList, filter_of_isScalarChar hscalar, hlower, hsign]
  simp only [hmagnitude]
  rfl

/-- A text that begins with a digit or a sign is none of the names of truth values. -/
theorem ofPlain_number {c : Char} (hscalar : ∀ d ∈ c :: cs, isScalarChar d = true)
    (hc : c.isDigit = true ∨ c = '-') :
    Tag.dropFinalBreak (c :: cs) = c :: cs
      ∧ Tag.boolWords.contains (String.ofList (c :: cs)) = false := by
  constructor
  · have hlast : (c :: cs).getLast? ≠ some '\n' := by
      intro h
      exact absurd (hscalar '\n' (List.mem_of_getLast? h)) (by decide)
    rw [Tag.dropFinalBreak, if_neg (by simpa using hlast)]
  · have hhead : ∀ s ∈ Tag.boolWords,
        s.toList.head?.any (fun d => d.isDigit || d == '-') = false := by
      decide
    rw [Bool.eq_false_iff]
    intro h
    have hany := hhead _ (List.contains_iff_mem.1 h)
    rw [String.toList_ofList, List.head?_cons, Option.any_some] at hany
    rcases hc with hc | rfl
    · rw [hc] at hany
      cases hany
    · cases hany

theorem exists_number_head (negative : Bool) (hwhole : IsWhole whole) (rest : List Char) :
    ∃ c cs, signText negative ++ (whole ++ rest) = c :: cs ∧ (c.isDigit = true ∨ c = '-') := by
  obtain ⟨d, digits, rfl, hd⟩ := exists_isDigit_of_isWhole hwhole
  cases negative with
  | true => exact ⟨_, _, rfl, .inr rfl⟩
  | false => exact ⟨_, _, rfl, .inl hd⟩

theorem ofPlain_of_point (negative : Bool) (hwhole : IsWhole whole) (hplaces : IsPlaces places)
    (hexponent : IsSignedExponent exponent power) :
    Tag.ofPlain (String.ofList (signText negative ++ (whole ++ '.' :: (places ++ exponent))))
      = .float := by
  have hscalar := isScalarChar_of_point negative hwhole hplaces hexponent
  have hfloat := isFloat_of_point negative hwhole hplaces hexponent
  obtain ⟨c, cs, heq, hc⟩ := exists_number_head negative hwhole ('.' :: (places ++ exponent))
  rw [heq] at hscalar hfloat ⊢
  obtain ⟨hbreak, hbool⟩ := ofPlain_number hscalar hc
  simp only [Tag.ofPlain, String.toList_ofList, hbreak, hbool, hfloat, Bool.false_eq_true,
    if_false, if_true]

/-- Without a point a text is no floating-point number. -/
theorem isFloat_eq_false (h : '.' ∉ cs) : Tag.isFloat cs = false := by
  have hsub : Tag.dropSign cs <:+ cs := by
    unfold Tag.dropSign
    split
    · split
      · exact List.suffix_cons _ _
      · exact List.suffix_refl _
    · exact List.suffix_refl _
  have hpoint : '.' ∉ Tag.dropSign cs := fun hmem => h (hsub.subset hmem)
  have hcontains : (Tag.dropSign cs).contains '.' = false := by simpa using hpoint
  have hhead : (cs.head? == some '.') = false := by
    rw [beq_eq_false_iff_ne]
    exact fun hmem => h (List.mem_of_head? hmem)
  -- The names of infinities and of the value that is no number have points as well.
  have hspecial : ∀ s ∈ [".inf", ".Inf", ".INF", ".nan", ".NaN", ".NAN"], ∀ ds : List Char,
      '.' ∉ ds → (s.toList == ds) = false := by
    intro s hs ds hds
    have hmem : ∀ s ∈ [".inf", ".Inf", ".INF", ".nan", ".NaN", ".NAN"], '.' ∈ s.toList := by
      decide
    rw [beq_eq_false_iff_ne]
    rintro rfl
    exact hds (hmem s hs)
  simp only [List.forall_mem_cons] at hspecial
  obtain ⟨hinf, hInf, hINF, hnan, hNaN, hNAN, -⟩ := hspecial
  simp only [Tag.isFloat, hcontains, hhead, List.any_cons, List.any_nil, hinf _ hpoint,
    hInf _ hpoint, hINF _ hpoint, hnan _ h, hNaN _ h, hNAN _ h, Bool.false_and, Bool.or_self]

theorem isInt_of_isWhole (negative : Bool) (hwhole : IsWhole whole) :
    Tag.isInt (signText negative ++ whole) = true := by
  have hsign : Tag.dropSign (signText negative ++ whole) = whole := by
    obtain ⟨d, digits, rfl, hd⟩ := exists_isDigit_of_isWhole hwhole
    exact dropSign_signText hd negative digits
  have hdigits := isDigits_of_isWhole hwhole
  rw [Tag.isInt, hsign]
  cases hwhole with
  | zero => rfl
  | run hd hne hall =>
    split
    · rfl
    · rename_i heq; cases heq; exact absurd rfl hne
    · rename_i heq; cases heq; exact absurd rfl hne
    · rename_i heq; cases heq; exact absurd rfl hne
    · rw [hdigits]
      rfl

theorem ofPlain_of_isWhole (negative : Bool) (hwhole : IsWhole whole)
    (hlength : whole.length ≤ Integer.maxDigits) :
    Tag.ofPlain (String.ofList (signText negative ++ whole)) = .int := by
  have hscalar : ∀ c ∈ signText negative ++ whole, isScalarChar c = true :=
    isScalarChar_of_isSpelled (.int negative hwhole hlength)
  have hpoint : '.' ∉ signText negative ++ whole := by
    rw [List.mem_append, not_or]
    refine ⟨by cases negative <;> simp [signText], fun hmem => ?_⟩
    exact absurd (isDigit_of_isWhole hwhole '.' hmem) (by decide)
  have hfloat := isFloat_eq_false hpoint
  have hint := isInt_of_isWhole negative hwhole
  obtain ⟨c, cs, heq, hc⟩ := exists_number_head negative hwhole []
  rw [List.append_nil] at heq
  rw [heq] at hscalar hfloat hint ⊢
  obtain ⟨hbreak, hbool⟩ := ofPlain_number hscalar hc
  simp only [Tag.ofPlain, String.toList_ofList, hbreak, hbool, hfloat, hint, Bool.false_eq_true,
    if_false, if_true]

/-- A scalar of JSON has its value as a plain scalar. -/
theorem value_of_isSpelled {v : Json Text.Points} {spelling : List Char}
    (h : IsSpelled (.scalar v) spelling) (hfloat : ∀ x, v = .float x → IsPointed spelling) :
    value (Tag.ofPlain (String.ofList spelling)) (.ofChars spelling) = .ok (Document.ofJson v) := by
  cases v with
  | float x =>
    obtain ⟨negative, whole, places, exponent, power, rfl, rfl, hwhole, hplaces, hexponent⟩ :=
      exists_of_isPointed h (hfloat x rfl)
    rw [ofPlain_of_point negative hwhole hplaces hexponent, value, Text.Points.shown_ofChars,
      float_of_point negative hwhole hplaces hexponent]
    rfl
  | int n =>
    cases h with
    | name hname => simp [Json.Token.names] at hname
    | int negative hwhole hlength =>
      rw [ofPlain_of_isWhole negative hwhole hlength, value, Text.Points.shown_ofChars,
        integer_of_isWhole negative hwhole hlength]
      rfl
  | null =>
    cases h with
    | name hname =>
      obtain rfl : _ = "null" := by simpa [Json.Token.names] using hname
      rfl
  | bool b =>
    cases h with
    | name hname =>
      obtain ⟨rfl, rfl⟩ | ⟨rfl, rfl⟩ : _ = "true" ∧ b = true ∨ _ = "false" ∧ b = false := by
        simpa [Json.Token.names] using hname
      · rfl
      · rfl
  | str | arr | obj =>
    cases h with
    | name hname => simp [Json.Token.names] at hname

end Scalar

end PercentTemplate.Yaml
