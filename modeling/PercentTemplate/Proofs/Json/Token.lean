import PercentTemplate.Json.Token
import PercentTemplate.Proofs.Json.Writing
import PercentTemplate.Proofs.Text.Run

/-!
# Words of a JSON text

Splitting a text into words goes word by word: every word leaves an end of what it was taken from
and takes at least one character away (`Json.Token.suffix_next`), so the bound on their number is
never reached (`Json.Token.lexAux_eq`). A word that is written is the word that is read where it
stands (`Json.Token.lex_mark`, `Json.Token.lex_text`, `Json.Token.lex_toString`). The integers among
the words can be converted, and those that cannot show as runs of digits
(`Json.Token.isLexical_of_mem_lex`, `Json.Token.exists_digits_of_mem_lex`).
-/

namespace PercentTemplate.Json.Token

section Rest

/-! What a word leaves is an end of what it was taken from. -/

theorem suffix_scanText {done codes : List Nat} {cs rest : List Char}
    (h : scanText done cs = some (codes, rest)) : '"' :: rest <:+ cs := by
  fun_induction scanText done cs with
  | case1 => cases h
  | case2 =>
    cases h
    exact List.suffix_refl _
  | case3 done a b c d cs n hn ih =>
    exact (ih h).trans (List.suffix_append ['\\', 'u', a, b, c, d] cs)
  | case4 => cases h
  | case5 done c cs hu n hn ih => exact (ih h).trans (List.suffix_append ['\\', c] cs)
  | case6 => cases h
  | case7 => cases h
  | case8 done c cs _ _ _ _ ih => exact (ih h).trans (List.suffix_cons c cs)

theorem suffix_takeFraction {cs places rest : List Char}
    (h : takeFraction cs = some (places, rest)) : rest <:+ cs := by
  unfold takeFraction at h
  split at h
  · simp only at h
    split at h
    · cases h
    · cases h
      exact (List.dropWhile_suffix _).trans (List.suffix_cons _ _)
  · cases h

theorem suffix_takeSign (cs : List Char) : (Integer.takeSign cs).2 <:+ cs := by
  unfold Integer.takeSign
  split
  · exact List.suffix_cons _ _
  · exact List.suffix_cons _ _
  · exact List.suffix_refl _

theorem suffix_takeExponent {cs rest : List Char} {n : Int}
    (h : takeExponent cs = some (n, rest)) : rest <:+ cs := by
  unfold takeExponent at h
  split at h
  · split at h
    · simp only at h
      split at h
      · cases h
      · cases h
        exact (List.dropWhile_suffix _).trans ((suffix_takeSign _).trans (List.suffix_cons _ _))
    · cases h
  · cases h

theorem wholeDigits_append (cs : List Char) : (wholeDigits cs).1 ++ (wholeDigits cs).2 = cs := by
  unfold wholeDigits
  split
  · rfl
  · exact List.append_nil cs

theorem exists_wholeDigits (c : Char) (cs : List Char) :
    ∃ digits, (wholeDigits (c :: cs)).1 = c :: digits := by
  unfold wholeDigits
  split
  · rename_i heq
    cases heq
    exact ⟨[], rfl⟩
  · exact ⟨cs, rfl⟩

/-- A number takes at least its first digit away. -/
theorem suffix_scanNumber (negative : Bool) {c : Char} (hc : c.isDigit = true) (cs : List Char) :
    (scanNumber negative (c :: cs)).2 <:+ cs := by
  obtain ⟨digits, hwhole⟩ := exists_wholeDigits c (cs.takeWhile Char.isDigit)
  have hrest : (wholeDigits ((c :: cs).takeWhile Char.isDigit)).2
      ++ (c :: cs).dropWhile Char.isDigit <:+ cs := by
    have hsplit := wholeDigits_append ((c :: cs).takeWhile Char.isDigit)
    rw [List.takeWhile_cons_of_pos hc, hwhole, List.cons_append, List.cons.injEq] at hsplit
    rw [List.takeWhile_cons_of_pos hc, List.dropWhile_cons_of_pos hc]
    refine ⟨digits, ?_⟩
    rw [← List.append_assoc, hsplit.2, List.takeWhile_append_dropWhile]
  unfold scanNumber
  simp only
  generalize (wholeDigits ((c :: cs).takeWhile Char.isDigit)).2
    ++ (c :: cs).dropWhile Char.isDigit = rest at hrest ⊢
  have hfraction : ((takeFraction rest).map Prod.snd).getD rest <:+ rest := by
    cases h : takeFraction rest with
    | none => exact List.suffix_refl _
    | some p => exact suffix_takeFraction h
  generalize ((takeFraction rest).map Prod.snd).getD rest = after at hfraction ⊢
  have hexponent : ((takeExponent after).map Prod.snd).getD after <:+ after := by
    cases h : takeExponent after with
    | none => exact List.suffix_refl _
    | some p => exact suffix_takeExponent h
  split
  · split
    · exact hrest
    · exact List.nil_suffix
  · exact hexponent.trans (hfraction.trans hrest)

/-- A word takes at least its first character away. -/
theorem suffix_next (c : Char) (cs : List Char) : (next (c :: cs)).2 <:+ cs := by
  unfold next
  simp only
  split
  · exact List.suffix_refl _
  split
  · split
    · rename_i h
      exact (List.suffix_cons _ _).trans (suffix_scanText h)
    · exact List.nil_suffix
  split
  · rename_i hdigit
    exact suffix_scanNumber false hdigit cs
  split
  · rename_i name v hfind
    have hname : 0 < name.length := by
      have hmem := List.mem_of_find?_eq_some hfind
      have hall : ∀ p ∈ names, 0 < p.1.length := by simp [names]; decide
      exact hall _ hmem
    rw [← Nat.sub_add_cancel hname, List.drop_succ_cons]
    exact List.drop_suffix _ _
  · split
    · split
      · rename_i d tail _ hdigit
        exact (suffix_scanNumber true hdigit.2 tail).trans (List.suffix_cons d tail)
      · exact List.nil_suffix
    · exact List.nil_suffix

theorem length_next (c : Char) (cs : List Char) : (next (c :: cs)).2.length < (c :: cs).length :=
  Nat.lt_succ_of_le (suffix_next c cs).length_le

end Rest

/-- The bound on the number of words is never reached. -/
theorem lexAux_eq {fuel : Nat} {cs : List Char} (h : cs.length ≤ fuel) :
    lexAux fuel cs = lex cs := by
  suffices hfuel : ∀ fuel fuel' cs, cs.length ≤ fuel → cs.length ≤ fuel' →
      lexAux fuel cs = lexAux fuel' cs from hfuel _ _ cs h (Nat.le_refl _)
  clear h
  intro fuel
  induction fuel with
  | zero =>
    intro fuel' cs h h'
    obtain rfl := List.length_eq_zero_iff.1 (Nat.le_zero.1 h)
    cases fuel' <;> rfl
  | succ fuel ih =>
    intro fuel' cs h h'
    cases fuel' with
    | zero =>
      obtain rfl := List.length_eq_zero_iff.1 (Nat.le_zero.1 h')
      rfl
    | succ fuel' =>
      have hle := (List.dropWhile_suffix isSpace (l := cs)).length_le
      rw [lexAux, lexAux]
      cases hrest : cs.dropWhile isSpace with
      | nil => rfl
      | cons c rest =>
        have hlt := length_next c rest
        rw [hrest] at hle
        simp only
        rw [ih fuel' _ (by omega) (by omega)]

theorem lex_nil : lex [] = [] := rfl

theorem lex_cons {c : Char} (h : isSpace c = false) (cs : List Char) :
    lex (c :: cs) = (next (c :: cs)).1 :: lex (next (c :: cs)).2 := by
  have hlt := length_next c cs
  rw [List.length_cons] at hlt
  rw [lex, List.length_cons, lexAux, List.dropWhile_cons_of_neg (by simp [h])]
  simp only
  rw [lexAux_eq (by omega)]

theorem lex_space {c : Char} (h : isSpace c = true) (cs : List Char) : lex (c :: cs) = lex cs := by
  rw [← lexAux_eq (Nat.le_succ cs.length), lex, List.length_cons, lexAux, lexAux,
    List.dropWhile_cons_of_pos h]

/-- Blanks before the first word do not matter. -/
theorem lex_append {blanks : List Char} (h : ∀ c ∈ blanks, isSpace c = true) (cs : List Char) :
    lex (blanks ++ cs) = lex cs := by
  induction blanks with
  | nil => rfl
  | cons c blanks ih =>
    rw [List.cons_append, lex_space (h c List.mem_cons_self),
      ih fun d hd => h d (List.mem_cons_of_mem c hd)]

/-- What holds of the empty text, and of a text if it holds behind its first space or word, holds of
all texts. -/
@[elab_as_elim]
theorem induction_lex {motive : List Char → Prop} (nil : motive [])
    (space : ∀ c cs, isSpace c = true → motive cs → motive (c :: cs))
    (word : ∀ c cs, isSpace c = false → motive (next (c :: cs)).2 → motive (c :: cs))
    (cs : List Char) : motive cs :=
  match cs with
  | [] => nil
  | c :: cs =>
    if h : isSpace c = true then space c cs h (induction_lex nil space word cs)
    else word c cs (Bool.eq_false_iff.2 h) (induction_lex nil space word (next (c :: cs)).2)
  termination_by cs.length
  decreasing_by
    · simp
    · exact length_next c cs

theorem exists_next_of_mem_lex {t : Token} {cs : List Char} (h : t ∈ lex cs) :
    ∃ c rest, c :: rest <:+ cs ∧ t = (next (c :: rest)).1 := by
  induction cs using induction_lex with
  | nil => cases h
  | space c cs hc ih =>
    rw [lex_space hc] at h
    obtain ⟨d, rest, hsuffix, ht⟩ := ih h
    exact ⟨d, rest, hsuffix.trans (List.suffix_cons c cs), ht⟩
  | word c cs hc ih =>
    rw [lex_cons hc, List.mem_cons] at h
    rcases h with rfl | h
    · exact ⟨c, cs, List.suffix_refl _, rfl⟩
    · obtain ⟨d, rest, hsuffix, ht⟩ := ih h
      exact ⟨d, rest, hsuffix.trans ((suffix_next c cs).trans (List.suffix_cons c cs)), ht⟩

theorem lex_mark {c : Char} (h : isMark c = true) (cs : List Char) :
    lex (c :: cs) = .mark c :: lex cs := by
  have hspace : isSpace c = false := by
    simp only [isMark, Bool.or_eq_true, decide_eq_true_eq] at h
    rcases h with ((((rfl | rfl) | rfl) | rfl) | rfl) | rfl <;> rfl
  have hnext : next (c :: cs) = (mark c, cs) := by
    unfold next
    simp only [if_pos h]
  rw [lex_cons hspace, hnext]

theorem hexText_control : ∀ n < 0x20, Text.hexText 4 n
    = ['0', '0', Nat.digitChar (n / 16), Nat.digitChar (n % 16)] := by
  decide

theorem hexNumber?_control : ∀ n < 0x20,
    Text.hexNumber? ['0', '0', Nat.digitChar (n / 16), Nat.digitChar (n % 16)] = some n := by
  decide

theorem scanText_plain {c : Char} (hquote : c ≠ '"') (hbackslash : c ≠ '\\')
    (hcontrol : ¬c.toNat < 0x20) (done : List Nat) (rest : List Char) :
    scanText done (c :: rest) = scanText (c.toNat :: done) rest := by
  rw [scanText.eq_def]
  split
  · contradiction
  · rename_i heq
    exact absurd (List.cons.inj heq).1 hquote
  · rename_i heq
    exact absurd (List.cons.inj heq).1 hbackslash
  · rename_i heq
    exact absurd (List.cons.inj heq).1 hbackslash
  · rename_i heq
    cases heq
    simp only [decide_eq_false hcontrol, decide_eq_false hbackslash, Bool.or_self,
      Bool.false_eq_true, if_false]

/-- A character is read back from its written form. -/
theorem scanText_textChar (c : Char) (done : List Nat) (rest : List Char) :
    scanText done (textChar c ++ rest) = scanText (c.toNat :: done) rest := by
  rcases textChar_cases c with ⟨letter, hmem, htext⟩ | ⟨hcontrol, htext⟩ |
    ⟨hquote, hbackslash, hplain, htext⟩
  · rw [htext]
    simp only [shortEscapes, List.mem_cons, Prod.mk.injEq, List.not_mem_nil, or_false] at hmem
    rcases hmem with ⟨rfl, rfl⟩ | ⟨rfl, rfl⟩ | ⟨rfl, rfl⟩ | ⟨rfl, rfl⟩ | ⟨rfl, rfl⟩ | ⟨rfl, rfl⟩ |
      ⟨rfl, rfl⟩ <;> rfl
  · rw [htext, hexText_control c.toNat hcontrol]
    simp only [List.cons_append, List.nil_append]
    rw [scanText, hexNumber?_control c.toNat hcontrol]
  · rw [htext]
    exact scanText_plain hquote hbackslash hplain done rest

theorem scanText_flatMap (cs : List Char) (done : List Nat) (rest : List Char) :
    scanText done (cs.flatMap textChar ++ '"' :: rest)
      = some (done.reverse ++ cs.map Char.toNat, rest) := by
  induction cs generalizing done with
  | nil => simp [scanText]
  | cons c cs ih =>
    rw [List.flatMap_cons, List.append_assoc, scanText_textChar, ih]
    simp

theorem joinSurrogates_map_toNat (cs : List Char) :
    joinSurrogates (cs.map Char.toNat) = Text.Points.ofChars cs := by
  induction cs with
  | nil => rfl
  | cons c cs ih =>
    cases cs with
    | nil =>
      rw [List.map_singleton, joinSurrogates, Text.Point.ofCode_toNat]
      rfl
    | cons d cs =>
      have hhigh : ¬((0xD800 ≤ c.toNat ∧ c.toNat < 0xDC00)
          ∧ (0xDC00 ≤ d.toNat ∧ d.toNat < 0xE000)) := by
        have hvalid : c.toNat < 0xD800 ∨ 0xDFFF < c.toNat ∧ c.toNat < 0x110000 := c.valid
        omega
      rw [List.map_cons] at ih
      rw [List.map_cons, List.map_cons, joinSurrogates, if_neg hhigh, ih,
        Text.Point.ofCode_toNat]
      rfl

theorem lex_text (s : String) (rest : List Char) :
    lex (textChars s ++ rest) = .text (.ofString s) :: lex rest := by
  have hchars : textChars s ++ rest = '"' :: (s.toList.flatMap textChar ++ '"' :: rest) := by
    simp [textChars]
  have hnext : next ('"' :: (s.toList.flatMap textChar ++ '"' :: rest)) 
      = (.text (.ofString s), rest) := by
    unfold next
    simp [isMark, scanText_flatMap, joinSurrogates_map_toNat, Text.Points.ofString]
  rw [hchars, lex_cons rfl, hnext]

theorem lex_null (rest : List Char) : lex ("null".toList ++ rest) = .scalar .null :: lex rest :=
  lex_cons (c := 'n') rfl _

theorem lex_true (rest : List Char) :
    lex ("true".toList ++ rest) = .scalar (.bool true) :: lex rest :=
  lex_cons (c := 't') rfl _

theorem lex_false (rest : List Char) :
    lex ("false".toList ++ rest) = .scalar (.bool false) :: lex rest :=
  lex_cons (c := 'f') rfl _

/-- Whether `c` can go on with a number. -/
def isNumeral (c : Char) : Bool :=
  c.isDigit || c = '.' || c = 'e' || c = 'E'

theorem wholeDigits_toDigits (n : Nat) :
    wholeDigits (Nat.toDigits 10 n) = (Nat.toDigits 10 n, []) := by
  by_cases hn : n = 0
  · subst hn
    rfl
  · have hhead := Integer.head?_toDigits_ne (Nat.pos_of_ne_zero hn)
    unfold wholeDigits
    split
    · rename_i heq
      simp [heq] at hhead
    · rfl

theorem takeFraction_of_stops {rest : List Char} (h : Text.Stops isNumeral rest) :
    takeFraction rest = none := by
  unfold takeFraction
  split
  · exact absurd (Text.stops_cons.1 h) (by decide)
  · rfl

theorem takeExponent_of_stops {rest : List Char} (h : Text.Stops isNumeral rest) :
    takeExponent rest = none := by
  unfold takeExponent
  split
  · rename_i e rest
    have he := Text.stops_cons.1 h
    simp only [isNumeral, Bool.or_eq_false_iff, decide_eq_false_iff_not] at he
    rw [if_neg]
    rintro (rfl | rfl)
    · exact he.1.2 rfl
    · exact he.2 rfl
  · rfl

/-- The digits of a number are read as this number up to where the number ends. -/
theorem scanNumber_toDigits (negative : Bool) {n : Nat} {rest : List Char}
    (hn : (Nat.toDigits 10 n).length ≤ Integer.maxDigits) (h : Text.Stops isNumeral rest) :
    scanNumber negative (Nat.toDigits 10 n ++ rest)
      = (scalar (.int (if negative then -(n : Int) else n)), rest) := by
  have hdigits : ∀ c ∈ Nat.toDigits 10 n, c.isDigit = true :=
    fun c hc => Nat.isDigit_of_mem_toDigits (by decide) (by decide) hc
  have hstop : Text.Stops Char.isDigit rest := by
    intro c hc
    have hc := h c hc
    simp only [isNumeral, Bool.or_eq_false_iff] at hc
    exact hc.1.1.1
  have hrun : Integer.ofDigitRun (Nat.toDigits 10 n) = .ok n := by
    rw [Integer.ofDigitRun, if_neg (Nat.not_lt.2 hn), Integer.ofDigits_toDigits]
  simp only [scanNumber, Text.takeWhile_run hdigits hstop, Text.dropWhile_run hdigits hstop,
    wholeDigits_toDigits, List.nil_append, takeFraction_of_stops h, Option.map_none,
    Option.getD_none, takeExponent_of_stops h, Option.isNone_none, Bool.and_self, if_true, hrun]

theorem isMark_of_isDigit {c : Char} (hc : c.isDigit = true) : isMark c = false := by
  rw [Bool.eq_false_iff]
  intro hmark
  simp only [isMark, Bool.or_eq_true, decide_eq_true_eq] at hmark
  rcases hmark with ((((rfl | rfl) | rfl) | rfl) | rfl) | rfl <;> exact absurd hc (by decide)

theorem isSpace_of_isDigit {c : Char} (hc : c.isDigit = true) : isSpace c = false := by
  rw [Bool.eq_false_iff]
  intro hspace
  simp only [isSpace, Bool.or_eq_true, decide_eq_true_eq] at hspace
  rcases hspace with ((rfl | rfl) | rfl) | rfl <;> exact absurd hc (by decide)

theorem next_of_isDigit {c : Char} (hc : c.isDigit = true) (cs : List Char) :
    next (c :: cs) = scanNumber false (c :: cs) := by
  have hquote : c ≠ '"' := by
    rintro rfl
    exact absurd hc (by decide)
  unfold next
  simp only [isMark_of_isDigit hc, Bool.false_eq_true, if_false, if_neg hquote, if_pos hc]

theorem next_minus_of_isDigit {c : Char} (hc : c.isDigit = true) (cs : List Char) :
    next ('-' :: c :: cs) = scanNumber true (c :: cs) := by
  have hI : ('I' == c) = false := by
    rw [beq_eq_false_iff_ne]
    rintro rfl
    exact absurd hc (by decide)
  have hname : (names.find? fun n => n.1.toList.isPrefixOf ('-' :: c :: cs)) = none := by
    simp [names, List.isPrefixOf, hI]
  unfold next
  simp [hname, hc, isMark]

theorem lex_toString {n : Int} {rest : List Char}
    (hn : (Nat.toDigits 10 n.natAbs).length ≤ Integer.maxDigits) (h : Text.Stops isNumeral rest) :
    lex ((toString n).toList ++ rest) = .scalar (.int n) :: lex rest := by
  obtain ⟨c, cs, hcs⟩ := List.exists_cons_of_ne_nil (Nat.toDigits_ne_nil (n := n.natAbs) (b := 10))
  have hc : c.isDigit = true :=
    Nat.isDigit_of_mem_toDigits (b := 10) (n := n.natAbs) (by decide) (by decide) (by simp [hcs])
  have hscan := fun negative => scanNumber_toDigits negative hn h
  rw [Integer.toList_toString]
  rw [hcs, List.cons_append] at hscan
  split
  · have hvalue : (if true then -(n.natAbs : Int) else n.natAbs) = n := by
      rw [if_pos rfl]
      omega
    rw [hcs, List.cons_append, List.cons_append, lex_cons rfl, next_minus_of_isDigit hc, hscan,
      hvalue]
  · have hvalue : (if false then -(n.natAbs : Int) else n.natAbs) = n := by
      rw [if_neg (by decide)]
      omega
    rw [hcs, List.cons_append, lex_cons (isSpace_of_isDigit hc), next_of_isDigit hc, hscan, hvalue]


section Lexical

/-- The digits of a whole number are those that its value is written with. -/
theorem toDigits_ofDigits_wholeDigits {run : List Char} (hne : run ≠ [])
    (h : ∀ c ∈ run, c.isDigit = true) :
    Nat.toDigits 10 (Integer.ofDigits (wholeDigits run).1) = (wholeDigits run).1 := by
  obtain ⟨c, rest, rfl⟩ := List.exists_cons_of_ne_nil hne
  unfold wholeDigits
  split
  · have hzero : Integer.ofDigits ['0'] = 0 := by decide
    rw [hzero, Nat.toDigits_of_lt_base (by decide)]
    rfl
  · rename_i hzero
    refine Integer.toDigits_ofDigits (h c List.mem_cons_self) ?_
      fun d hd => h d (List.mem_cons_of_mem c hd)
    rintro rfl
    exact hzero rest rfl

/-- A number is an integer that can be converted, a number with a fraction or an exponent, or has a
run of too many digits. -/
theorem scanNumber_cases (negative : Bool) {c : Char} (hc : c.isDigit = true) (cs : List Char) :
    (∃ n : Int, (Nat.toDigits 10 n.natAbs).length ≤ Integer.maxDigits
      ∧ (scanNumber negative (c :: cs)).1 = .scalar (.int n))
    ∨ (∃ x, (scanNumber negative (c :: cs)).1 = .scalar (.float x))
    ∨ ∃ digits, digits <+: c :: cs ∧ (∀ d ∈ digits, d.isDigit = true)
      ∧ Integer.maxDigits < digits.length
      ∧ (scanNumber negative (c :: cs)).1
        = .fault (.integer (.literalTooLong digits.length)) := by
  have hrun : ∀ d ∈ (c :: cs).takeWhile Char.isDigit, d.isDigit = true :=
    List.all_eq_true.1 List.all_takeWhile
  have hne : (c :: cs).takeWhile Char.isDigit ≠ [] := by simp [hc]
  have hwhole := toDigits_ofDigits_wholeDigits hne hrun
  have hbegin : (wholeDigits ((c :: cs).takeWhile Char.isDigit)).1
      <+: (c :: cs).takeWhile Char.isDigit :=
    ⟨_, wholeDigits_append _⟩
  unfold scanNumber
  simp only
  generalize (wholeDigits ((c :: cs).takeWhile Char.isDigit)).1 = whole at hwhole hbegin ⊢
  split
  · rw [Integer.ofDigitRun]
    by_cases hlong : Integer.maxDigits < whole.length
    · rw [if_pos hlong]
      exact .inr (.inr ⟨whole, hbegin.trans (List.takeWhile_prefix _),
        fun d hd => hrun d (hbegin.subset hd), hlong, rfl⟩)
    · rw [if_neg hlong]
      refine .inl ⟨_, ?_, rfl⟩
      have habs : (if negative = true then -(Integer.ofDigits whole : Int)
          else Integer.ofDigits whole).natAbs = Integer.ofDigits whole := by
        split <;> omega
      rw [habs, hwhole]
      exact Nat.le_of_not_lt hlong
  · exact .inr (.inl ⟨_, rfl⟩)

/-- A value that one word can be. -/
inductive IsLexical : Json Text.Points → Prop
  | null : IsLexical .null
  | bool (b : Bool) : IsLexical (.bool b)
  | int {n : Int} (h : (Nat.toDigits 10 n.natAbs).length ≤ Integer.maxDigits) : IsLexical (.int n)
  | float (x : Float) : IsLexical (.float x)

theorem isLexical_of_mem_names {name : String} {v : Json Text.Points} (h : (name, v) ∈ names) :
    IsLexical v := by
  simp only [names, List.mem_cons, Prod.mk.injEq, List.not_mem_nil, or_false] at h
  rcases h with ⟨-, rfl⟩ | ⟨-, rfl⟩ | ⟨-, rfl⟩ | ⟨-, rfl⟩ | ⟨-, rfl⟩ | ⟨-, rfl⟩
  · exact .null
  · exact .bool true
  · exact .bool false
  all_goals exact .float _

/-- A word is a mark, a text or a lexical value, or it cannot be read, and then the text is
malformed there or an integer has too many digits. -/
theorem next_cases (c : Char) (cs : List Char) :
    (isMark c = true ∧ (next (c :: cs)).1 = .mark c)
    ∨ (∃ s, (next (c :: cs)).1 = .text s)
    ∨ (∃ v, IsLexical v ∧ (next (c :: cs)).1 = .scalar v)
    ∨ (next (c :: cs)).1 = .fault .malformed
    ∨ ∃ digits, digits <:+: c :: cs ∧ (∀ d ∈ digits, d.isDigit = true)
      ∧ Integer.maxDigits < digits.length
      ∧ (next (c :: cs)).1 = .fault (.integer (.literalTooLong digits.length)) := by
  have hnumber : ∀ negative {d : Char} (ds : List Char), d.isDigit = true → d :: ds <:+ c :: cs →
      (∃ v, IsLexical v ∧ (scanNumber negative (d :: ds)).1 = .scalar v)
      ∨ ∃ digits, digits <:+: c :: cs ∧ (∀ d ∈ digits, d.isDigit = true)
        ∧ Integer.maxDigits < digits.length
        ∧ (scanNumber negative (d :: ds)).1
          = .fault (.integer (.literalTooLong digits.length)) := by
    intro negative d ds hd hsuffix
    obtain ⟨n, hn, h⟩ | ⟨x, h⟩ | ⟨digits, hbegin, hdigits, hlong, h⟩ :=
      scanNumber_cases negative hd ds
    · exact .inl ⟨_, .int hn, h⟩
    · exact .inl ⟨_, .float x, h⟩
    · exact .inr ⟨digits, hbegin.isInfix.trans hsuffix.isInfix, hdigits, hlong, h⟩
  unfold next
  simp only
  split
  · rename_i hmark
    exact .inl ⟨hmark, rfl⟩
  split
  · split
    · exact .inr (.inl ⟨_, rfl⟩)
    · exact .inr (.inr (.inr (.inl rfl)))
  split
  · rename_i hdigit
    rcases hnumber false cs hdigit (List.suffix_refl _) with h | h
    · exact .inr (.inr (.inl h))
    · exact .inr (.inr (.inr (.inr h)))
  split
  · rename_i name v hfind
    exact .inr (.inr (.inl ⟨v, isLexical_of_mem_names (List.mem_of_find?_eq_some hfind), rfl⟩))
  · split
    · split
      · rename_i d tail _ hdigit
        rcases hnumber true tail hdigit.2 (List.suffix_cons _ _) with h | h
        · exact .inr (.inr (.inl h))
        · exact .inr (.inr (.inr (.inr h)))
      · exact .inr (.inr (.inr (.inl rfl)))
    · exact .inr (.inr (.inr (.inl rfl)))

variable {cs : List Char}

theorem isLexical_of_mem_lex {v : Json Text.Points} (h : .scalar v ∈ lex cs) : IsLexical v := by
  obtain ⟨c, rest, -, ht⟩ := exists_next_of_mem_lex h
  obtain ⟨-, hword⟩ | ⟨_, hword⟩ | ⟨w, hw, hword⟩ | hword | ⟨_, -, -, -, hword⟩ := next_cases c rest
  all_goals rw [hword] at ht; cases ht
  exact hw

/-- An integer is refused only for a run of too many digits in the text. -/
theorem exists_digits_of_mem_lex {f : Integer.Fault} (h : .fault (.integer f) ∈ lex cs) :
    ∃ digits, digits <:+: cs ∧ (∀ d ∈ digits, d.isDigit = true)
      ∧ Integer.maxDigits < digits.length ∧ f = .literalTooLong digits.length := by
  obtain ⟨c, rest, hsuffix, ht⟩ := exists_next_of_mem_lex h
  obtain ⟨-, hword⟩ | ⟨_, hword⟩ | ⟨_, -, hword⟩ | hword |
    ⟨digits, hinfix, hdigits, hlong, hword⟩ := next_cases c rest
  all_goals rw [hword] at ht; cases ht
  exact ⟨digits, hinfix.trans hsuffix.isInfix, hdigits, hlong, rfl⟩

end Lexical

end PercentTemplate.Json.Token
