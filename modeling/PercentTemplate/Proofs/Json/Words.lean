import PercentTemplate.Proofs.Json.Token

/-!
# How the words of a JSON text are written

A text is a sequence of words with blanks before each of them (`Json.Token.words`). What a word is
tells how it is written: marks and names are themselves (`Json.Token.IsSpelled`), a string stands
between quotes, and a number is digits, perhaps with a fraction and an exponent
(`Json.Token.IsWhole`, `Json.Token.IsExponent`).
-/

namespace PercentTemplate.Json.Token

/-- A word of a text: the blanks before it, the characters it is written with and what it is. -/
structure Word where
  blanks : List Char
  spelling : List Char
  token : Token

/-- The words of `cs` with the blanks before them; `fuel` bounds their number. -/
def wordsAux : Nat → List Char → List Word
  | 0, _ => []
  | fuel + 1, cs =>
    match cs.dropWhile isSpace with
    | [] => []
    | c :: rest =>
      let (token, unread) := next (c :: rest)
      ⟨cs.takeWhile isSpace, (c :: rest).take ((c :: rest).length - unread.length), token⟩
        :: wordsAux fuel unread

/-- The words of a text with the blanks before them. -/
def words (cs : List Char) : List Word :=
  wordsAux cs.length cs

theorem wordsAux_eq {fuel : Nat} {cs : List Char} (h : cs.length ≤ fuel) :
    wordsAux fuel cs = words cs := by
  suffices hfuel : ∀ fuel fuel' cs, cs.length ≤ fuel → cs.length ≤ fuel' →
      wordsAux fuel cs = wordsAux fuel' cs from hfuel _ _ cs h (Nat.le_refl _)
  clear h
  intro fuel
  induction fuel with
  | zero =>
    intro fuel' cs h h'
    obtain rfl := List.length_eq_zero_iff.1 (Nat.le_zero.1 h)
    cases fuel' <;> rfl
  | succ fuel ih =>
    intro fuel' cs h h'
    cases fuel' with
    | zero =>
      obtain rfl := List.length_eq_zero_iff.1 (Nat.le_zero.1 h')
      rfl
    | succ fuel' =>
      have hle := (List.dropWhile_suffix isSpace (l := cs)).length_le
      rw [wordsAux, wordsAux]
      cases hrest : cs.dropWhile isSpace with
      | nil => rfl
      | cons c rest =>
        have hlt := length_next c rest
        rw [hrest] at hle
        simp only
        rw [ih fuel' _ (by omega) (by omega)]

/-- The words of a text that begins with blanks and a word. -/
theorem words_append {blanks spelling rest : List Char} {c : Char} {token : Token}
    (hblanks : ∀ c ∈ blanks, isSpace c = true) (hc : isSpace c = false)
    (hnext : next (c :: spelling ++ rest) = (token, rest)) :
    words (blanks ++ (c :: spelling ++ rest)) = ⟨blanks, c :: spelling, token⟩ :: words rest := by
  have hdrop : (blanks ++ (c :: spelling ++ rest)).dropWhile isSpace = c :: (spelling ++ rest) := by
    exact Text.dropWhile_run hblanks (Text.stops_cons.2 hc)
  have htake : (blanks ++ (c :: spelling ++ rest)).takeWhile isSpace = blanks :=
    Text.takeWhile_run hblanks (Text.stops_cons.2 hc)
  have hlength : (blanks ++ (c :: spelling ++ rest)).length
      = (blanks.length + spelling.length + rest.length) + 1 := by
    simp only [List.length_append, List.length_cons]
    omega
  rw [words, hlength, wordsAux, hdrop, htake]
  simp only
  rw [← List.cons_append, hnext]
  simp only
  rw [wordsAux_eq (by omega)]
  congr 2
  rw [List.length_append, Nat.add_sub_cancel, List.take_left']
  rfl

/-- Blanks in front of a text are blanks of its first word. -/
theorem exists_words_of_blanks {blanks rest : List Char} {c : Char}
    (hblanks : ∀ c ∈ blanks, isSpace c = true) (hc : isSpace c = false) :
    ∃ w ws, words (c :: rest) = w :: ws
      ∧ words (blanks ++ c :: rest) = { w with blanks := blanks } :: ws := by
  obtain ⟨spelling, hsplit⟩ := suffix_next c rest
  have hnext : next (c :: spelling ++ (next (c :: rest)).2)
      = ((next (c :: rest)).1, (next (c :: rest)).2) := by
    rw [List.cons_append, hsplit]
  have hwords := words_append (List.forall_mem_nil _) hc hnext
  have hwords' := words_append hblanks hc hnext
  rw [List.cons_append, hsplit] at hwords hwords'
  exact ⟨_, _, hwords, hwords'⟩

section Spelling

/-- The characters of a string between its quotes, and the codes that they stand for. -/
inductive IsBody : List Char → List Nat → Prop
  | nil : IsBody [] []
  | code {a b c d : Char} {n : Nat} {body : List Char} {codes : List Nat}
    (hn : Text.hexNumber? [a, b, c, d] = some n) (h : IsBody body codes) :
    IsBody ('\\' :: 'u' :: a :: b :: c :: d :: body) (n :: codes)
  | escape {c : Char} {n : Nat} {body : List Char} {codes : List Nat}
    (hn : escapeCode? c = some n) (h : IsBody body codes) :
    IsBody ('\\' :: c :: body) (n :: codes)
  | plain {c : Char} {body : List Char} {codes : List Nat} (hquote : c ≠ '"')
    (hbackslash : c ≠ '\\') (hcontrol : ¬c.toNat < 0x20) (h : IsBody body codes) :
    IsBody (c :: body) (c.toNat :: codes)

/-- Two codes that stand for one character together. -/
def IsPair (high low : Nat) : Prop :=
  (0xD800 ≤ high ∧ high < 0xDC00) ∧ (0xDC00 ≤ low ∧ low < 0xE000)

/-- The digits of a whole number: zero, or a run that begins otherwise. -/
inductive IsWhole : List Char → Prop
  | zero : IsWhole ['0']
  | run {d : Char} {digits : List Char} (hd : d.isDigit = true) (hne : d ≠ '0')
    (hdigits : ∀ c ∈ digits, c.isDigit = true) : IsWhole (d :: digits)

/-- The digits of a fraction. -/
def IsPlaces (places : List Char) : Prop := places ≠ [] ∧ ∀ c ∈ places, c.isDigit = true

/-- An exponent, if there is one, and its value. -/
inductive IsExponent : List Char → Int → Prop
  | absent : IsExponent [] 0
  | plus {e : Char} {sign digits : List Char} (he : e = 'e' ∨ e = 'E')
    (hsign : sign = [] ∨ sign = ['+']) (hdigits : IsPlaces digits) :
    IsExponent (e :: sign ++ digits) (Integer.ofDigits digits)
  | minus {e : Char} {digits : List Char} (he : e = 'e' ∨ e = 'E') (hdigits : IsPlaces digits) :
    IsExponent (e :: '-' :: digits) (-(Integer.ofDigits digits : Int))

/-- A fraction, if there is one. -/
def fractionText : Option (List Char) → List Char
  | none => []
  | some places => '.' :: places

/-- The sign of a negative number. -/
def signText (negative : Bool) : List Char := if negative then ['-'] else []

/-- The number that a whole part, decimal places and an exponent make up. -/
def decimal (negative : Bool) (whole places : List Char) (power : Int) : Float :=
  let x := FloatText.ofDecimal (Integer.ofDigits (whole ++ places)) (power - places.length)
  if negative then -x else x

/-- A word and the characters that it is written with. -/
inductive IsSpelled : Token → List Char → Prop
  | mark {c : Char} (h : isMark c = true) : IsSpelled (.mark c) [c]
  | text {body : List Char} {codes : List Nat} (h : IsBody body codes) :
    IsSpelled (.text (joinSurrogates codes)) ('"' :: (body ++ ['"']))
  | name {name : String} {v : Json Text.Points} (h : (name, v) ∈ names) :
    IsSpelled (.scalar v) name.toList
  | int {whole : List Char} (negative : Bool) (hwhole : IsWhole whole)
    (hlength : whole.length ≤ Integer.maxDigits) :
    IsSpelled (.scalar (.int (if negative then -(Integer.ofDigits whole : Int)
      else Integer.ofDigits whole))) (signText negative ++ whole)
  | float {whole exponent : List Char} {places : Option (List Char)} {power : Int}
    (negative : Bool) (hwhole : IsWhole whole) (hplaces : ∀ ps ∈ places, IsPlaces ps)
    (hexponent : IsExponent exponent power) :
    IsSpelled (.scalar (.float (decimal negative whole (places.getD []) power)))
      (signText negative ++ (whole ++ (fractionText places ++ exponent)))

theorem exists_body {done codes : List Nat} {cs rest : List Char}
    (h : scanText done cs = some (codes, rest)) :
    ∃ body tail, cs = body ++ '"' :: rest ∧ codes = done.reverse ++ tail ∧ IsBody body tail := by
  fun_induction scanText done cs with
  | case1 => cases h
  | case2 done rest =>
    cases h
    exact ⟨[], [], rfl, (List.append_nil _).symm, .nil⟩
  | case3 done a b c d cs n hn ih =>
    obtain ⟨body, tail, rfl, rfl, hbody⟩ := ih h
    exact ⟨_, n :: tail, rfl, by simp, .code hn hbody⟩
  | case4 => cases h
  | case5 done c cs _ n hn ih =>
    obtain ⟨body, tail, rfl, rfl, hbody⟩ := ih h
    exact ⟨_, n :: tail, rfl, by simp, .escape hn hbody⟩
  | case6 => cases h
  | case7 => cases h
  | case8 done c cs hquote _ _ hplain ih =>
    obtain ⟨body, tail, rfl, rfl, hbody⟩ := ih h
    simp only [Bool.or_eq_true, decide_eq_true_eq, not_or] at hplain
    exact ⟨_, c.toNat :: tail, rfl, by simp, .plain hquote hplain.2 hplain.1 hbody⟩

theorem IsBody.length_le {body : List Char} {codes : List Nat} (h : IsBody body codes) :
    codes.length ≤ body.length := by
  induction h with
  | nil => exact Nat.le_refl 0
  | code | escape | plain => simp only [List.length_cons]; omega

/-- Codes without pairs stand for one code point each. -/
theorem joinSurrogates_of_not_isPair {codes : List Nat}
    (h : ∀ front high low rest, codes = front ++ high :: low :: rest → ¬IsPair high low) :
    joinSurrogates codes = codes.map Text.Point.ofCode := by
  induction codes with
  | nil => rfl
  | cons n codes ih =>
    have hrest := ih fun front high low rest heq => h (n :: front) high low rest (by rw [heq]; rfl)
    cases codes with
    | nil => rfl
    | cons m codes =>
      have hpair := h [] n m codes rfl
      rw [IsPair] at hpair
      rw [joinSurrogates, if_neg hpair, hrest]
      rfl

theorem isPlaces_takeWhile {cs : List Char} (h : (cs.takeWhile Char.isDigit).isEmpty ≠ true) :
    IsPlaces (cs.takeWhile Char.isDigit) :=
  ⟨fun hnil => h (List.isEmpty_iff.2 hnil), List.all_eq_true.1 List.all_takeWhile⟩

theorem isPlaces_of_takeFraction {cs places rest : List Char}
    (h : takeFraction cs = some (places, rest)) :
    IsPlaces places ∧ cs = '.' :: (places ++ rest) := by
  unfold takeFraction at h
  split at h
  · simp only at h
    split at h
    · cases h
    · rename_i hne
      cases h
      exact ⟨isPlaces_takeWhile hne, by rw [List.takeWhile_append_dropWhile]⟩
  · cases h

theorem isExponent_of_takeExponent {cs rest : List Char} {power : Int}
    (h : takeExponent cs = some (power, rest)) :
    ∃ exponent, IsExponent exponent power ∧ cs = exponent ++ rest := by
  unfold takeExponent at h
  split at h
  · rename_i e cs
    split at h
    · rename_i he
      simp only at h
      split at h
      · cases h
      · rename_i hne
        cases h
        have hdigits := isPlaces_takeWhile hne
        have hsplit := List.takeWhile_append_dropWhile (p := Char.isDigit)
          (l := (Integer.takeSign cs).2)
        generalize (Integer.takeSign cs).2.takeWhile Char.isDigit = digits at hdigits hsplit ⊢
        generalize hunread : (Integer.takeSign cs).2.dropWhile Char.isDigit = unread at hsplit ⊢
        unfold Integer.takeSign at hsplit ⊢
        split at hsplit
        · cases hsplit
          exact ⟨_, .minus he hdigits, rfl⟩
        · cases hsplit
          exact ⟨_, .plus he (.inr rfl) hdigits, rfl⟩
        · cases hsplit
          exact ⟨_, .plus he (.inl rfl) hdigits, rfl⟩
    · cases h
  · cases h

theorem isWhole_wholeDigits {run : List Char} (hne : run ≠ [])
    (h : ∀ c ∈ run, c.isDigit = true) : IsWhole (wholeDigits run).1 := by
  obtain ⟨d, digits, rfl⟩ := List.exists_cons_of_ne_nil hne
  unfold wholeDigits
  split
  · exact .zero
  · rename_i hzero
    refine .run (h d List.mem_cons_self) ?_ fun c hc => h c (List.mem_cons_of_mem d hc)
    rintro rfl
    exact hzero digits rfl

/-- The digits at the front of a number begin with its whole part. -/
theorem exists_whole {d : Char} (hd : d.isDigit = true) (cs : List Char) :
    IsWhole (wholeDigits ((d :: cs).takeWhile Char.isDigit)).1
      ∧ d :: cs = (wholeDigits ((d :: cs).takeWhile Char.isDigit)).1
        ++ ((wholeDigits ((d :: cs).takeWhile Char.isDigit)).2
          ++ (d :: cs).dropWhile Char.isDigit) := by
  have hrun : ∀ c ∈ (d :: cs).takeWhile Char.isDigit, c.isDigit = true :=
    List.all_eq_true.1 List.all_takeWhile
  refine ⟨isWhole_wholeDigits (by simp [hd]) hrun, ?_⟩
  rw [← List.append_assoc, wholeDigits_append, List.takeWhile_append_dropWhile]

/-- A fraction, if one is taken, and the rest make up a text. -/
theorem fraction_append (cs : List Char) :
    (∀ places ∈ (takeFraction cs).map Prod.fst, IsPlaces places)
      ∧ cs = fractionText ((takeFraction cs).map Prod.fst)
        ++ ((takeFraction cs).map Prod.snd).getD cs := by
  cases htake : takeFraction cs with
  | none => simp [fractionText]
  | some p =>
    obtain ⟨hplaces, heq⟩ := isPlaces_of_takeFraction htake
    refine ⟨?_, heq⟩
    rintro places ⟨⟩
    exact hplaces

/-- An exponent, if one is taken, and the rest make up a text. -/
theorem exists_exponent (cs : List Char) :
    ∃ exponent, IsExponent exponent (((takeExponent cs).map Prod.fst).getD 0)
      ∧ cs = exponent ++ ((takeExponent cs).map Prod.snd).getD cs := by
  cases htake : takeExponent cs with
  | none => exact ⟨[], .absent, rfl⟩
  | some p => exact isExponent_of_takeExponent htake

theorem isSpelled_scanNumber {negative : Bool} {d : Char} {cs rest : List Char} {token : Token}
    (hd : d.isDigit = true) (h : scanNumber negative (d :: cs) = (token, rest))
    (hfault : ∀ f, token ≠ .fault f) :
    ∃ spelling, d :: cs = spelling ++ rest ∧ IsSpelled token (signText negative ++ spelling) := by
  obtain ⟨hwhole, hsplit⟩ := exists_whole hd cs
  unfold scanNumber at h
  simp only at h
  generalize (wholeDigits ((d :: cs).takeWhile Char.isDigit)).1 = whole at h hwhole hsplit
  generalize (wholeDigits ((d :: cs).takeWhile Char.isDigit)).2
    ++ (d :: cs).dropWhile Char.isDigit = tail at h hsplit
  rw [hsplit]
  obtain ⟨hplaces, hfraction⟩ := fraction_append tail
  obtain ⟨exponent, hexponent, hafter⟩ :=
    exists_exponent (((takeFraction tail).map Prod.snd).getD tail)
  split at h
  · split at h
    · rename_i n hn
      cases h
      rw [Integer.ofDigitRun] at hn
      split at hn
      · cases hn
      · rename_i hlength
        cases hn
        exact ⟨whole, rfl, .int negative hwhole (Nat.le_of_not_lt hlength)⟩
    · cases h
      exact absurd rfl (hfault _)
  · cases h
    refine ⟨_, ?_, .float negative hwhole hplaces hexponent⟩
    rw [List.append_assoc, List.append_assoc, ← hafter, ← hfraction]

/-- Every word that can be read is spelled as such. -/
theorem isSpelled_next {c : Char} {cs rest : List Char} {token : Token}
    (h : next (c :: cs) = (token, rest)) (hfault : ∀ f, token ≠ .fault f) :
    ∃ spelling, c :: cs = spelling ++ rest ∧ IsSpelled token spelling := by
  unfold next at h
  simp only at h
  split at h
  · rename_i hmark
    cases h
    exact ⟨[c], rfl, .mark hmark⟩
  split at h
  · rename_i hquote
    subst hquote
    split at h
    · rename_i codes rest hscan
      cases h
      obtain ⟨body, tail, rfl, rfl, hbody⟩ := exists_body hscan
      exact ⟨'"' :: (body ++ ['"']), by simp, .text hbody⟩
    · cases h
      exact absurd rfl (hfault _)
  split at h
  · rename_i hdigit
    exact isSpelled_scanNumber hdigit h hfault
  split at h
  · rename_i name v hfind
    cases h
    have hbegins := List.find?_some hfind
    obtain ⟨rest, hrest⟩ := List.isPrefixOf_iff_prefix.1 hbegins
    refine ⟨name.toList, ?_, .name (List.mem_of_find?_eq_some hfind)⟩
    rw [← hrest, ← String.length_toList, List.drop_left]
  · split at h
    · split at h
      · rename_i d tail _ hminus
        obtain ⟨rfl, hdigit⟩ := hminus
        obtain ⟨spelling, hsplit, hspelled⟩ := isSpelled_scanNumber hdigit h hfault
        exact ⟨'-' :: spelling, by rw [hsplit]; rfl, hspelled⟩
      · cases h
        exact absurd rfl (hfault _)
    · cases h
      exact absurd rfl (hfault _)

end Spelling

section Front

variable {cs : List Char} {t : Token} {ts : List Token}

theorem IsSpelled.ne_nil {spelling : List Char} (h : IsSpelled t spelling) : spelling ≠ [] := by
  cases h with
  | mark | text => exact List.cons_ne_nil _ _
  | name hname =>
    have hall : ∀ n ∈ names, n.1.toList ≠ [] := by simp [names]
    exact hall _ hname
  | int negative hwhole => cases hwhole <;> simp
  | float negative hwhole => cases hwhole <;> simp

/-- A text without words is blank. -/
theorem isSpace_of_lex_eq_nil (h : lex cs = []) : ∀ c ∈ cs, isSpace c = true := by
  induction cs using induction_lex with
  | nil => exact nofun
  | space c cs hc ih =>
    rw [lex_space hc] at h
    exact List.forall_mem_cons.2 ⟨hc, ih h⟩
  | word c cs hc => rw [lex_cons hc] at h; cases h

/-- The first word of a text: the blanks before it, its spelling and what is behind it. -/
theorem exists_of_lex_eq_cons (h : lex cs = t :: ts) (hfault : ∀ f, t ≠ .fault f) :
    ∃ blanks spelling rest, cs = blanks ++ (spelling ++ rest)
      ∧ (∀ c ∈ blanks, isSpace c = true) ∧ Text.Stops isSpace (spelling ++ rest)
      ∧ IsSpelled t spelling ∧ next (spelling ++ rest) = (t, rest) ∧ lex rest = ts := by
  induction cs using induction_lex with
  | nil => cases h
  | space c cs hc ih =>
    rw [lex_space hc] at h
    obtain ⟨blanks, spelling, rest, rfl, hblanks, hword⟩ := ih h
    exact ⟨c :: blanks, spelling, rest, rfl, List.forall_mem_cons.2 ⟨hc, hblanks⟩, hword⟩
  | word c cs hc =>
    rw [lex_cons hc, List.cons.injEq] at h
    obtain ⟨ht, hrest⟩ := h
    have hnext : next (c :: cs) = (t, (next (c :: cs)).2) := Prod.ext ht rfl
    obtain ⟨spelling, hsplit, hspelled⟩ := isSpelled_next hnext hfault
    refine ⟨[], spelling, _, hsplit, nofun, ?_, hspelled, ?_, hrest⟩
    · rw [← hsplit]
      exact Text.stops_cons.2 hc
    · rw [← hsplit]
      exact hnext

theorem words_of_next {blanks spelling rest : List Char}
    (hblanks : ∀ c ∈ blanks, isSpace c = true) (hstop : Text.Stops isSpace (spelling ++ rest))
    (hspelled : IsSpelled t spelling) (hnext : next (spelling ++ rest) = (t, rest)) :
    words (blanks ++ (spelling ++ rest)) = ⟨blanks, spelling, t⟩ :: words rest := by
  obtain ⟨c, spelling, rfl⟩ := List.exists_cons_of_ne_nil hspelled.ne_nil
  exact words_append hblanks (Text.stops_cons.1 hstop) hnext

end Front

end PercentTemplate.Json.Token
