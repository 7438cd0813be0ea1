import PercentTemplate.Proofs.Json.Words
import PercentTemplate.Proofs.Yaml.Source
import PercentTemplate.Yaml.Token.Quoted

/-!
# JSON strings as double-quoted scalars

A JSON string in which no line ends is a double-quoted scalar in which every code stands for a
code point (`Yaml.Quoted.scan_of_isBody`): escapes of JSON are escapes of YAML, but two escapes never
make up one character.

The scalar is read as words and gaps between them. The proof is by induction on the characters of
the string, over what is left of the current word and everything behind it
(`Yaml.Quoted.fromWord`).
-/

namespace PercentTemplate.Yaml.Quoted

open Json.Token (IsBody escapeCode?)
open Text (Point Points)

theorem escapeChar?_of_escapeCode? {c : Char} {n : Nat} (h : escapeCode? c = some n) :
    ∃ e, escapeChar? c = some e ∧ Point.char e = Point.ofCode n := by
  unfold escapeCode? at h
  split at h <;> cases h <;> exact ⟨_, rfl, rfl⟩

theorem toNat_le_of_le {c d : Char} (h : c ≤ d) : c.toNat ≤ d.toNat :=
  UInt32.le_iff_toNat_le.1 h

theorem isHexDigit_of_hexValue? {c : Char} {n : Nat} (h : Text.hexValue? c = some n) :
    isHexDigit c = true ∧ n < 16 := by
  unfold Text.hexValue? at h
  unfold isHexDigit
  split at h
  · rename_i hdigit
    cases h
    have hcode := Integer.toNat_of_isDigit hdigit
    exact ⟨by simp [hdigit], by omega⟩
  split at h
  · rename_i hletter
    cases h
    have hhigh : c.toNat ≤ 102 := toNat_le_of_le hletter.2
    exact ⟨by simp [hletter], by omega⟩
  split at h
  · rename_i hletter
    cases h
    have hhigh : c.toNat ≤ 70 := toNat_le_of_le hletter.2
    exact ⟨by simp [hletter], by omega⟩
  · cases h

/-- Four hexadecimal digits stand for a code of at most sixteen bits. -/
theorem isHexDigit_of_hexNumber? {a b c d : Char} {n : Nat}
    (h : Text.hexNumber? [a, b, c, d] = some n) :
    [a, b, c, d].all isHexDigit = true ∧ n < 0x10000 := by
  simp only [Text.hexNumber?, List.foldlM_cons, List.foldlM_nil, Option.bind_eq_bind,
    Option.bind_eq_some_iff, Option.map_eq_some_iff, Option.pure_def] at h
  obtain ⟨_, ⟨na, ha, rfl⟩, _, ⟨nb, hb, rfl⟩, _, ⟨nc, hc, rfl⟩, _, ⟨nd, hd, rfl⟩, ⟨⟩⟩ := h
  obtain ⟨hisa, hlta⟩ := isHexDigit_of_hexValue? ha
  obtain ⟨hisb, hltb⟩ := isHexDigit_of_hexValue? hb
  obtain ⟨hisc, hltc⟩ := isHexDigit_of_hexValue? hc
  obtain ⟨hisd, hltd⟩ := isHexDigit_of_hexValue? hd
  exact ⟨by simp [hisa, hisb, hisc, hisd], by omega⟩

theorem ofCode_eq_ok {n : Nat} (hn : n < 0x10000) : ofCode n = .ok (Point.ofCode n) := by
  rw [ofCode, if_neg (by omega), if_neg (by omega)]

variable {s : Source} {done : Points} {index line : Nat} {rest : List Char}

/-- An escape of one letter. -/
theorem escape_letter {c e : Char} (h : s.IsAt (c :: rest) index line)
    (he : escapeChar? c = some e) (done : Points) :
    escape done s = .ok (.char e :: done, s.advance) := by
  unfold escape
  simp only [h.peek_eq, he]

/-- An escape of four digits. -/
theorem escape_code {a b c d : Char} {n : Nat}
    (h : s.IsAt ('u' :: a :: b :: c :: d :: rest) index line)
    (hn : Text.hexNumber? [a, b, c, d] = some n) (done : Points) :
    escape done s = .ok (Point.ofCode n :: done, s.advance.skip 4) := by
  obtain ⟨hdigits, hlt⟩ := isHexDigit_of_hexNumber? hn
  have hu : escapeChar? 'u' = none := rfl
  have hlength : codeLength? 'u' = some 4 := rfl
  have htake : s.advance.rest.take 4 = [a, b, c, d] := by
    rw [(h.advance rfl).rest_eq]
    rfl
  unfold escape
  simp only [h.peek_eq, hu, hlength, htake, hdigits, hn, Option.getD_some, ofCode_eq_ok hlt]
  rfl

section Word

variable {c : Char} {cs : List Char} {fuel : Nat}

theorem word_blank (h : s.IsAt (c :: cs) index line) (hc : isBlankOrEnd c = true) :
    word true (fuel + 1) done s = .ok (done, s) := by
  rw [word]
  simp only [h.peek_eq, hc, if_true]

theorem word_quote (h : s.IsAt ('"' :: cs) index line) :
    word true (fuel + 1) done s = .ok (done, s) := by
  have hc : isBlankOrEnd '"' = false := rfl
  rw [word]
  simp only [h.peek_eq, hc, Bool.false_eq_true, if_false, if_true]

theorem word_escape {done' : Points} {s' : Source} (h : s.IsAt ('\\' :: cs) index line)
    (he : escape done s.advance = .ok (done', s')) :
    word true (fuel + 1) done s = word true fuel done' s' := by
  have hc : isBlankOrEnd '\\' = false := rfl
  have hquote : '\\' ≠ '"' := by decide
  rw [word]
  simp only [h.peek_eq, hc, Bool.false_eq_true, if_false, if_true, if_neg hquote, he]

theorem word_plain (h : s.IsAt (c :: cs) index line) (hc : isBlankOrEnd c = false)
    (hquote : c ≠ '"') (hbackslash : c ≠ '\\') :
    word true (fuel + 1) done s = word true fuel (.char c :: done) s.advance := by
  rw [word]
  simp only [h.peek_eq, hc, Bool.false_eq_true, if_false, if_true, if_neg hquote,
    if_neg hbackslash]

/-- A gap in which no line ends is its spaces. -/
theorem gap_spaces {spaces tail : List Char} (h : s.IsAt (spaces ++ tail) index line)
    (hspaces : ∀ c ∈ spaces, c = ' ') (hblank : Text.Stops (fun c => c = ' ' || c = '\t') tail)
    (hbreak : Text.Stops isBreak tail) (hne : tail ≠ []) :
    gap done s = .ok (.ofChars spaces.reverse ++ done, s.skip spaces.length) := by
  have hrun : ∀ c ∈ spaces, (c = ' ' || c = '\t') = true := by
    intro c hc
    simp [hspaces c hc]
  have hlines : ∀ c ∈ spaces, isBreak c = false := by
    intro c hc
    rw [hspaces c hc]
    rfl
  obtain ⟨htake, hafter⟩ := h.takeWhile hrun hlines hblank
  have hskip : (s.takeWhile fun c => c = ' ' || c = '\t').2 = s.skip spaces.length := by
    rw [Source.takeWhile]
    simp only [h.rest_eq, Text.takeWhile_run hrun hblank]
  have hrest : (s.skip spaces.length).rest.isEmpty = false := by
    rw [← hskip, hafter.rest_eq, List.isEmpty_eq_false_iff]
    exact hne
  have hnone := hafter.lineBreak_eq_none hbreak
  rw [hskip] at hnone
  rw [gap, show s.takeWhile (fun c => c = ' ' || c = '\t') = (spaces, s.skip spaces.length) from
    Prod.ext htake hskip]
  simp only [hnone, hrest, Bool.false_eq_true, if_false]

end Word

/-- What is left of a word, and everything behind it up to the closing quote. -/
def fromWord (fuelWord fuel : Nat) (done : Points) (s : Source) : Reading Points :=
  match word true fuelWord done s with
  | .error f => .error f
  | .ok (done, s) =>
    if s.peek = '"' then .ok (done, s.advance)
    else
      match gap done s with
      | .error f => .error f
      | .ok (done, s) => body true fuel done s

theorem body_eq_fromWord (fuel : Nat) (done : Points) (s : Source) :
    body true (fuel + 1) done s = fromWord (s.rest.length + 1) fuel done s := rfl

theorem fromWord_of_word {fuelWord fuel : Nat} {done' : Points} {s' : Source}
    (h : word true (fuelWord + 1) done s = word true fuelWord done' s') :
    fromWord (fuelWord + 1) fuel done s = fromWord fuelWord fuel done' s' := by
  rw [fromWord, h]
  rfl

/-- A word that ends in spaces goes on behind them. -/
theorem fromWord_spaces {spaces tail : List Char} {fuelWord fuel : Nat}
    (h : s.IsAt (' ' :: spaces ++ tail) index line) (hspaces : ∀ c ∈ spaces, c = ' ')
    (hblank : Text.Stops (fun c => c = ' ' || c = '\t') tail) (hbreak : Text.Stops isBreak tail)
    (hne : tail ≠ []) :
    fromWord (fuelWord + 1) fuel done s
      = body true fuel (.ofChars spaces.reverse ++ .char ' ' :: done)
        (s.advance.skip spaces.length) := by
  have hquote : ' ' ≠ '"' := by decide
  have hall : ∀ c ∈ ' ' :: spaces, c = ' ' := by
    intro c hc
    rcases List.mem_cons.1 hc with rfl | hc
    · rfl
    · exact hspaces c hc
  rw [fromWord, word_blank h rfl]
  simp only [h.peek_eq, if_neg hquote, gap_spaces h hall hblank hbreak hne, List.reverse_cons,
    Points.ofChars_append, List.append_assoc, List.length_cons]
  rfl

/-- Wherever the characters of a string stand before the closing quote they are read as its codes.
-/
def IsReadAs (chars : List Char) (codes : List Nat) : Prop :=
  ∀ ⦃s : Source⦄ ⦃rest : List Char⦄ ⦃index line : Nat⦄ (done : Points) (fuelWord fuel : Nat),
    chars.length < fuelWord → chars.length ≤ fuel → s.IsAt (chars ++ '"' :: rest) index line →
      ∃ s', fromWord fuelWord fuel done s = .ok ((codes.map Point.ofCode).reverse ++ done, s')
        ∧ s'.IsAt rest (index + chars.length + 1) line

section Characters

variable {chars : List Char} {codes : List Nat} {n : Nat}

theorem isReadAs_nil : IsReadAs [] [] := by
  intro s rest index line done fuelWord fuel hword _ hs
  obtain ⟨k, rfl⟩ : ∃ k, fuelWord = k + 1 := ⟨fuelWord - 1, by simp at hword; omega⟩
  rw [List.nil_append] at hs
  refine ⟨s.advance, ?_, hs.advance rfl⟩
  rw [fromWord, word_quote hs]
  simp only [hs.peek_eq, if_true]
  rfl

/-- Characters that stay in the word and stand for one code. -/
theorem IsReadAs.of_word (h : IsReadAs chars codes) (front : List Char) (hne : front ≠ [])
    (hfront : ∀ ⦃s : Source⦄ ⦃rest : List Char⦄ ⦃index line : Nat⦄ (done : Points) (fuel : Nat),
      s.IsAt (front ++ rest) index line →
        ∃ s', word true (fuel + 1) done s = word true fuel (Point.ofCode n :: done) s'
          ∧ s'.IsAt rest (index + front.length) line) :
    IsReadAs (front ++ chars) (n :: codes) := by
  intro s rest index line done fuelWord fuel hword hfuel hs
  have hpos := List.length_pos_iff.2 hne
  rw [List.length_append] at hword hfuel
  obtain ⟨k, rfl⟩ : ∃ k, fuelWord = k + 1 := ⟨fuelWord - 1, by omega⟩
  rw [List.append_assoc] at hs
  obtain ⟨s₁, heq, hs₁⟩ := hfront done k hs
  obtain ⟨s₂, hread, hs₂⟩ := h (Point.ofCode n :: done) k fuel (by omega) (by omega) hs₁
  refine ⟨s₂, ?_, ?_⟩
  · rw [fromWord_of_word heq, hread]
    simp
  · rwa [List.length_append, ← Nat.add_assoc]

theorem isReadAs_code {a b c d : Char} (h : IsReadAs chars codes)
    (hn : Text.hexNumber? [a, b, c, d] = some n)
    (hline : ∀ x ∈ [a, b, c, d], isBreak x = false) :
    IsReadAs ('\\' :: 'u' :: a :: b :: c :: d :: chars) (n :: codes) := by
  refine h.of_word ['\\', 'u', a, b, c, d] (by simp) fun s rest index line done fuel hs => ?_
  have hcode : s.advance.IsAt (['u', a, b, c, d] ++ rest) (index + 1) line := hs.advance rfl
  have hafter := hcode.skip (List.forall_mem_cons.2 ⟨rfl, hline⟩)
  exact ⟨_, word_escape hs (escape_code hcode hn done), hafter⟩

theorem isReadAs_escape {c : Char} (h : IsReadAs chars codes) (hn : escapeCode? c = some n)
    (hline : isBreak c = false) : IsReadAs ('\\' :: c :: chars) (n :: codes) := by
  refine h.of_word ['\\', c] (by simp) fun s rest index line done fuel hs => ?_
  obtain ⟨e, he, hcode⟩ := escapeChar?_of_escapeCode? hn
  have hescape := escape_letter (hs.advance rfl) he done
  rw [hcode] at hescape
  exact ⟨_, word_escape hs hescape, (hs.advance rfl).advance hline⟩

theorem isReadAs_plain {c : Char} (h : IsReadAs chars codes) (hblank : isBlankOrEnd c = false)
    (hquote : c ≠ '"') (hbackslash : c ≠ '\\') (hline : isBreak c = false) :
    IsReadAs (c :: chars) (c.toNat :: codes) := by
  refine h.of_word [c] (by simp) fun s rest index line done fuel hs => ?_
  rw [Point.ofCode_toNat]
  exact ⟨_, word_plain hs hblank hquote hbackslash, hs.advance hline⟩

/-- A space ends the word, and the gap takes all spaces behind it. -/
theorem isReadAs_space (h : IsReadAs chars codes)
    (hline : ∀ c ∈ chars, isBreak c = false ∧ c ≠ '\t') :
    IsReadAs (' ' :: chars) (' '.toNat :: codes) := by
  intro s rest index line done fuelWord fuel hword hfuel hs
  obtain ⟨k, rfl⟩ : ∃ k, fuelWord = k + 1 := ⟨fuelWord - 1, by omega⟩
  have hafter : s.advance.IsAt (chars ++ '"' :: rest) (index + 1) line := hs.advance rfl
  have hread := fun fuelWord fuel hword hfuel =>
    h (.char ' ' :: done) fuelWord fuel hword hfuel hafter
  have hindex : index + 1 + chars.length + 1 = index + (chars.length + 1) + 1 := by omega
  rw [hindex] at hread
  simp only [List.length_cons] at hword hfuel
  rw [List.map_cons, List.reverse_cons, Point.ofCode_toNat, List.append_assoc, List.singleton_append]
  obtain ⟨spaces, tail, rfl, hspaces, hstops⟩ :=
    Text.exists_run (fun c => c = ' ' || c = '\t') chars
  have hall : ∀ c ∈ spaces, c = ' ' := by
    intro c hc
    have htab := (hline c (List.mem_append_left tail hc)).2
    simpa [htab] using hspaces c hc
  have hblank : Text.Stops (fun c => c = ' ' || c = '\t') (tail ++ '"' :: rest) :=
    hstops.append_cons rfl rest
  have hbreak : Text.Stops isBreak (tail ++ '"' :: rest) :=
    Text.Stops.append_cons
      (fun c hc => (hline c (List.mem_append_right spaces (List.mem_of_mem_head? hc))).1) rfl rest
  have hspaced : s.IsAt (' ' :: spaces ++ (tail ++ '"' :: rest)) index line := by
    simpa using hs
  rw [fromWord_spaces hspaced hall hblank hbreak (by simp)]
  cases spaces with
  | nil =>
    obtain ⟨m, rfl⟩ : ∃ m, fuel = m + 1 := ⟨fuel - 1, by omega⟩
    have hlength : s.advance.rest.length = tail.length + (rest.length + 1) := by
      rw [hafter.rest_eq]
      simp
    rw [body_eq_fromWord]
    refine hread _ m ?_ (by omega)
    show tail.length < s.advance.rest.length + 1
    omega
  | cons d spaces =>
    -- The second space would end the empty word behind the first one in the same way.
    obtain rfl := hall d List.mem_cons_self
    obtain ⟨s', heq, hs'⟩ := hread _ fuel (Nat.lt_succ_self _) (by omega)
    refine ⟨s', ?_, hs'⟩
    rw [← heq, fromWord_spaces (by simpa using hafter)
      (fun c hc => hall c (List.mem_cons_of_mem _ hc)) hblank hbreak (by simp)]
    simp [Source.skip, Points.ofChars]

/-- The characters of a JSON string are read up to the closing quote. -/
theorem isReadAs_of_isBody (hbody : IsBody chars codes)
    (hline : ∀ c ∈ chars, isBreak c = false ∧ c ≠ '\t') : IsReadAs chars codes := by
  induction hbody with
  | nil => exact isReadAs_nil
  | code hn _ ih =>
    have hrest := ih fun x hx => hline x (by simp [hx])
    exact isReadAs_code hrest hn fun x hx =>
      (hline x (List.mem_cons_of_mem _ (List.mem_cons_of_mem _ (List.mem_append_left _ hx)))).1
  | escape hn _ ih =>
    have hrest := ih fun x hx => hline x (by simp [hx])
    exact isReadAs_escape hrest hn (hline _ (by simp)).1
  | @plain c chars codes hquote hbackslash hcontrol _ ih =>
    obtain ⟨hc, hchars⟩ := List.forall_mem_cons.1 hline
    by_cases hspace : c = ' '
    · subst hspace
      exact isReadAs_space (ih hchars) hchars
    · have hend : c ≠ endMark := by
        rintro rfl
        exact hcontrol (by decide)
      have hblank : isBlankOrEnd c = false := by
        simp [isBlankOrEnd, isSpaceBreakOrEnd, isBreakOrEnd, hc.1, hc.2, hspace, hend]
      exact isReadAs_plain (ih hchars) hblank hquote hbackslash hc.1

end Characters

/-- A JSON string in which no line ends is read as its codes, one code point each. -/
theorem scan_of_isBody {chars : List Char} {codes : List Nat} (hbody : IsBody chars codes)
    (hline : ∀ c ∈ chars, isBreak c = false ∧ c ≠ '\t')
    (hs : s.IsAt ('"' :: (chars ++ '"' :: rest)) index line) :
    ∃ s', scan true s = .ok (.scalar (codes.map Point.ofCode) false, s')
      ∧ s'.IsAt rest (index + chars.length + 2) line := by
  have hafter := hs.advance rfl
  have hlength : s.rest.length = chars.length + rest.length + 2 := by
    rw [hs.rest_eq]
    simp
    omega
  have hlength' : s.advance.rest.length = chars.length + rest.length + 1 := by
    rw [hafter.rest_eq]
    simp
    omega
  obtain ⟨s', heq, hs'⟩ := isReadAs_of_isBody hbody hline [] (s.advance.rest.length + 1)
    s.rest.length (by omega) (by omega) hafter
  refine ⟨s', ?_, ?_⟩
  · rw [scan, body_eq_fromWord, heq]
    simp [Except.map]
  · have hindex : index + 1 + chars.length + 1 = index + chars.length + 2 := by omega
    rwa [hindex] at hs'

end PercentTemplate.Yaml.Quoted
