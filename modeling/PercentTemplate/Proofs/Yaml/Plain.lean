import PercentTemplate.Proofs.Yaml.Source
import PercentTemplate.Yaml.Token.Plain

/-!
# Numbers and names as plain scalars

Between brackets a plain scalar of letters, digits, points and signs is read up to the blanks behind
it, which go with it, if a bracket, a comma or the end of the text follows
(`Yaml.Plain.exists_scan`).
-/

namespace PercentTemplate.Yaml

namespace Plain

/-- Whether `c` may be in a number or a name. -/
def isScalarChar (c : Char) : Bool := c.isAlphanum || c = '.' || c = '+' || c = '-'

/-- Whether a text is at its end or begins with a bracket or a comma. -/
def IsDelimited (rest : List Char) : Prop := ∀ c ∈ rest.head?, isFlowMark c = true

variable {c : Char} {cs word blanks rest : List Char}

theorem isBlankOrEnd_of_isScalarChar (h : isScalarChar c = true) : isBlankOrEnd c = false := by
  rw [Bool.eq_false_iff]
  intro hc
  simp only [isBlankOrEnd, isSpaceBreakOrEnd, isBreakOrEnd, isBreak, Bool.or_eq_true,
    decide_eq_true_eq] at hc
  rcases hc with rfl | rfl | rfl | (((rfl | rfl) | rfl) | rfl) | rfl <;> exact absurd h (by decide)

theorem isFlowMark_of_isScalarChar (h : isScalarChar c = true) : isFlowMark c = false := by
  rw [Bool.eq_false_iff]
  intro hc
  simp only [isFlowMark, Bool.or_eq_true, decide_eq_true_eq] at hc
  rcases hc with (((rfl | rfl) | rfl) | rfl) | rfl <;> exact absurd h (by decide)

theorem ne_of_isScalarChar {d : Char} (h : isScalarChar c = true) (hd : isScalarChar d = false) :
    c ≠ d := by
  rintro rfl
  rw [h] at hd
  cases hd

theorem isInterrupted_of_isScalarChar (h : isScalarChar c = true) (cs : List Char) :
    isInterrupted true (c :: cs) = false := by
  have hcolon : c ≠ ':' := ne_of_isScalarChar h (by decide)
  have hquestion : c ≠ '?' := ne_of_isScalarChar h (by decide)
  simp [isInterrupted, isBlankOrEnd_of_isScalarChar h, isFlowMark_of_isScalarChar h, hcolon,
    hquestion]

theorem wordLength_append {tail : List Char} (hword : ∀ c ∈ word, isScalarChar c = true)
    (htail : wordLength true tail = 0) : wordLength true (word ++ tail) = word.length := by
  induction word with
  | nil => exact htail
  | cons c word ih =>
    have hc := isInterrupted_of_isScalarChar (hword c List.mem_cons_self) (word ++ tail)
    rw [List.cons_append, wordLength, hc, ih fun d hd => hword d (List.mem_cons_of_mem c hd)]
    rfl

theorem IsDelimited.wordLength_eq (h : IsDelimited rest) :
    wordLength true rest = 0 := by
  cases rest with
  | nil => rfl
  | cons c rest =>
    have hc : isFlowMark c = true := h c rfl
    rw [wordLength, if_pos]
    simp [isInterrupted, hc]

theorem wordLength_blank (hc : isBlank c = true) (cs : List Char) :
    wordLength true (c :: cs) = 0 := by
  rw [wordLength, if_pos]
  simp only [isBlank, Bool.or_eq_true, decide_eq_true_eq] at hc
  rcases hc with rfl | rfl <;> rfl

theorem IsDelimited.stops {p : Char → Bool} (h : IsDelimited rest)
    (hp : ∀ c, isFlowMark c = true → p c = false) : Text.Stops p rest :=
  fun c hc => hp c (h c hc)

theorem isFlowMark_cases (hc : isFlowMark c = true) :
    c = ',' ∨ c = '[' ∨ c = ']' ∨ c = '\x7b' ∨ c = '\x7d' := by
  simpa only [isFlowMark, Bool.or_eq_true, decide_eq_true_eq, or_assoc] using hc

variable {s : Source} {index line : Nat}

/-- No marker of a document stands in front of blanks or a delimiter. -/
theorem startsDocumentMarker_eq_false (hs : s.IsAt (blanks ++ rest) index line)
    (hblanks : ∀ c ∈ blanks, isBlank c = true) (hrest : IsDelimited rest) :
    s.startsDocumentMarker = false := by
  have hhead : ∀ c ∈ (blanks ++ rest).head?, c ≠ '-' ∧ c ≠ '.' := by
    intro c hc
    cases blanks with
    | nil =>
      rcases isFlowMark_cases (hrest c hc) with rfl | rfl | rfl | rfl | rfl <;> decide
    | cons d blanks =>
      obtain rfl : d = c := Option.some.inj hc
      have hd := hblanks d List.mem_cons_self
      simp only [isBlank, Bool.or_eq_true, decide_eq_true_eq] at hd
      rcases hd with rfl | rfl <;> decide
  rw [Source.startsDocumentMarker, Source.startsMarker, Source.startsMarker, hs.rest_eq]
  cases hfront : blanks ++ rest with
  | nil => rfl
  | cons c cs =>
    rw [hfront] at hhead
    obtain ⟨hminus, hpoint⟩ := hhead c rfl
    simp [List.isPrefixOf, hminus.symm, hpoint.symm]

theorem IsDelimited.stops_space (h : IsDelimited rest) : Text.Stops (· = ' ') rest := by
  refine h.stops fun c hc => ?_
  rcases isFlowMark_cases hc with rfl | rfl | rfl | rfl | rfl <;> rfl

theorem IsDelimited.stops_break (h : IsDelimited rest) : Text.Stops isBreak rest := by
  refine h.stops fun c hc => ?_
  rcases isFlowMark_cases hc with rfl | rfl | rfl | rfl | rfl <;> rfl

theorem exists_emptyLines {fuel : Nat} (hs : s.IsAt (blanks ++ rest) index line)
    (hblanks : ∀ c ∈ blanks, isBlank c = true) (hrest : IsDelimited rest)
    (hfuel : blanks.length < fuel) (done : List Char) :
    ∃ lines s' index' line', emptyLines fuel done s = (some lines, s')
      ∧ s'.IsAt rest index' line' := by
  induction fuel generalizing s blanks index line done with
  | zero => omega
  | succ fuel ih =>
    obtain ⟨spaces, s', htake, h | h⟩ :=
      hs.exists_line hblanks hrest.stops_space hrest.stops_break
    · obtain ⟨-, hs', hnone⟩ := h
      refine ⟨done, s', _, _, ?_, hs'⟩
      rw [emptyLines, Source.dropWhile, htake]
      simp only [hnone]
    · obtain ⟨lines, s'', index', line', hsome, hs'', hlines, hlt, -⟩ := h
      have hmarker := startsDocumentMarker_eq_false hs'' hlines hrest
      obtain ⟨all, s₃, index₃, line₃, heq, hs₃⟩ := ih hs'' hlines (by omega) ('\n' :: done)
      refine ⟨all, s₃, index₃, line₃, ?_, hs₃⟩
      rw [emptyLines, Source.dropWhile, htake]
      simp only [hsome, hmarker, Bool.false_eq_true, if_false, heq]

/-- The blanks behind a scalar go with it. -/
theorem exists_isAt_gap (hs : s.IsAt (blanks ++ rest) index line)
    (hblanks : ∀ c ∈ blanks, isBlank c = true) (hrest : IsDelimited rest) :
    ∃ index' line', (gap s).2.2.IsAt rest index' line' := by
  obtain ⟨spaces, s', htake, h | h⟩ :=
    hs.exists_line hblanks hrest.stops_space hrest.stops_break
  · obtain ⟨-, hs', hnone⟩ := h
    refine ⟨index + blanks.length, line, ?_⟩
    rw [gap, htake]
    simpa only [hnone] using hs'
  · obtain ⟨lines, s'', index', line', hsome, hs'', hlines, -⟩ := h
    have hmarker := startsDocumentMarker_eq_false hs'' hlines hrest
    have hlength : lines.length < s''.rest.length + 1 := by
      rw [hs''.rest_eq, List.length_append]
      omega
    obtain ⟨all, s₃, index₃, line₃, heq, hs₃⟩ :=
      exists_emptyLines hs'' hlines hrest hlength []
    refine ⟨index₃, line₃, ?_⟩
    rw [gap, htake]
    simpa only [hsome, hmarker, Bool.false_eq_true, if_false, heq] using hs₃

theorem IsDelimited.peek_ne (hrest : IsDelimited rest) (hs : s.IsAt rest index line) :
    s.peek ≠ '#' := by
  cases rest with
  | nil =>
    rw [hs.peek_eq_endMark]
    decide
  | cons c rest =>
    rw [hs.peek_eq]
    rintro rfl
    exact absurd (hrest '#' rfl) (by decide)

/-- At a delimiter there is nothing more of a scalar. -/
theorem body_of_isDelimited (hrest : IsDelimited rest) (hs : s.IsAt rest index line) (indent : Int)
    (fuel : Nat) (done space : List Char) (newLine : Bool) :
    body true indent fuel done space newLine s = (done, newLine, s) := by
  cases fuel with
  | zero => rfl
  | succ fuel =>
    rw [body, if_neg (hrest.peek_ne hs), hs.rest_eq, hrest.wordLength_eq]
    rfl

/-- A number or a name and the blanks behind it are read up to the delimiter. -/
theorem exists_scan (hword : ∀ c ∈ word, isScalarChar c = true) (hne : word ≠ [])
    (hblanks : ∀ c ∈ blanks, isBlank c = true) (hrest : IsDelimited rest)
    (hs : s.IsAt (word ++ (blanks ++ rest)) index line) :
    ∃ newLine s' index' line', scan true (-1) s = (.scalar (.ofChars word) true, newLine, s')
      ∧ s'.IsAt rest index' line' := by
  have htail : wordLength true (blanks ++ rest) = 0 := by
    cases blanks with
    | nil => exact hrest.wordLength_eq
    | cons c blanks => exact wordLength_blank (hblanks c List.mem_cons_self) _
  have hno : ∀ c ∈ word, isBreak c = false := by
    intro c hc
    have hblank := isBlankOrEnd_of_isScalarChar (hword c hc)
    simp only [isBlankOrEnd, isSpaceBreakOrEnd, isBreakOrEnd, Bool.or_eq_false_iff] at hblank
    exact hblank.2.2.2
  have hpeek : s.peek ≠ '#' := by
    obtain ⟨c, cs, rfl⟩ := List.exists_cons_of_ne_nil hne
    rw [hs.peek_eq]
    exact ne_of_isScalarChar (hword c List.mem_cons_self) (by decide)
  obtain ⟨index', line', hs'⟩ := exists_isAt_gap (hs.skip hno) hblanks hrest
  obtain ⟨space, newLine, s', hgap⟩ : ∃ space newLine s', gap (s.skip word.length)
      = (space, newLine, s') := ⟨_, _, _, rfl⟩
  rw [hgap] at hs'
  have hbody : body true (-1 + 1) (s.rest.length + 1) [] [] false s
      = (word.reverse, newLine, s') := by
    rw [body, if_neg hpeek, hs.rest_eq, wordLength_append hword htail, List.take_left, hgap]
    simp only [List.length_eq_zero_iff, hne, if_false, List.append_nil, Bool.not_true,
      Bool.false_and, Bool.or_false]
    split
    · rfl
    · exact body_of_isDelimited hrest hs' _ _ _ _ _
  refine ⟨newLine, s', index', line', ?_, hs'⟩
  rw [scan, hbody]
  simp only [List.reverse_reverse]

end Plain

end PercentTemplate.Yaml
