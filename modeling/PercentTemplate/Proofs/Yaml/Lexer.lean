import PercentTemplate.Proofs.Keyed
import PercentTemplate.Proofs.Yaml.Quoted
import PercentTemplate.Proofs.Yaml.Scalar
import PercentTemplate.Yaml.Token.Lexer

/-!
# Lexing between brackets

Between brackets and outside of all indented structures a lexer has a simple state
(`Yaml.Lexer.IsAt`): what it has read, what is left, and how many brackets are open. No word has to
be a key there. Here is what each of the words that JSON knows does to this state.
-/

namespace PercentTemplate.Yaml

open Plain (isScalarChar)

/-- Whether a word of JSON may begin with `c`. -/
def isWordStart (c : Char) : Bool := Json.Token.isMark c || c = '"' || isScalarChar c

/-- Whether a text is at its end or at the beginning of a word of JSON. -/
def Begins (rest : List Char) : Prop := ∀ c ∈ rest.head?, isWordStart c = true

theorem ne_of_isWordStart {c d : Char} (hc : isWordStart c = true) (hd : isWordStart d = false) :
    c ≠ d := by
  rintro rfl
  rw [hc] at hd
  cases hd

theorem isBreak_of_isWordStart {c : Char} (hc : isWordStart c = true) : isBreak c = false := by
  have hlineFeed := ne_of_isWordStart hc (d := '\n') (by decide)
  have hreturn := ne_of_isWordStart hc (d := '\r') (by decide)
  have hnext := ne_of_isWordStart hc (d := '\u0085') (by decide)
  have hline := ne_of_isWordStart hc (d := '\u2028') (by decide)
  have hparagraph := ne_of_isWordStart hc (d := '\u2029') (by decide)
  simp [isBreak, hlineFeed, hreturn, hnext, hline, hparagraph]

namespace Begins

variable {rest : List Char} (h : Begins rest)

include h

theorem stops_space : Text.Stops (· = ' ') rest := by
  intro c hc
  simpa using ne_of_isWordStart (h c hc) (by decide)

theorem stops_break : Text.Stops isBreak rest := fun c hc => isBreak_of_isWordStart (h c hc)

end Begins

namespace Source

variable {s s' : Source} {rest : List Char} {index line : Nat}

/-- At the beginning of a word or at the end stands no other character. -/
theorem IsAt.peek_ne (h : s.IsAt rest index line) (hrest : Begins rest) {d : Char}
    (hd : isWordStart d = false) (hend : d ≠ endMark) : s.peek ≠ d := by
  cases rest with
  | nil =>
    rw [h.peek_eq_endMark]
    exact hend.symm
  | cons c rest =>
    rw [h.peek_eq]
    exact ne_of_isWordStart (hrest c rfl) hd

theorem isBreak_peek_of_lineBreak {b : Char} (h : s.lineBreak = (some b, s')) :
    isBreak s.peek = true := by
  unfold lineBreak at h
  split at h
  · rename_i heq
    rw [peek, heq]
    rfl
  · rename_i c cs heq
    rw [peek, heq]
    split at h
    · rename_i hseparator
      rw [Bool.or_eq_true, decide_eq_true_eq, decide_eq_true_eq] at hseparator
      rcases hseparator with rfl | rfl <;> rfl
    · split at h
      · assumption
      · cases h
  · cases h

end Source

namespace Lexer

/-- A lexer that has read `done` and has the characters `cs` before it, inside `depth` brackets and
outside of all indented structures, where no word has to be a key. -/
structure IsAt (l : Lexer) (cs : List Char) (index line depth : Nat) (done : List Token) :
    Prop where
  source : l.source.IsAt cs index line
  tokens_eq : l.tokens.toList = done
  depth_eq : l.depth = depth
  indent_eq : l.indent = -1
  outer_eq : l.outer = []
  free : ∀ k ∈ l.keys, k.2.isRequired = false

variable {l : Lexer} {blanks cs rest : List Char} {index line depth : Nat} {done : List Token}

theorem isAt_start (cs : List Char) : (start cs).IsAt cs 0 0 0 [] where
  source := Source.isAt_ofChars cs
  tokens_eq := rfl
  depth_eq := rfl
  indent_eq := rfl
  outer_eq := rfl
  free := List.forall_mem_nil _

theorem IsAt.length_le (h : l.IsAt cs index line depth done) :
    l.source.rest.length ≤ cs.length :=
  Nat.le_of_eq (congrArg List.length h.source.rest_eq)

/-- Blanks before a word change nothing else than the place, and a key may still begin. -/
theorem exists_skipBlank {fuel : Nat} (h : l.source.IsAt (blanks ++ rest) index line)
    (hblanks : ∀ c ∈ blanks, isBlank c = true) (hrest : Begins rest)
    (hfuel : blanks.length < fuel) :
    ∃ s allowed, skipBlank fuel l = { l with source := s, keyAllowed := allowed }
      ∧ s.IsAt rest (index + blanks.length) (line + blanks.count '\n')
      ∧ (l.keyAllowed = true → allowed = true) := by
  induction fuel generalizing l blanks index line with
  | zero => omega
  | succ fuel ih =>
    obtain ⟨spaces, s, htake, hline⟩ :=
      h.exists_line hblanks hrest.stops_space hrest.stops_break
    -- Behind the spaces stands a word, the end of the line or nothing, but no comment.
    have hcomment : s.peek ≠ '#' := by
      rcases hline with ⟨-, hs, -⟩ | ⟨lines, s', index', line', hbreak, -⟩
      · exact hs.peek_ne hrest (by decide) (by decide)
      · intro hpeek
        have := Source.isBreak_peek_of_lineBreak hbreak
        rw [hpeek] at this
        cases this
    rw [skipBlank, Source.dropWhile, htake]
    simp only [if_neg hcomment]
    rcases hline with ⟨hcount, hs, hnone⟩ |
      ⟨lines, s', index', line', hsome, hs', hlines, hlt, hindex, hline⟩
    · refine ⟨s, l.keyAllowed, ?_, ?_, id⟩
      · rw [hnone]
      · rwa [hcount]
    · let l' : Lexer := { l with source := s', keyAllowed := l.keyAllowed || !l.inFlow }
      obtain ⟨s'', allowed, heq, hs'', hallowed⟩ := ih (l := l') hs' hlines (by omega)
      refine ⟨s'', allowed, ?_, ?_, fun hkey => hallowed (by simp [l', hkey])⟩
      · rw [hsome]
        exact heq
      · rwa [hindex, hline] at hs''

theorem exists_toNextWord (h : l.IsAt (blanks ++ rest) index line depth done)
    (hblanks : ∀ c ∈ blanks, isBlank c = true) (hrest : Begins rest) :
    ∃ s allowed, l.toNextWord = { l with source := s, keyAllowed := allowed }
      ∧ s.IsAt rest (index + blanks.length) (line + blanks.count '\n')
      ∧ (l.keyAllowed = true → allowed = true) := by
  have hmark : l.source.peek ≠ '\ufeff' := by
    cases blanks with
    | nil => exact h.source.peek_ne hrest (by decide) (by decide)
    | cons c blanks =>
      rw [h.source.peek_eq]
      rintro rfl
      exact absurd (hblanks _ List.mem_cons_self) (by decide)
  rw [toNextWord]
  simp only [hmark, decide_false, Bool.and_false, Bool.false_eq_true, if_false]
  refine exists_skipBlank h.source hblanks hrest ?_
  rw [h.source.rest_eq, List.length_append]
  omega

/-- The words that can still be keys at a place: those on its line and not too far back. -/
def freshKeys (index line : Nat) (keys : List (Nat × PossibleKey)) : List (Nat × PossibleKey) :=
  keys.filter fun k => !(k.2.line != line || k.2.index + 1024 < index)

theorem forgetStale_eq (h : l.IsAt rest index line depth done) :
    l.forgetStale = .ok { l with keys := freshKeys index line l.keys } := by
  have hnone : (l.keys.any fun k => l.isStale k.2 && k.2.isRequired) = false := by
    rw [List.any_eq_false]
    intro k hk
    simp [h.free k hk]
  have hfresh : l.keys.filter (fun k => !l.isStale k.2) = freshKeys index line l.keys := by
    simp only [isStale, h.source.index_eq, h.source.line_eq]
    rfl
  rw [forgetStale, hnone, hfresh]
  rfl

theorem closeBlocks_eq (h : l.IsAt rest index line depth done) {column : Int}
    (hcolumn : ¬column < -1) : l.closeBlocks column = l := by
  unfold closeBlocks
  split
  · rfl
  · obtain ⟨-, -, -, hindent, houter, -⟩ := h
    obtain ⟨source, tokens, depth, indent, outer, keyAllowed, keys⟩ := l
    obtain rfl : indent = -1 := hindent
    obtain rfl : outer = [] := houter
    simp [hcolumn]

/-- Going to the next word and reading it. -/
theorem exists_step (h : l.IsAt (blanks ++ rest) index line depth done)
    (hblanks : ∀ c ∈ blanks, isBlank c = true) (hrest : Begins rest) :
    ∃ l' : Lexer, l'.IsAt rest (index + blanks.length) (line + blanks.count '\n') depth done
      ∧ (l.keyAllowed = true → l'.keyAllowed = true)
      ∧ l'.keys = freshKeys (index + blanks.length) (line + blanks.count '\n') l.keys
      ∧ l.step = if rest.isEmpty then l'.finish.map fun l => (l, false)
          else l'.word.map fun l => (l, true) := by
  obtain ⟨s, allowed, hnext, hs, hallowed⟩ := exists_toNextWord h hblanks hrest
  generalize index + blanks.length = index at hs ⊢
  generalize line + blanks.count '\n' = line at hs ⊢
  have hat : IsAt { l with source := s, keyAllowed := allowed } rest index line depth done :=
    { h with source := hs }
  have hat' : IsAt
      { l with source := s, keyAllowed := allowed, keys := freshKeys index line l.keys }
      rest index line depth done :=
    { hat with free := fun k hk => h.free k (List.mem_filter.1 hk).1 }
  refine ⟨_, hat', hallowed, rfl, ?_⟩
  -- Outside of indented structures no column closes one.
  have hcolumn : ¬(s.column : Int) < -1 := by omega
  have hclose := closeBlocks_eq hat' hcolumn
  rw [step, hnext, forgetStale_eq hat]
  simp only [hclose, hs.rest_eq]

section Keys

/-- No word has to be a key, so the one at this depth can be forgotten. -/
theorem exists_forgetKey (h : l.IsAt rest index line depth done) :
    ∃ keys, l.forgetKey = .ok { l with keys := keys }
      ∧ ∀ k ∈ keys, k.2.isRequired = false := by
  rw [forgetKey]
  cases hkey : Keyed.get? l.depth l.keys with
  | none => exact ⟨l.keys, rfl, h.free⟩
  | some k =>
    have hrequired : k.isRequired = false := h.free _ (Keyed.mem_of_get? hkey)
    simp only [hrequired, Bool.false_eq_true, if_false]
    exact ⟨_, rfl, fun k hk => h.free k (List.mem_filter.1 hk).1⟩

/-- A word that may be a key is remembered with its place. -/
theorem exists_rememberKey (h : l.IsAt rest index line depth done) :
    ∃ keys, l.rememberKey = .ok { l with keys := keys }
      ∧ (∀ k ∈ keys, k.2.isRequired = false)
      ∧ (l.keyAllowed = true → Keyed.get? depth keys
          = some ⟨done.length, false, index, line, l.source.column⟩) := by
  rw [rememberKey]
  by_cases hallowed : l.keyAllowed = true
  · obtain ⟨keys, hforget, hfree⟩ := exists_forgetKey h
    have hindent : (l.indent == (l.source.column : Int)) = false := by
      rw [h.indent_eq, beq_eq_false_iff_ne]
      omega
    let key : PossibleKey := ⟨done.length, false, index, line, l.source.column⟩
    refine ⟨(depth, key) :: keys, ?_, List.forall_mem_cons.2 ⟨rfl, hfree⟩, fun _ => ?_⟩
    · simp only [hallowed, hforget, hindent, Bool.and_false, Bool.not_true, Bool.false_eq_true,
        if_false, h.depth_eq, h.source.index_eq, h.source.line_eq, ← Array.length_toList,
        h.tokens_eq]
      rfl
    · rw [Keyed.get?, if_pos (beq_self_eq_true depth)]
  · refine ⟨l.keys, ?_, h.free, fun h => absurd h hallowed⟩
    rw [if_pos (by simp [hallowed])]

end Keys

section Word

variable {c : Char} {t : Token}

theorem startsMarker_eq_false {s : Source} {d : Char} (h : s.IsAt (c :: rest) index line)
    (hc : c ≠ d) (marker : List Char) : s.startsMarker (d :: marker) = false := by
  rw [Source.startsMarker, h.rest_eq, List.isPrefixOf, beq_false_of_ne hc.symm]
  rfl

/-- A word has been read: a token more, another place, other possible keys. -/
theorem IsAt.push (h : l.IsAt cs index line depth done) {s : Source} {depth' d index' line' : Nat}
    {keys : List (Nat × PossibleKey)} (hs : s.IsAt rest index' line') (hd : d = depth')
    (hfree : ∀ k ∈ keys, k.2.isRequired = false) (t : Token) (allowed : Bool) :
    IsAt ⟨s, l.tokens.push t, d, l.indent, l.outer, allowed, keys⟩ rest index' line' depth'
      (done ++ [t]) where
  source := hs
  tokens_eq := by rw [Array.toList_push, h.tokens_eq]
  depth_eq := hd
  indent_eq := h.indent_eq
  outer_eq := h.outer_eq
  free := hfree

/-- A bracket that opens. -/
theorem exists_openFlow (h : l.IsAt (c :: rest) index line depth done) (hc : isBreak c = false)
    (t : Token) :
    ∃ l', l.openFlow t = .ok l' ∧ l'.IsAt rest (index + 1) line (depth + 1) (done ++ [t])
      ∧ l'.keyAllowed = true := by
  obtain ⟨keys, hremember, hfree, -⟩ := exists_rememberKey h
  rw [openFlow, hremember]
  exact ⟨_, rfl, h.push (h.source.advance hc) (congrArg (· + 1) h.depth_eq) hfree t true, rfl⟩

/-- A bracket that closes. -/
theorem exists_closeFlow (h : l.IsAt (c :: rest) index line (depth + 1) done)
    (hc : isBreak c = false) (t : Token) :
    ∃ l', l.closeFlow t = .ok l' ∧ l'.IsAt rest (index + 1) line depth (done ++ [t]) := by
  obtain ⟨keys, hforget, hfree⟩ := exists_forgetKey h
  rw [closeFlow, hforget]
  exact ⟨_, rfl, h.push (h.source.advance hc) (congrArg (· - 1) h.depth_eq) hfree t false⟩

/-- The comma between two items. -/
theorem exists_flowEntry (h : l.IsAt (c :: rest) index line depth done) (hc : isBreak c = false) :
    ∃ l', l.flowEntry = .ok l' ∧ l'.IsAt rest (index + 1) line depth (done ++ [.flowEntry])
      ∧ l'.keyAllowed = true := by
  obtain ⟨keys, hforget, hfree⟩ := exists_forgetKey h
  rw [flowEntry, hforget]
  exact ⟨_, rfl, h.push (h.source.advance hc) h.depth_eq hfree .flowEntry true, rfl⟩

/-- A word that may be a key. -/
theorem exists_keyWord (h : l.IsAt cs index line depth done) {read : Source → Reading Token}
    {s : Source} {index' line' : Nat} (hread : read l.source = .ok (t, s))
    (hs : s.IsAt rest index' line') :
    ∃ l', l.keyWord read = .ok l' ∧ l'.IsAt rest index' line' depth (done ++ [t])
      ∧ (l.keyAllowed = true → Keyed.get? depth l'.keys
          = some ⟨done.length, false, index, line, l.source.column⟩) := by
  obtain ⟨keys, hremember, hfree, hkey⟩ := exists_rememberKey h
  rw [keyWord, hremember]
  simp only [hread]
  exact ⟨_, rfl, h.push hs h.depth_eq hfree t false, hkey⟩

/-- A plain scalar between brackets. -/
theorem exists_plainScalar (h : l.IsAt cs index line (depth + 1) done) {newLine : Bool}
    {s : Source} {index' line' : Nat} (hscan : Plain.scan true (-1) l.source = (t, newLine, s))
    (hs : s.IsAt rest index' line') :
    ∃ l', l.plainScalar = .ok l' ∧ l'.IsAt rest index' line' (depth + 1) (done ++ [t]) := by
  obtain ⟨keys, hremember, hfree, -⟩ := exists_rememberKey h
  have hbetween : Plain.scan (inFlow { l with keys := keys }) l.indent l.source
      = (t, newLine, s) := by
    have hflow : inFlow { l with keys := keys } = true := by simp [inFlow, h.depth_eq]
    rw [hflow, h.indent_eq, hscan]
  refine ⟨_, ?_, h.push hs h.depth_eq hfree t newLine⟩
  simp only [plainScalar, hremember, Except.map, hbetween]
  rfl

theorem insertIdx_append {α : Type} (front rest : List α) (x : α) :
    (front ++ rest).insertIdx front.length x = front ++ x :: rest := by
  induction front with
  | nil => rfl
  | cons y front ih => exact congrArg (y :: ·) ih

/-- The colon behind a word that may be a key. -/
theorem exists_value {front : List Token} {key : PossibleKey}
    (h : l.IsAt (c :: rest) index line (depth + 1) (front ++ done)) (hc : isBreak c = false)
    (hkey : Keyed.get? (depth + 1) l.keys = some key) (hposition : key.position = front.length) :
    ∃ l', l.value = .ok l'
      ∧ l'.IsAt rest (index + 1) line (depth + 1) (front ++ .key :: done ++ [.value]) := by
  let keys := l.keys.filter fun k => k.1 != l.depth
  let tokens := l.tokens.insertIdxIfInBounds key.position .key
  have hbehind : IsAt { l with keys := keys, tokens := tokens } (c :: rest) index line (depth + 1)
      (front ++ .key :: done) := by
    refine { h with tokens_eq := ?_, free := fun k hk => h.free k (List.mem_filter.1 hk).1 }
    have hle : key.position ≤ l.tokens.size := by
      rw [hposition, ← Array.length_toList, h.tokens_eq, List.length_append]
      exact Nat.le_add_right _ _
    change (l.tokens.insertIdxIfInBounds key.position .key).toList = _
    rw [Array.insertIdxIfInBounds, dif_pos hle, Array.toList_insertIdx, h.tokens_eq, hposition,
      insertIdx_append]
  have hflow : inFlow { l with keys := keys, tokens := tokens } = true := by
    simp [inFlow, h.depth_eq]
  refine ⟨_, ?_, hbehind.push (h.source.advance hc) h.depth_eq hbehind.free .value false⟩
  rw [← h.depth_eq] at hkey
  rw [value, hkey]
  simp only [← show keys = l.keys.filter fun k => k.1 != l.depth from rfl,
    ← show tokens = l.tokens.insertIdxIfInBounds key.position .key from rfl, if_pos hflow]
  rfl

end Word

section Dispatch

variable {c : Char}

/-- No marker of a document stands where a word does not begin with a minus sign or a point. -/
theorem markers_eq_false (h : l.IsAt (c :: rest) index line depth done) (hminus : c ≠ '-')
    (hpoint : c ≠ '.') : l.source.startsMarker "---".toList = false
      ∧ l.source.startsMarker "...".toList = false :=
  ⟨startsMarker_eq_false h.source hminus _, startsMarker_eq_false h.source hpoint _⟩

/-- How a character is read that begins the same word wherever it stands between brackets. -/
inductive IsReadBy : Char → (Lexer → Except Fault Lexer) → Prop
  | bracket : IsReadBy '[' fun l => l.openFlow .flowSequence
  | brace : IsReadBy '\x7b' fun l => l.openFlow .flowMapping
  | bracketEnd : IsReadBy ']' fun l => l.closeFlow .flowSequenceEnd
  | braceEnd : IsReadBy '\x7d' fun l => l.closeFlow .flowMappingEnd
  | comma : IsReadBy ',' flowEntry
  | quote : IsReadBy '"' fun l => l.keyWord (Quoted.scan true)

theorem IsReadBy.word_eq {read : Lexer → Except Fault Lexer} (hread : IsReadBy c read)
    (h : l.IsAt (c :: rest) index line depth done) : l.word = read l := by
  have hne : c ≠ '-' ∧ c ≠ '.' := by cases hread <;> decide
  obtain ⟨hminus, hpoint⟩ := markers_eq_false h hne.1 hne.2
  cases hread with
  | bracket | brace | bracketEnd | braceEnd | comma | quote =>
    unfold word
    simp only [h.source.peek_eq, hminus, hpoint, Bool.and_false]
    rfl

theorem word_colon (h : l.IsAt (':' :: rest) index line (depth + 1) done) :
    l.word = l.value := by
  obtain ⟨hminus, hpoint⟩ := markers_eq_false h (by decide) (by decide)
  have hflow : l.inFlow = true := by simp [inFlow, h.depth_eq]
  unfold word
  simp only [h.source.peek_eq, hminus, hpoint, hflow, Bool.and_false]
  rfl

/-- A letter or a digit begins a plain scalar. -/
theorem word_alphanum (h : l.IsAt (c :: rest) index line depth done) (hc : c.isAlphanum = true) :
    l.word = l.plainScalar := by
  have hne : ∀ d : Char, d.isAlphanum = false → c ≠ d := by
    rintro d hd rfl
    rw [hc] at hd
    cases hd
  have hscalar : isScalarChar c = true := by simp [isScalarChar, hc]
  obtain ⟨hminus, hpoint⟩ := markers_eq_false h (hne _ (by decide)) (hne _ (by decide))
  have hindicator : Plain.isIndicator c = false := by
    have hall : ("-?:#&*!|>\x27\"%@\x60".toList.any Char.isAlphanum) = false := by decide
    rw [Plain.isIndicator, Plain.isFlowMark_of_isScalarChar hscalar, Bool.false_or,
      Bool.eq_false_iff]
    intro h
    exact List.any_eq_false.1 hall c (List.contains_iff_mem.1 h) hc
  have hbegins : Plain.begins l.inFlow l.source = true := by
    rw [Plain.begins, h.source.peek_eq]
    simp [hindicator, Plain.isBlankOrEnd_of_isScalarChar hscalar]
  unfold word
  simp only [h.source.peek_eq, hminus, hpoint, hbegins, Bool.and_false, if_true, decide_false,
    Bool.false_and, Bool.false_eq_true, if_false, hne '%' rfl, hne '[' rfl, hne '\x7b' rfl,
    hne ']' rfl, hne '\x7d' rfl, hne ',' rfl, hne '-' rfl, hne '?' rfl, hne ':' rfl, hne '*' rfl,
    hne '&' rfl, hne '!' rfl, hne '|' rfl, hne '>' rfl, hne '\x27' rfl, hne '"' rfl]

/-- A minus sign before a letter or a digit begins a plain scalar. -/
theorem word_minus {d : Char} (h : l.IsAt ('-' :: d :: rest) index line depth done)
    (hd : d.isAlphanum = true) : l.word = l.plainScalar := by
  have hblank : isBlankOrEnd (l.source.peekAt 1) = false := by
    rw [h.source.peekAt_one_eq]
    exact Plain.isBlankOrEnd_of_isScalarChar (by simp [isScalarChar, hd])
  have hminus : l.source.startsMarker "---".toList = false := by
    have hne : '-' ≠ d := by
      rintro rfl
      cases hd
    rw [Source.startsMarker, h.source.rest_eq]
    simp [List.isPrefixOf, hne]
  have hpoint : l.source.startsMarker "...".toList = false :=
    startsMarker_eq_false h.source (by decide) _
  have hbegins : Plain.begins l.inFlow l.source = true := by
    rw [Plain.begins, h.source.peek_eq, hblank]
    simp
  unfold word
  simp only [h.source.peek_eq, hminus, hpoint, hblank, hbegins, Bool.and_false]
  rfl

end Dispatch

section Run

/-- Reading goes from one state to another, with at least one character for every word. -/
def Leads (l l' : Lexer) : Prop :=
  ∃ n, n + l'.source.rest.length ≤ l.source.rest.length
    ∧ ∀ fuel, run (n + fuel) l = run fuel l'

variable {l₁ l₂ l₃ : Lexer}

theorem Leads.refl (l : Lexer) : Leads l l :=
  ⟨0, Nat.le_of_eq (Nat.zero_add _), fun fuel => by rw [Nat.zero_add]⟩

theorem Leads.trans (h : Leads l₁ l₂) (h' : Leads l₂ l₃) : Leads l₁ l₃ := by
  obtain ⟨n, hle, hrun⟩ := h
  obtain ⟨m, hle', hrun'⟩ := h'
  refine ⟨n + m, by omega, fun fuel => ?_⟩
  rw [Nat.add_assoc, hrun, hrun']

/-- One word, with the blanks before it. -/
theorem Leads.of_word {l' l'' : Lexer} {c : Char}
    (h : l.IsAt (blanks ++ c :: (cs ++ rest)) index line depth done)
    (hstep : l.step = l'.word.map fun l => (l, true)) (hword : l'.word = .ok l'')
    (hle : l''.source.rest.length ≤ rest.length) : Leads l l'' := by
  refine ⟨1, ?_, fun fuel => ?_⟩
  · rw [h.source.rest_eq, List.length_append, List.length_cons, List.length_append]
    omega
  · rw [Nat.add_comm, run, hstep, hword]
    rfl

/-- At the end of the text the tokens are complete. -/
theorem run_of_isAt (h : l.IsAt blanks index line 0 done)
    (hblanks : ∀ c ∈ blanks, isBlank c = true) (fuel : Nat) :
    (run (fuel + 1) l).toList = done := by
  have hall : l.IsAt (blanks ++ []) index line 0 done := by rwa [List.append_nil]
  obtain ⟨l', hat, -, -, hstep⟩ := exists_step hall hblanks (fun c hc => by cases hc)
  obtain ⟨keys, hforget, -⟩ := exists_forgetKey hat
  have hclose : l'.closeBlocks (-1) = l' := closeBlocks_eq hat (by decide)
  rw [run, hstep]
  simp only [List.isEmpty_nil, if_true, finish, hclose, hforget, Except.map]
  exact hat.tokens_eq

end Run

end Lexer

end PercentTemplate.Yaml
