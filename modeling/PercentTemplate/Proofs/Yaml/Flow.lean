import PercentTemplate.Proofs.Json.Grammar
import PercentTemplate.Proofs.Yaml.Lexer

/-!
# JSON texts as YAML tokens

The tokens of a JSON value in YAML are those of a value between brackets (`Yaml.Stands`): a scalar
is a plain one of the same value, a string a quoted one, and the name of a member is a key. A
portable JSON text of an object has such tokens (`Yaml.stands_lex`).

The lexer is followed word by word over the words that JSON reads (`Yaml.Lexer.Ready`), and these
over the structure of the value.
-/

namespace PercentTemplate.Yaml

open Json.Token (IsBody IsSpelled IsWhole isSpace signText)
open Text (Points)

/-- Sequences of tokens, separated by commas. -/
def separated : List (List Token) → List Token
  | [] => []
  | words :: more => words ++ more.flatMap (.flowEntry :: ·)

/-- A member of an object with the tokens of its value. -/
abbrev Member : Type := (Points × Json Points) × List Token

/-- The tokens of a member: its name as a key, and those of its value. -/
def Member.tokens (m : Member) : List Token := .key :: .scalar m.1.1 false :: .value :: m.2

/-- The tokens stand for a JSON value. -/
inductive Stands : Json Points → List Token → Prop
  | scalar {v : Json Points} {text : Points} (hv : Json.Token.IsLexical v)
    (h : Scalar.value (Tag.ofPlain text.shown) text = .ok (Document.ofJson v)) :
    Stands v [.scalar text true]
  | text (s : Points) : Stands (.str s) [.scalar s false]
  | arr {items : List (Json Points × List Token)} (h : ∀ p ∈ items, Stands p.1 p.2) :
    Stands (.arr (items.map Prod.fst))
      (.flowSequence :: (separated (items.map Prod.snd) ++ [.flowSequenceEnd]))
  | obj {members : List Member} (h : ∀ m ∈ members, Stands m.1.2 m.2) :
    Stands (.obj (members.map Prod.fst))
      (.flowMapping :: (separated (members.map Member.tokens) ++ [.flowMappingEnd]))

namespace Lexer

/-- A lexer at the words `t :: ts` of a portable JSON text, the first of them behind `blanks` and
written `spelling`; at this word it is `l'`. -/
structure AtWord (l l' : Lexer) (index line depth : Nat) (done : List Token)
    (blanks spelling rest : List Char) (t : Json.Token) (ts : List Json.Token) : Prop where
  portable : IsPortable (blanks ++ (spelling ++ rest))
  words_eq : Json.Token.words (blanks ++ (spelling ++ rest))
    = ⟨blanks, spelling, t⟩ :: Json.Token.words rest
  spelled : IsSpelled t spelling
  lex_eq : Json.Token.lex rest = ts
  portable_rest : IsPortable rest
  isAt : l'.IsAt (spelling ++ rest) (index + blanks.length) (line + blanks.count '\n') depth done
  keys_eq : l'.keys = freshKeys (index + blanks.length) (line + blanks.count '\n') l.keys
  allowed : l.keyAllowed = true → l'.keyAllowed = true
  leads : ∀ {l''}, l'.word = .ok l'' → l''.source.rest.length ≤ rest.length → Leads l l''

/-- A lexer that has read `done` and has the words `words` of a portable JSON text before it,
inside `depth` brackets. -/
def Ready (l : Lexer) (words : List Json.Token) (depth : Nat) (done : List Token) : Prop :=
  ∃ cs index line, l.IsAt cs index line depth done ∧ Json.Token.lex cs = words ∧ IsPortable cs

variable {l : Lexer} {cs spelling rest : List Char} {index line depth : Nat} {done : List Token}
  {t : Json.Token} {ts : List Json.Token}

theorem begins_of_isSpelled (h : IsSpelled t spelling) (rest : List Char) :
    Begins (spelling ++ rest) := by
  intro c hc
  cases t with
  | mark d =>
    cases h with
    | mark hmark =>
      obtain rfl : d = c := Option.some.inj hc
      simp [isWordStart, hmark]
  | text s =>
    cases h with
    | text =>
      obtain rfl : '"' = c := Option.some.inj hc
      rfl
  | scalar v =>
    have hscalar := isScalarChar_of_isSpelled h
    obtain ⟨d, spelling, rfl⟩ := List.exists_cons_of_ne_nil h.ne_nil
    obtain rfl : d = c := Option.some.inj hc
    simp [isWordStart, hscalar d List.mem_cons_self]
  | fault => cases h

/-- The lexer goes to the next word. -/
theorem exists_atWord (h : l.IsAt cs index line depth done)
    (hlex : Json.Token.lex cs = t :: ts) (hport : IsPortable cs) (hfault : ∀ f, t ≠ .fault f) :
    ∃ l' blanks spelling rest, cs = blanks ++ (spelling ++ rest)
      ∧ AtWord l l' index line depth done blanks spelling rest t ts := by
  obtain ⟨blanks, spelling, rest, rfl, hspace, hstop, hspelled, hnext, hrest⟩ :=
    Json.Token.exists_of_lex_eq_cons hlex hfault
  have hblanks : ∀ c ∈ blanks, isBlank c = true :=
    fun c hc => hport.isBlank (List.mem_append_left _ hc) (hspace c hc)
  obtain ⟨l', hat, hallowed, hkeys, hstep⟩ :=
    exists_step h hblanks (begins_of_isSpelled hspelled rest)
  refine ⟨l', blanks, spelling, rest, rfl, ?_⟩
  exact {
    portable := hport
    words_eq := Json.Token.words_of_next hspace hstop hspelled hnext
    spelled := hspelled
    lex_eq := hrest
    portable_rest := hport.of_next hspace hstop hspelled hnext
    isAt := hat
    keys_eq := hkeys
    allowed := hallowed
    leads := by
      intro l'' hword hle
      obtain ⟨c, spelling, rfl⟩ := List.exists_cons_of_ne_nil hspelled.ne_nil
      exact Leads.of_word h hstep hword hle }

/-- A mark is a single character. -/
theorem AtWord.spelling_eq {l' : Lexer} {blanks : List Char} {c : Char}
    (h : AtWord l l' index line depth done blanks spelling rest (.mark c) ts) :
    spelling = [c] := by
  cases h.spelled with
  | mark => rfl

section Marks

/-- A mark is read as the lexer reads it, with whatever holds afterwards. -/
theorem Ready.exists_mark {c : Char} (h : Ready l (.mark c :: ts) depth done) {depth' : Nat}
    {done' : List Token} {p : Lexer → Prop}
    (hmark : ∀ {l : Lexer} {rest index line}, l.IsAt (c :: rest) index line depth done →
      ∃ l', l.word = .ok l' ∧ l'.IsAt rest (index + 1) line depth' done' ∧ p l') :
    ∃ l', Leads l l' ∧ Ready l' ts depth' done' ∧ p l' := by
  obtain ⟨cs, index, line, hat, hlex, hport⟩ := h
  obtain ⟨l', blanks, spelling, rest, -, hword⟩ := exists_atWord hat hlex hport (by simp)
  obtain rfl := hword.spelling_eq
  obtain ⟨l'', heq, hat', hp⟩ := hmark hword.isAt
  exact ⟨l'', hword.leads heq hat'.length_le,
    ⟨rest, _, _, hat', hword.lex_eq, hword.portable_rest⟩, hp⟩

theorem Ready.exists_bracket (h : Ready l (.mark '[' :: ts) depth done) :
    ∃ l', Leads l l' ∧ Ready l' ts (depth + 1) (done ++ [.flowSequence])
      ∧ l'.keyAllowed = true :=
  h.exists_mark fun hat => IsReadBy.bracket.word_eq hat ▸ exists_openFlow hat rfl .flowSequence

theorem Ready.exists_brace (h : Ready l (.mark '\x7b' :: ts) depth done) :
    ∃ l', Leads l l' ∧ Ready l' ts (depth + 1) (done ++ [.flowMapping])
      ∧ l'.keyAllowed = true :=
  h.exists_mark fun hat => IsReadBy.brace.word_eq hat ▸ exists_openFlow hat rfl .flowMapping

theorem Ready.exists_comma (h : Ready l (.mark ',' :: ts) depth done) :
    ∃ l', Leads l l' ∧ Ready l' ts depth (done ++ [.flowEntry]) ∧ l'.keyAllowed = true :=
  h.exists_mark fun hat => IsReadBy.comma.word_eq hat ▸ exists_flowEntry hat rfl

theorem Ready.exists_bracketEnd (h : Ready l (.mark ']' :: ts) (depth + 1) done) :
    ∃ l', Leads l l' ∧ Ready l' ts depth (done ++ [.flowSequenceEnd]) ∧ True :=
  h.exists_mark fun hat => by
    obtain ⟨l', heq, hat'⟩ := exists_closeFlow hat rfl .flowSequenceEnd
    exact ⟨l', (IsReadBy.bracketEnd.word_eq hat).trans heq, hat', trivial⟩

theorem Ready.exists_braceEnd (h : Ready l (.mark '\x7d' :: ts) (depth + 1) done) :
    ∃ l', Leads l l' ∧ Ready l' ts depth (done ++ [.flowMappingEnd]) ∧ True :=
  h.exists_mark fun hat => by
    obtain ⟨l', heq, hat'⟩ := exists_closeFlow hat rfl .flowMappingEnd
    exact ⟨l', (IsReadBy.braceEnd.word_eq hat).trans heq, hat', trivial⟩

end Marks

section Words

/-- No line ends in a string. -/
theorem lineFeed_notMem_of_isBody {body : List Char} {codes : List Nat} (h : IsBody body codes) :
    '\n' ∉ body := by
  induction h with
  | nil => exact List.not_mem_nil
  | @code a b c d n body codes hn _ ih =>
    have hdigits := (Quoted.isHexDigit_of_hexNumber? hn).1
    have hne : '\n' ∉ [a, b, c, d] := by
      intro hmem
      exact absurd (List.all_eq_true.1 hdigits '\n' hmem) (by decide)
    simp only [List.mem_cons, List.not_mem_nil, or_false, not_or] at hne
    simp [hne, ih]
  | @escape c n body codes hn _ ih =>
    have hne : '\n' ≠ c := by
      rintro rfl
      cases hn
    simp [hne, ih]
  | @plain c body codes _ _ hcontrol _ ih =>
    have hne : '\n' ≠ c := by
      rintro rfl
      exact hcontrol (by decide)
    simp [hne, ih]

/-- A string is a double-quoted scalar. If a key may begin it could be one. -/
theorem AtWord.exists_text {l' : Lexer} {blanks : List Char} {s : Points}
    (h : AtWord l l' index line depth done blanks spelling rest (.text s) ts) :
    ∃ l'', Leads l l'' ∧ l''.IsAt rest (index + blanks.length + spelling.length)
        (line + blanks.count '\n') depth (done ++ [.scalar s false])
      ∧ (l.keyAllowed = true → ∃ column, Keyed.get? depth l''.keys = some
          ⟨done.length, false, index + blanks.length, line + blanks.count '\n', column⟩) := by
  have hat := h.isAt
  have hleads := @h.leads
  have hmem : _ ∈ Json.Token.words (blanks ++ (spelling ++ rest)) :=
    h.words_eq ▸ List.mem_cons_self
  have htext := h.portable.text _ hmem
  have hplain := h.portable.plain
  cases h.spelled with
  | @text body codes hbody =>
    have hline : ∀ c ∈ body, isBreak c = false ∧ c ≠ '\t' := by
      intro c hc
      obtain ⟨-, htab, hbreak⟩ := hplain c (by simp [hc])
      refine ⟨Bool.eq_false_iff.2 fun h => ?_, htab⟩
      rw [hbreak h] at hc
      exact lineFeed_notMem_of_isBody hbody hc
    have hchars := Json.Token.joinSurrogates_of_not_isPair (htext body codes rfl hbody)
    rw [List.cons_append, List.append_assoc] at hat
    obtain ⟨s', hscan, hs'⟩ := Quoted.scan_of_isBody hbody hline hat.source
    obtain ⟨l'', heq, hat', hkey⟩ := exists_keyWord hat hscan hs'
    rw [← IsReadBy.quote.word_eq hat] at heq
    rw [hchars]
    refine ⟨l'', hleads heq hat'.length_le, ?_, fun hallowed => ⟨_, hkey (h.allowed hallowed)⟩⟩
    have hlength : index + blanks.length + ('"' :: (body ++ ['"'])).length
        = index + blanks.length + body.length + 2 := by
      simp only [List.length_cons, List.length_append, List.length_nil]
      omega
    rwa [hlength]

theorem Ready.exists_text {s : Points} (h : Ready l (.text s :: ts) depth done) :
    ∃ l', Leads l l' ∧ Ready l' ts depth (done ++ [.scalar s false]) := by
  obtain ⟨cs, index, line, hat, hlex, hport⟩ := h
  obtain ⟨l', blanks, spelling, rest, -, hword⟩ := exists_atWord hat hlex hport (by simp)
  obtain ⟨l'', hleads, hat', -⟩ := hword.exists_text
  exact ⟨l'', hleads, ⟨rest, _, _, hat', hword.lex_eq, hword.portable_rest⟩⟩

/-- A name and the colon behind it are a key and the mark of its value. -/
theorem Ready.exists_name {s : Points}
    (h : Ready l (.text s :: .mark ':' :: ts) (depth + 1) done) (hallowed : l.keyAllowed = true) :
    ∃ l', Leads l l' ∧ Ready l' ts (depth + 1) (done ++ [.key, .scalar s false, .value]) := by
  obtain ⟨cs, index, line, hat, hlex, hport⟩ := h
  obtain ⟨l₁, blanks, spelling, rest, -, hname⟩ := exists_atWord hat hlex hport (by simp)
  obtain ⟨l₂, hleads, hat₂, hkey⟩ := hname.exists_text
  obtain ⟨column, hkey⟩ := hkey hallowed
  obtain ⟨l₃, blanks', colon, rest', rfl, hcolon⟩ :=
    exists_atWord hat₂ hname.lex_eq hname.portable_rest (by simp)
  -- The colon is near enough for the name to be a key still.
  obtain ⟨hline, hnear⟩ := hname.portable.key [] _ _ _
    (hname.words_eq.trans (congrArg _ hcolon.words_eq)) rfl
  have hfresh : Keyed.get? (depth + 1) l₃.keys
      = some ⟨done.length, false, index + blanks.length, line + blanks.count '\n', column⟩ := by
    rw [hcolon.keys_eq]
    refine Keyed.get?_filter_of_get? hkey ?_
    have hcount : blanks'.count '\n' = 0 := List.count_eq_zero.2 hline
    simp only at hnear
    simp only [hcount, Nat.add_zero, bne_self_eq_false, Bool.false_or, Bool.not_eq_true',
      decide_eq_false_iff_not]
    omega
  have hat₃ := hcolon.isAt
  have hleads₃ := @hcolon.leads
  rw [hcolon.spelling_eq] at hat₃
  obtain ⟨l₄, heq, hat₄⟩ := exists_value hat₃ rfl hfresh rfl
  rw [← word_colon hat₃] at heq
  rw [List.append_assoc] at hat₄
  exact ⟨l₄, hleads.trans (hleads₃ heq hat₄.length_le),
    ⟨rest', _, _, hat₄, hcolon.lex_eq, hcolon.portable_rest⟩⟩

/-- Whether words are at their end or go on with a comma or the end of a bracket. -/
def IsDelimited (words : List Json.Token) : Prop :=
  ∀ t ∈ words.head?, t = .mark ',' ∨ t = .mark ']' ∨ t = .mark '\x7d'

theorem exists_isDelimited (hlex : Json.Token.lex cs = ts) (hport : IsPortable cs)
    (hts : IsDelimited ts) :
    ∃ blanks rest, cs = blanks ++ rest ∧ (∀ c ∈ blanks, isBlank c = true)
      ∧ Plain.IsDelimited rest ∧ Json.Token.lex rest = ts ∧ IsPortable rest := by
  cases ts with
  | nil =>
    have hspace := Json.Token.isSpace_of_lex_eq_nil hlex
    have hblanks : ∀ c ∈ cs, isBlank c = true := fun c hc => hport.isBlank hc (hspace c hc)
    have hend : Plain.IsDelimited [] := fun c hc => by cases hc
    refine ⟨cs, [], (List.append_nil cs).symm, hblanks, hend, rfl, ?_⟩
    rw [← List.append_nil cs] at hport
    exact hport.of_blanks hspace (Text.stops_nil _)
  | cons t ts =>
    have hmark := hts t rfl
    obtain ⟨c, rfl, hc⟩ : ∃ c, t = .mark c ∧ Plain.isFlowMark c = true := by
      rcases hmark with rfl | rfl | rfl <;> exact ⟨_, rfl, rfl⟩
    obtain ⟨blanks, spelling, rest, rfl, hspace, hstop, hspelled, hnext, hrest⟩ :=
      Json.Token.exists_of_lex_eq_cons hlex (by simp)
    have hblanks : ∀ c ∈ blanks, isBlank c = true :=
      fun c hc => hport.isBlank (List.mem_append_left _ hc) (hspace c hc)
    refine ⟨blanks, spelling ++ rest, rfl, hblanks, ?_, ?_, hport.of_blanks hspace hstop⟩
    · cases hspelled
      intro d hd
      obtain rfl := Option.some.inj hd
      exact hc
    · rw [← hlex, Json.Token.lex_append hspace]

theorem word_number (negative : Bool) {whole tail : List Char} (hwhole : IsWhole whole)
    (h : l.IsAt (signText negative ++ (whole ++ tail)) index line depth done) :
    l.word = l.plainScalar := by
  obtain ⟨d, digits, rfl, hd⟩ := Scalar.exists_isDigit_of_isWhole hwhole
  have halphanum : d.isAlphanum = true := by simp [Char.isAlphanum, hd]
  cases negative with
  | true => exact word_minus h halphanum
  | false => exact word_alphanum h halphanum

theorem word_of_isSpelled {v : Json Points} (h : l.IsAt (spelling ++ rest) index line depth done)
    (hspelled : IsSpelled (.scalar v) spelling) : l.word = l.plainScalar := by
  cases hspelled with
  | name hname =>
    simp only [Json.Token.names, List.mem_cons, Prod.mk.injEq, List.not_mem_nil, or_false] at hname
    rcases hname with ⟨rfl, -⟩ | ⟨rfl, -⟩ | ⟨rfl, -⟩ | ⟨rfl, -⟩ | ⟨rfl, -⟩ | ⟨rfl, -⟩
    · exact word_alphanum h rfl
    · exact word_alphanum h rfl
    · exact word_alphanum h rfl
    · exact word_alphanum h rfl
    · exact word_alphanum h rfl
    · exact word_minus h rfl
  | int negative hwhole =>
    rw [List.append_assoc] at h
    exact word_number negative hwhole h
  | float negative hwhole =>
    rw [List.append_assoc, List.append_assoc] at h
    exact word_number negative hwhole h

/-- A number or a name is a plain scalar of the same value. -/
theorem Ready.exists_scalar {v : Json Points} (h : Ready l (.scalar v :: ts) (depth + 1) done)
    (hts : IsDelimited ts) :
    ∃ l' text, Leads l l' ∧ Ready l' ts (depth + 1) (done ++ [.scalar text true])
      ∧ Scalar.value (Tag.ofPlain text.shown) text = .ok (Document.ofJson v) := by
  obtain ⟨cs, index, line, hat, hlex, hport⟩ := h
  obtain ⟨l', blanks, spelling, rest, -, hword⟩ := exists_atWord hat hlex hport (by simp)
  have hmem : _ ∈ Json.Token.words (blanks ++ (spelling ++ rest)) :=
    hword.words_eq ▸ List.mem_cons_self
  have hvalue := Scalar.value_of_isSpelled hword.spelled fun x hx =>
    hword.portable.float _ hmem x (congrArg Json.Token.scalar hx)
  rw [← Points.shown_ofChars spelling] at hvalue
  have hscalar := isScalarChar_of_isSpelled hword.spelled
  have hat' := hword.isAt
  have hleads := @hword.leads
  obtain ⟨blanks', rest', rfl, hblanks, hdelimited, hlex', hport'⟩ :=
    exists_isDelimited hword.lex_eq hword.portable_rest hts
  obtain ⟨newLine, s', index', line', hscan, hs'⟩ :=
    Plain.exists_scan hscalar hword.spelled.ne_nil hblanks hdelimited hat'.source
  obtain ⟨l'', heq, hat''⟩ := exists_plainScalar hat' hscan hs'
  rw [← word_of_isSpelled hat' hword.spelled] at heq
  have hle : l''.source.rest.length ≤ (blanks' ++ rest').length := by
    have := hat''.length_le
    rw [List.length_append]
    omega
  exact ⟨l'', _, hleads heq hle, ⟨rest', _, _, hat'', hlex', hport'⟩, hvalue⟩

end Words

section Values

/-- Wherever the words of the value stand between brackets they are read as tokens that stand for
it. -/
def IsEmitted (raw : Json Points) : Prop :=
  ∀ (l : Lexer) (ts : List Json.Token) (depth : Nat) (done : List Token),
    Ready l (raw.tokens ++ ts) (depth + 1) done → IsDelimited ts →
      ∃ l' out, Leads l l' ∧ Ready l' ts (depth + 1) (done ++ out) ∧ Stands raw out

theorem isEmitted_scalar {v : Json Points} (htokens : v.tokens = [.scalar v]) : IsEmitted v := by
  intro l ts depth done h hts
  rw [htokens] at h
  have hlexical : Json.Token.IsLexical v := by
    obtain ⟨cs, index, line, -, hlex, -⟩ := h
    have hmem : .scalar v ∈ Json.Token.lex cs := by
      rw [hlex]
      exact List.mem_cons_self
    exact Json.Token.isLexical_of_mem_lex hmem
  obtain ⟨l', text, hleads, hready, hvalue⟩ := h.exists_scalar hts
  exact ⟨l', _, hleads, hready, .scalar hlexical hvalue⟩

theorem isEmitted_text (s : Points) : IsEmitted (.str s) := by
  intro l ts depth done h hts
  obtain ⟨l', hleads, hready⟩ := h.exists_text
  exact ⟨l', _, hleads, hready, .text s⟩

theorem isDelimited_further {α : Type} (words : α → List Json.Token) (more : List α) {c : Char}
    (hc : c = ']' ∨ c = '\x7d') (ts : List Json.Token) :
    IsDelimited (Json.further words more ++ .mark c :: ts) := by
  intro t ht
  cases more with
  | nil =>
    obtain rfl : .mark c = t := Option.some.inj ht
    rcases hc with rfl | rfl
    · exact .inr (.inl rfl)
    · exact .inr (.inr rfl)
  | cons x more =>
    rw [Json.further_cons] at ht
    obtain rfl : .mark ',' = t := Option.some.inj ht
    exact .inl rfl

/-- Wherever the words of a part of a collection stand, and a key may begin there, they are read as
the tokens of the part. -/
def EmitsPart {α : Type} (words : α → List Json.Token) (tokens : α × List Token → List Token)
    (value : α → Json Points) (a : α) : Prop :=
  ∀ (l : Lexer) (ts : List Json.Token) (depth : Nat) (done : List Token),
    Ready l (words a ++ ts) (depth + 1) done → l.keyAllowed = true → IsDelimited ts →
      ∃ l' out, Leads l l' ∧ Ready l' ts (depth + 1) (done ++ tokens (a, out))
        ∧ Stands (value a) out

section Parts

variable {α : Type} {words : α → List Json.Token} {tokens : α × List Token → List Token}
  {value : α → Json Points} {parts : List α} {c : Char}

theorem exists_further (h : ∀ a ∈ parts, EmitsPart words tokens value a)
    (hc : c = ']' ∨ c = '\x7d')
    (hready : Ready l (Json.further words parts ++ .mark c :: ts) (depth + 1) done) :
    ∃ (l' : Lexer) (pairs : List (α × List Token)), pairs.map Prod.fst = parts
      ∧ (∀ p ∈ pairs, Stands (value p.1) p.2) ∧ Leads l l'
      ∧ Ready l' (.mark c :: ts) (depth + 1)
        (done ++ (pairs.map tokens).flatMap (.flowEntry :: ·)) := by
  induction parts generalizing l done with
  | nil =>
    refine ⟨l, [], rfl, List.forall_mem_nil _, .refl l, ?_⟩
    rw [List.map_nil, List.flatMap_nil, List.append_nil]
    exact hready
  | cons a parts ih =>
    rw [Json.further_cons, List.cons_append, List.append_assoc] at hready
    obtain ⟨l₁, hleads₁, hready₁, hallowed⟩ := hready.exists_comma
    obtain ⟨l₂, out, hleads₂, hready₂, hstands⟩ := h a List.mem_cons_self _ _ _ _ hready₁
      hallowed (isDelimited_further words parts hc ts)
    obtain ⟨l₃, pairs, rfl, hpairs, hleads₃, hready₃⟩ :=
      ih (fun b hb => h b (List.mem_cons_of_mem a hb)) hready₂
    refine ⟨l₃, (a, out) :: pairs, rfl, List.forall_mem_cons.2 ⟨hstands, hpairs⟩,
      hleads₁.trans (hleads₂.trans hleads₃), ?_⟩
    simpa using hready₃

/-- The parts of a collection are read as its tokens up to the bracket that closes. -/
theorem exists_separated (h : ∀ a ∈ parts, EmitsPart words tokens value a)
    (hc : c = ']' ∨ c = '\x7d') (hallowed : l.keyAllowed = true)
    (hready : Ready l (Json.separated (parts.map words) ++ .mark c :: ts) (depth + 1) done) :
    ∃ (l' : Lexer) (pairs : List (α × List Token)), pairs.map Prod.fst = parts
      ∧ (∀ p ∈ pairs, Stands (value p.1) p.2) ∧ Leads l l'
      ∧ Ready l' (.mark c :: ts) (depth + 1) (done ++ separated (pairs.map tokens)) := by
  cases parts with
  | nil =>
    refine ⟨l, [], rfl, List.forall_mem_nil _, .refl l, ?_⟩
    rw [List.map_nil, separated, List.append_nil]
    exact hready
  | cons a parts =>
    rw [Json.separated_map_cons, List.append_assoc] at hready
    obtain ⟨l₁, out, hleads₁, hready₁, hstands⟩ := h a List.mem_cons_self _ _ _ _ hready hallowed
      (isDelimited_further words parts hc ts)
    obtain ⟨l₂, pairs, rfl, hpairs, hleads₂, hready₂⟩ :=
      exists_further (fun b hb => h b (List.mem_cons_of_mem a hb)) hc hready₁
    refine ⟨l₂, (a, out) :: pairs, rfl, List.forall_mem_cons.2 ⟨hstands, hpairs⟩,
      hleads₁.trans hleads₂, ?_⟩
    rwa [List.map_cons, separated, ← List.append_assoc]

end Parts

theorem isEmitted_arr {items : List (Json Points)} (h : ∀ v ∈ items, IsEmitted v) :
    IsEmitted (.arr items) := by
  intro l ts depth done hready hts
  have hparts : ∀ v ∈ items, EmitsPart Json.tokens Prod.snd id v :=
    fun v hv l ts depth done hready _ => h v hv l ts depth done hready
  rw [Json.tokens_arr, List.cons_append, List.append_assoc, List.singleton_append] at hready
  obtain ⟨l₁, hleads₁, hready₁, hallowed⟩ := hready.exists_bracket
  obtain ⟨l₂, pairs, rfl, hpairs, hleads₂, hready₂⟩ :=
    exists_separated hparts (.inl rfl) hallowed hready₁
  obtain ⟨l₃, hleads₃, hready₃, -⟩ := hready₂.exists_bracketEnd
  refine ⟨l₃, _, hleads₁.trans (hleads₂.trans hleads₃), ?_, .arr hpairs⟩
  simpa using hready₃

theorem emitsPart_member {m : Points × Json Points} (h : IsEmitted m.2) :
    EmitsPart Json.memberWords Member.tokens Prod.snd m := by
  intro l ts depth done hready hallowed hts
  obtain ⟨l₁, hleads₁, hready₁⟩ := hready.exists_name hallowed
  obtain ⟨l₂, out, hleads₂, hready₂, hstands⟩ := h _ _ _ _ hready₁ hts
  refine ⟨l₂, out, hleads₁.trans hleads₂, ?_, hstands⟩
  simpa [Member.tokens] using hready₂

/-- An object may also stand outside of all brackets. -/
theorem Ready.exists_obj {members : List (Points × Json Points)} (h : ∀ m ∈ members, IsEmitted m.2)
    (hready : Ready l ((Json.obj members).tokens ++ ts) depth done) :
    ∃ l' out, Leads l l' ∧ Ready l' ts depth (done ++ out) ∧ Stands (.obj members) out := by
  rw [Json.tokens_obj, List.cons_append, List.append_assoc, List.singleton_append] at hready
  obtain ⟨l₁, hleads₁, hready₁, hallowed⟩ := hready.exists_brace
  obtain ⟨l₂, pairs, rfl, hpairs, hleads₂, hready₂⟩ :=
    exists_separated (fun m hm => emitsPart_member (h m hm)) (.inr rfl) hallowed hready₁
  obtain ⟨l₃, hleads₃, hready₃, -⟩ := hready₂.exists_braceEnd
  refine ⟨l₃, _, hleads₁.trans (hleads₂.trans hleads₃), ?_, .obj hpairs⟩
  simpa using hready₃

theorem isEmitted (raw : Json Points) : IsEmitted raw := by
  induction raw with
  | null | bool | int | float => exact isEmitted_scalar rfl
  | str s => exact isEmitted_text s
  | arr items ih => exact isEmitted_arr ih
  | obj members ih =>
    intro l ts depth done hready _
    exact hready.exists_obj ih

end Values

end Lexer

/-- The tokens of a portable JSON text of an object stand for the object. -/
theorem stands_lex {cs : List Char} {members : List (Points × Json Points)}
    (hlex : Json.Token.lex cs = (Json.obj members).tokens) (hport : IsPortable cs) :
    Stands (.obj members) (lex cs) := by
  have hstart : Lexer.Ready (.start cs) ((Json.obj members).tokens ++ []) 0 [] := by
    refine ⟨cs, 0, 0, Lexer.isAt_start cs, ?_, hport⟩
    rw [hlex, List.append_nil]
  obtain ⟨l, out, ⟨n, hle, hrun⟩, ⟨cs', index, line, hat, hend, hport'⟩, hstands⟩ :=
    hstart.exists_obj fun m _ => Lexer.isEmitted m.2
  have hblanks : ∀ c ∈ cs', isBlank c = true :=
    fun c hc => hport'.isBlank hc (Json.Token.isSpace_of_lex_eq_nil hend c hc)
  -- Every word takes a character at least, so one step is left for the end of the text.
  have hfuel : cs.length + 1 = n + (cs.length - n + 1) := by
    change n + l.source.rest.length ≤ cs.length at hle
    omega
  have hprintable : cs.all isPrintable = true :=
    List.all_eq_true.2 fun c hc => (hport.plain c hc).1
  rw [lex, if_pos hprintable, hfuel, hrun, Lexer.run_of_isAt hat hblanks]
  exact hstands

end PercentTemplate.Yaml
