import PercentTemplate.Proofs.Template.Lap

/-!
# The language of templates

A token has a lap: the stretch of its written form, with its events and the format that it leaves.
The scan of the written form of valid tokens goes through the laps of these tokens
(`Token.course_printAll`). Conversely an attempt that is not given up has read the written form of a
token (`Attempt.exists_token`), and a written form belongs to one token (`Token.eq_of_print_eq`).

Main statement: the scan recognises the written forms of tokens and nothing else
(`Template.scan_recognises_tokens`).
-/

namespace PercentTemplate

open Placeholder (Attempt Ending IsWord IsWidth Side)
open Text (Stops stops_cons)

namespace Token

/-- The format that is pending after a token. -/
def leaves (pending : Format) : Token → Format
  | literal _ | lineFeed | percent => pending
  | key _ => Format.unset
  | directive d => d.format

/-- What the attempt at a token comes to, if there is one. -/
def outcome? : Token → Option Placeholder
  | literal _ => none
  | lineFeed => some (.escape '\n')
  | percent => some (.escape '%')
  | key name => some (.key name)
  | directive d => some (.directive d.format)

/-- The lap of a token. -/
def lap (offset : Nat) (pending : Format) (t : Token) : Lap where
  source := ⟨offset, String.ofList t.print⟩
  pending := pending
  events := events offset pending [t]
  format := t.leaves pending

/-- The laps of tokens one after the other. -/
def laps (offset : Nat) (pending : Format) : List Token → List Lap
  | [] => []
  | t :: ts => t.lap offset pending :: laps (offset + t.print.length) (t.leaves pending) ts

theorem events_cons (offset : Nat) (pending : Format) (t : Token) (ts : List Token) :
    events offset pending (t :: ts)
      = events offset pending [t]
        ++ events (offset + t.print.length) (t.leaves pending) ts := by
  cases t <;> rfl

theorem flatMap_events_laps (offset : Nat) (pending : Format) (ts : List Token) :
    (laps offset pending ts).flatMap Lap.events = events offset pending ts := by
  induction ts generalizing offset pending with
  | nil => rfl
  | cons t ts ih => rw [laps, List.flatMap_cons, ih, events_cons offset pending t ts, lap]

/-- No token is malformed. -/
theorem malformed_notMem_events (source : Stretch) (offset : Nat) (pending : Format)
    (ts : List Token) : Event.malformed source ∉ events offset pending ts := by
  induction ts generalizing offset pending with
  | nil => exact List.not_mem_nil
  | cons t ts ih =>
    rw [events_cons, List.mem_append, not_or]
    refine ⟨?_, ih _ _⟩
    cases t <;> simp [events]

/-- The lap of a token is the lap of the attempt at it. -/
theorem lap_eq {t : Token} {p : Placeholder} (h : t.outcome? = some p) (offset : Nat)
    (pending : Format) : t.lap offset pending = p.lap offset pending t.print := by
  cases t <;> cases h <;> rfl

/-! A scan recognises the written forms of tokens. -/

theorem attempt_print_directive {d : Directive} (h : (directive d).IsValid) (rest : List Char) :
    Attempt d.print (.directive d.format) rest := by
  obtain ⟨hkind, hpos, hmax, -⟩ := h
  have hwidth : IsWidth (Nat.toDigits 10 d.width) := Placeholder.isWidth_toDigits hpos
  have hvalue : Integer.ofDigits (Nat.toDigits 10 d.width) = d.width :=
    Integer.ofDigits_toDigits d.width
  have hend : Ending (Side.ofKind d.kind) d.width (Directive.spaces d.afterWidth ++ d.ending)
      (.directive d.format) rest := by
    cases hword : Side.wordOf? d.kind with
    | none =>
      have hplain : Ending (Side.ofKind d.kind) d.width _ _ rest := .plain d.afterWidth
      rw [Side.plain_ofKind hword hkind] at hplain
      simpa only [Directive.ending, hword, Directive.format] using hplain
    | some word =>
      have hchars : IsWord word.toList ∧ word.toList ≠ [] := by
        revert hword
        cases d.kind <;> rintro ⟨⟩ <;> exact ⟨List.all_eq_true.1 (by decide), by decide⟩
      have hkeyword : Ending (Side.ofKind d.kind) d.width _ _ rest :=
        .word d.afterWidth d.afterComma d.afterKeyword hchars.1 fun hnil => absurd hnil hchars.2
      rw [Side.outcome, String.ofList_toList, Side.keyword?_wordOf hword] at hkeyword
      simpa [Directive.ending, hword, Directive.format, Placeholder.spaced] using hkeyword
  have hdigits : Stops Char.isDigit (Directive.spaces d.afterWidth ++ d.ending ++ rest) := by
    rw [List.append_assoc]
    refine Placeholder.stops_spaces (by decide) _ ?_
    unfold Directive.ending
    split <;> simp
  have hattempt := Attempt.directive (Side.ofKind d.kind) d.afterOpening hwidth
    (by rwa [hvalue]) hdigits (hvalue.symm ▸ hend)
  simpa [Directive.print, Placeholder.opening, Directive.spaces] using hattempt

theorem attempt_print {t : Token} (h : t.IsValid) {p : Placeholder} (hp : t.outcome? = some p)
    (rest : List Char) : Attempt t.print p rest := by
  cases t with
  | literal c => cases hp
  | lineFeed => cases hp; exact .lineFeed
  | percent => cases hp; exact .percent
  | key name =>
    cases hp
    have hname : IsWord name.toList := h
    have hkey : Attempt _ _ rest := .key hname
    rwa [String.ofList_toList] at hkey
  | directive d => cases hp; exact attempt_print_directive h rest

theorem course_printAll {ts : List Token} (h : ∀ t ∈ ts, t.IsValid) (offset : Nat)
    (pending : Format) : Course offset pending (printAll ts) (laps offset pending ts) [] := by
  induction ts generalizing offset pending with
  | nil => exact .done
  | cons t ts ih =>
    have hvalid : t.IsValid := h t List.mem_cons_self
    have hcourse := ih (fun x hx => h x (List.mem_cons_of_mem t hx))
      (offset + t.print.length) (t.leaves pending)
    cases hp : t.outcome? with
    | none =>
      cases t with
      | literal c => exact .literal hvalid hcourse
      | lineFeed | percent | key | directive => cases hp
    | some p =>
      have hleaves : p.leaves pending = t.leaves pending := by
        rw [show p.leaves pending = (p.lap offset pending t.print).format from rfl,
          ← lap_eq hp offset pending, lap]
      rw [laps, lap_eq hp offset pending]
      exact .attempt (attempt_print hvalid hp (printAll ts)) (hleaves ▸ hcourse)

end Token

/-! What a scan recognises is the written form of one token. -/

theorem Placeholder.Side.ofKind_of_keyword? {side : Side} {word : String} {kind : Format.Kind}
    (h : side.keyword? word = some kind) : ofKind kind = side ∧ wordOf? kind = some word := by
  unfold keyword? at h
  split at h <;> cases h <;> exact ⟨rfl, rfl⟩

theorem Placeholder.Attempt.exists_token {used rest : List Char} {p : Placeholder}
    (h : Attempt used p rest) (hp : ∀ ofKey, p ≠ malformed ofKey) :
    ∃ t : Token, t.IsValid ∧ t.print = used ∧ t.outcome? = some p := by
  cases h with
  | alone | stranger | openKey | bare | noWidth | tooWide => exact absurd rfl (hp _)
  | lineFeed => exact ⟨.lineFeed, trivial, rfl, rfl⟩
  | percent => exact ⟨.percent, trivial, rfl, rfl⟩
  | @key name _ hname =>
    refine ⟨.key (String.ofList name), ?_, ?_, rfl⟩
    · rwa [Token.IsValid, String.toList_ofList]
    · rw [Token.print, String.toList_ofList]
  | @directive side before width cs _ _ hwidth hmax _ hend =>
    have hpos := hwidth.ofDigits_pos
    cases hend with
    | openWidth | openWord => exact absurd rfl (hp _)
    | plain after =>
      have hkind : side.plain ≠ .none ∧ Side.wordOf? side.plain = none := by
        cases side <;> exact ⟨by decide, rfl⟩
      refine ⟨.directive ⟨side.plain, Integer.ofDigits width, before, after, 0, 0⟩,
        ⟨hkind.1, hpos, hmax, fun _ => ⟨rfl, rfl⟩⟩, ?_, rfl⟩
      simp [Token.print, Directive.print, Directive.ending, hkind.2, Side.ofKind_plain,
        hwidth.toDigits_ofDigits, opening, Directive.spaces]
    | @word after comma last word _ hword hlast =>
      cases hkeyword : side.keyword? (String.ofList word) with
      | none =>
        rw [Side.outcome, hkeyword] at hp
        exact absurd rfl (hp false)
      | some kind =>
        obtain ⟨hside, hspelling⟩ := Side.ofKind_of_keyword? hkeyword
        refine ⟨.directive ⟨kind, Integer.ofDigits width, before, after, comma, last⟩,
          ⟨?_, hpos, hmax, fun hnone => ?_⟩, ?_, ?_⟩
        · rintro rfl
          cases hspelling
        · rw [hspelling] at hnone
          cases hnone
        · simp [Token.print, Directive.print, Directive.ending, hspelling, hside,
            hwidth.toDigits_ofDigits, opening, spaced, Directive.spaces]
        · rw [Side.outcome, hkeyword]
          rfl

/-- What a given up attempt has read is no token. -/
theorem Placeholder.Attempt.print_ne {used rest : List Char} {ofKey : Bool} {t : Token}
    (h : Attempt used (malformed ofKey) rest) (ht : t.IsValid) : t.print ≠ used := by
  rintro rfl
  cases hp : t.outcome? with
  | none =>
    cases t with
    | literal c => exact ht (List.cons.inj h.eq_cons).1
    | lineFeed | percent | key | directive => cases hp
  | some p =>
    obtain ⟨-, rfl, -⟩ := h.unique (Token.attempt_print ht hp rest) rfl
    cases t <;> cases hp

namespace Directive

theorem spaces_inj {m n : Nat} {cs ds : List Char} (hcs : Stops (· == ' ') cs)
    (hds : Stops (· == ' ') ds) (h : spaces m ++ cs = spaces n ++ ds) : m = n ∧ cs = ds := by
  have hspaces : ∀ k, ∀ x ∈ spaces k, (x == ' ') = true := by
    intro k x hx
    exact beq_iff_eq.2 (List.eq_of_mem_replicate hx)
  have hrun : spaces m = spaces n := by
    rw [← Text.takeWhile_run (hspaces m) hcs, h, Text.takeWhile_run (hspaces n) hds]
  have hlength : m = n := by simpa [spaces] using congrArg List.length hrun
  subst hlength
  exact ⟨rfl, List.append_cancel_left h⟩

theorem stops_ending (d : Directive) : Stops (· == ' ') d.ending := by
  unfold ending
  split <;> simp

/-- Behind the width two directives of one kind are written alike only with the same spaces. -/
theorem ending_inj {d d' : Directive} (hkind : d.kind = d'.kind)
    (hd : Side.wordOf? d.kind = none → d.afterComma = 0 ∧ d.afterKeyword = 0)
    (hd' : Side.wordOf? d'.kind = none → d'.afterComma = 0 ∧ d'.afterKeyword = 0)
    (h : d.ending = d'.ending) :
    d.afterComma = d'.afterComma ∧ d.afterKeyword = d'.afterKeyword := by
  cases hword : Side.wordOf? d.kind with
  | none =>
    obtain ⟨hcomma, hkeyword⟩ := hd hword
    obtain ⟨hcomma', hkeyword'⟩ := hd' (hkind ▸ hword)
    exact ⟨hcomma.trans hcomma'.symm, hkeyword.trans hkeyword'.symm⟩
  | some word =>
    have hstops : ∀ cs, Stops (· == ' ') (word.toList ++ cs) := by
      intro cs
      revert hword
      cases d.kind <;> rintro ⟨⟩ <;> exact stops_cons.2 (by decide)
    have hword' : Side.wordOf? d'.kind = some word := hkind ▸ hword
    simp only [ending, hword, hword', List.cons_append, List.append_assoc] at h
    obtain ⟨hcomma, hrest⟩ := spaces_inj (hstops _) (hstops _) (List.cons.inj h).2
    have hclose : Stops (· == ' ') [')'] := stops_cons.2 (by decide)
    obtain ⟨hkeyword, -⟩ := spaces_inj hclose hclose (List.append_cancel_left hrest)
    exact ⟨hcomma, hkeyword⟩

theorem print_inj {d d' : Directive} (hd : (Token.directive d).IsValid)
    (hd' : (Token.directive d').IsValid) (h : d.print = d'.print) : d = d' := by
  have hattempt := Token.attempt_print_directive hd []
  rw [h] at hattempt
  obtain ⟨-, hformat, -⟩ := hattempt.unique (Token.attempt_print_directive hd' []) rfl
  obtain ⟨hkind, hwidth⟩ : d.kind = d'.kind ∧ d.width = d'.width := by
    simpa [format, Int.natCast_inj] using hformat
  -- Each run of spaces ends at the digits or at the ending, so that both have the same number.
  have hstops : ∀ cs, Stops (· == ' ') (Nat.toDigits 10 d'.width ++ cs) := by
    intro cs
    obtain ⟨first, digits, heq, hfirst, -⟩ := Placeholder.isWidth_toDigits hd'.2.1
    rw [heq, List.cons_append, stops_cons, beq_eq_false_iff_ne]
    rintro rfl
    exact absurd hfirst (by decide)
  simp only [print, hkind, hwidth, List.cons_append, List.append_assoc, List.cons.injEq,
    true_and] at h
  obtain ⟨hopening, hrest⟩ := spaces_inj (hstops _) (hstops _) h
  obtain ⟨hafter, hending⟩ :=
    spaces_inj d.stops_ending d'.stops_ending (List.append_cancel_left hrest)
  obtain ⟨hcomma, hkeyword⟩ := ending_inj hkind hd.2.2.2 hd'.2.2.2 hending
  cases d
  cases d'
  simp_all

end Directive

namespace Token

theorem outcome?_eq_none {t : Token} (h : t.outcome? = none) : ∃ c, t = literal c := by
  cases t with
  | literal c => exact ⟨c, rfl⟩
  | lineFeed | percent | key | directive => cases h

theorem eq_literal {c : Char} {t : Token} (h : t.print = [c]) (hc : c ≠ '%') : t = literal c := by
  cases t with
  | literal d => rw [List.singleton_inj.1 h]
  | lineFeed | percent | key | directive => exact absurd (List.cons.inj h).1.symm hc

/-- A written form belongs to one token. -/
theorem eq_of_print_eq {t t' : Token} (ht : t.IsValid) (ht' : t'.IsValid)
    (h : t.print = t'.print) : t = t' := by
  cases hp : t.outcome? with
  | none =>
    obtain ⟨c, rfl⟩ := outcome?_eq_none hp
    exact (eq_literal h.symm ht).symm
  | some p =>
    cases hp' : t'.outcome? with
    | none =>
      obtain ⟨c, rfl⟩ := outcome?_eq_none hp'
      exact eq_literal h ht'
    | some p' =>
      obtain ⟨-, rfl, -⟩ := (attempt_print ht hp []).unique (attempt_print ht' hp' []) (by rw [h])
      have hout : t.outcome? = t'.outcome? := hp.trans hp'.symm
      -- Only directives can come to the same placeholder and be different tokens.
      cases t with
      | literal => cases hp
      | directive d =>
        cases t' with
        | directive d' => rw [Directive.print_inj ht ht' h]
        | literal | lineFeed | percent | key => cases hout
      | lineFeed | percent | key =>
        clear hp hp'
        cases t' <;> simp_all [outcome?]

end Token

/-- A lap has read a token. -/
structure Lap.IsToken (l : Lap) (t : Token) : Prop where
  isValid : t.IsValid
  /-- The lap consumes the written form of the token. -/
  print_eq : t.print = l.chars
  /-- It reports the events of the token. -/
  events_eq : l.events = Token.events l.source.start l.pending [t]
  /-- It leaves the format of the token. -/
  format_eq : l.format = t.leaves l.pending

/-- A lap has read what begins like a placeholder and is no token. -/
structure Lap.IsMalformed (l : Lap) : Prop where
  head?_eq : l.chars.head? = some '%'
  print_ne : ∀ t : Token, t.IsValid → t.print ≠ l.chars
  /-- It reports the whole stretch. -/
  events_eq : l.events = [.malformed l.source]
  /-- It sets no format. -/
  format_eq : l.format = l.pending ∨ l.format = Format.unset

theorem Token.isToken_lap {t : Token} (h : t.IsValid) (offset : Nat) (pending : Format) :
    (t.lap offset pending).IsToken t where
  isValid := h
  print_eq := (String.toList_ofList).symm
  events_eq := rfl
  format_eq := rfl

theorem Placeholder.Attempt.isMalformed_lap {used rest : List Char} {ofKey : Bool}
    (h : Attempt used (malformed ofKey) rest) (offset : Nat) (pending : Format) :
    ((malformed ofKey).lap offset pending used).IsMalformed where
  head?_eq := by
    rw [chars_lap, h.eq_cons, List.head?_cons]
  print_ne t ht := by
    rw [chars_lap]
    exact h.print_ne ht
  events_eq := rfl
  format_eq := by
    cases ofKey with
    | false => exact .inl rfl
    | true => exact .inr rfl

/-- Every lap of a course has read a token or what is none. -/
theorem Course.isToken_or_isMalformed {offset : Nat} {pending : Format} {cs rest : List Char}
    {laps : List Lap} (h : Course offset pending cs laps rest) :
    ∀ l ∈ laps, (∃ t, l.IsToken t) ∨ l.IsMalformed := by
  induction h with
  | done => exact fun l hl => nomatch hl
  | @literal offset pending c _ _ _ hc _ ih =>
    intro l hl
    rcases List.mem_cons.1 hl with rfl | hl
    · exact .inl ⟨.literal c, Token.isToken_lap (t := .literal c) hc offset pending⟩
    · exact ih l hl
  | @attempt offset pending used _ _ p _ ha _ ih =>
    intro l hl
    rcases List.mem_cons.1 hl with rfl | hl
    · by_cases hp : ∃ ofKey, p = .malformed ofKey
      · obtain ⟨ofKey, rfl⟩ := hp
        exact .inr (ha.isMalformed_lap offset pending)
      · obtain ⟨t, ht, rfl, hout⟩ := ha.exists_token fun ofKey h => hp ⟨ofKey, h⟩
        rw [← Token.lap_eq hout]
        exact .inl ⟨t, Token.isToken_lap ht offset pending⟩
    · exact ih l hl

namespace Template

/-- A scan recognises the written forms of tokens and nothing else. The scan of the written form of
tokens reports the events of these tokens, none of which is malformed. Conversely the laps of a scan
that returns follow one another, consume the template and report what the scan reports, and each of
them has read exactly one token or what is the written form of none. -/
theorem scan_recognises_tokens :
    (∀ ts : List Token, (∀ t ∈ ts, t.IsValid) →
      events (String.ofList (Token.printAll ts)) = .ok (Token.events 0 Format.unset ts)
        ∧ ∀ source, Event.malformed source ∉ Token.events 0 Format.unset ts)
    ∧ ∀ text es, events text = .ok es →
      Lap.Follow 0 Format.unset (laps text)
        ∧ (laps text).flatMap Lap.chars = text.toList
        ∧ (laps text).flatMap Lap.events = es
        ∧ ∀ l ∈ laps text,
          (∃ t, l.IsToken t ∧ ∀ t' : Token, t'.IsValid → t'.print = l.chars → t' = t)
            ∨ l.IsMalformed := by
  refine ⟨fun ts h => ⟨?_, fun source => Token.malformed_notMem_events source _ _ ts⟩, ?_⟩
  · have hcourse := Token.course_printAll h 0 Format.unset
    rw [← Token.flatMap_events_laps]
    exact events_of_course (by rwa [String.toList_ofList])
  · intro text es h
    obtain ⟨hcourse, rfl⟩ := course_laps h
    refine ⟨hcourse.follow, ?_, rfl, ?_⟩
    · rw [hcourse.eq_append, List.append_nil]
    · intro l hl
      refine (hcourse.isToken_or_isMalformed l hl).imp_left ?_
      rintro ⟨t, ht⟩
      refine ⟨t, ht, fun t' ht' hprint => ?_⟩
      exact Token.eq_of_print_eq ht' ht.isValid (hprint.trans ht.print_eq.symm)

/-- A cut at the beginning is a directive to the right only. -/
theorem scan_recognises_tokens_ltrunc :
    events "%>( 7,  ltrunc )%(a)%%" = .ok [.key "a" ⟨.rightLtrunc, 7⟩ ⟨16, "%(a)"⟩, .escape "%"]
      ∧ ∃ l ∈ laps "%<( 7,  ltrunc )%(a)", l.IsMalformed ∧ l.chars = "%<( 7,  ltrunc )".toList := by
  constructor
  · exact (scan_recognises_tokens.1
      [.directive ⟨.rightLtrunc, 7, 1, 0, 2, 1⟩, .key "a", .percent] (by decide +kernel)).1
  · have hevents : events "%<( 7,  ltrunc )%(a)"
        = .ok [.malformed ⟨0, "%<( 7,  ltrunc )"⟩, .key "a" Format.unset ⟨16, "%(a)"⟩] :=
      events_of_toOption (by decide +kernel)
    have hlaps : laps "%<( 7,  ltrunc )%(a)"
        = [⟨⟨0, "%<( 7,  ltrunc )"⟩, Format.unset, [.malformed ⟨0, "%<( 7,  ltrunc )"⟩],
            Format.unset⟩,
          ⟨⟨16, "%(a)"⟩, Format.unset, [.key "a" Format.unset ⟨16, "%(a)"⟩], Format.unset⟩] := by
      decide +kernel
    refine ⟨_, by rw [hlaps]; exact List.mem_cons_self, ?_, rfl⟩
    rcases (scan_recognises_tokens.2 _ _ hevents).2.2.2 _ (by rw [hlaps]; exact List.mem_cons_self)
      with ⟨t, ht, -⟩ | hmalformed
    · have hmem := ht.events_eq ▸ Token.malformed_notMem_events ⟨0, "%<( 7,  ltrunc )"⟩ _ _ [t]
      exact absurd List.mem_cons_self hmem
    · exact hmalformed

end Template

end PercentTemplate
