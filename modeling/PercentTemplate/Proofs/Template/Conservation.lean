import PercentTemplate.Proofs.Template.Language

/-!
# Conservation of the text

The laps of a scan cut the template into consecutive stretches, and what a lap reports is determined
by its stretch (`Lap.IsFaithful`).

Main statement: a scan loses, repeats and moves no character (`Template.scan_conserves_text`).
-/

namespace PercentTemplate

open Placeholder (Side)

/-- What a lap reports is determined by the stretch that it consumes. -/
structure Lap.IsFaithful (l : Lap) : Prop where
  chars_ne_nil : l.chars ≠ []
  length_events_le : l.events.length ≤ 1
  /-- A literal is one character that is no percent sign. -/
  literal_iff (text : String) :
    l.events = [.literal text] ↔ ∃ c, c ≠ '%' ∧ l.chars = [c] ∧ text = String.singleton c
  /-- There are two escapes. -/
  escape_iff (text : String) :
    l.events = [.escape text]
      ↔ l.chars = "%n".toList ∧ text = "\n" ∨ l.chars = "%%".toList ∧ text = "%"
  /-- A key stands between the parentheses of its placeholder. -/
  of_key (name : String) (format : Format) (source : Stretch) :
    l.events = [.key name format source] →
      l.chars = "%(".toList ++ name.toList ++ ")".toList ∧ format = l.pending
        ∧ source = l.source
  /-- What is malformed is reported as a whole, from its percent sign on. -/
  of_malformed (source : Stretch) :
    l.events = [.malformed source] → source = l.source ∧ l.chars.head? = some '%'
  /-- Only a directive is not reported. -/
  of_nil : l.events = [] →
    ∃ d : Directive, (Token.directive d).IsValid ∧ d.print = l.chars ∧ l.format = d.format

/-- A directive is no escape. -/
theorem Directive.print_eq_cons (d : Directive) :
    ∃ x cs, d.print = '%' :: x :: cs ∧ x ≠ 'n' ∧ x ≠ '%' := by
  refine ⟨(Side.ofKind d.kind).sign, _, rfl, ?_⟩
  cases Side.ofKind d.kind <;> decide

namespace Lap

variable {l : Lap}

theorem IsToken.isFaithful {t : Token} (h : l.IsToken t) : l.IsFaithful := by
  obtain ⟨hvalid, hprint, hevents, hformat⟩ := h
  cases t with
  | literal c =>
    constructor
    case literal_iff =>
      intro text
      simp only [hevents, ← hprint, Token.events, Token.print]
      constructor
      · intro hliteral
        exact ⟨c, hvalid, rfl, by simpa using hliteral.symm⟩
      · rintro ⟨d, -, hd, rfl⟩
        rw [List.singleton_inj.1 hd]
    all_goals simp [hevents, ← hprint, Token.events, Token.print]
  | lineFeed | percent =>
    constructor
    case escape_iff =>
      intro text
      simp [hevents, ← hprint, Token.events, Token.print, eq_comm]
    all_goals simp [hevents, ← hprint, Token.events, Token.print]
  | key name =>
    constructor
    case of_key =>
      intro name' format source hkey
      have hsource : l.source = ⟨l.source.start, String.ofList (Token.key name).print⟩ := by
        rw [hprint, chars, String.ofList_toList]
      simp only [hevents, Token.events, List.cons.injEq, Event.key.injEq, and_true] at hkey
      obtain ⟨rfl, rfl, rfl⟩ := hkey
      exact ⟨by simp [← hprint, Token.print], rfl, hsource.symm⟩
    all_goals simp [hevents, ← hprint, Token.events, Token.print]
  | directive d =>
    have hnil : l.events = [] := hevents
    obtain ⟨x, cs, hcons, hlineFeed, hpercent⟩ := d.print_eq_cons
    have hchars : l.chars = '%' :: x :: cs := hprint.symm.trans hcons
    constructor
    case of_nil => exact fun _ => ⟨d, hvalid, hprint, hformat⟩
    all_goals simp [hnil, hchars, hlineFeed, hpercent]

theorem IsMalformed.isFaithful (h : l.IsMalformed) : l.IsFaithful := by
  obtain ⟨hhead, hne, hevents, -⟩ := h
  have hescape : l.chars ≠ ['%', 'n'] ∧ l.chars ≠ ['%', '%'] :=
    ⟨(hne .lineFeed trivial).symm, (hne .percent trivial).symm⟩
  constructor
  case chars_ne_nil =>
    intro hnil
    rw [hnil] at hhead
    cases hhead
  case literal_iff =>
    intro text
    have hliteral : ∀ c, c ≠ '%' → l.chars ≠ [c] := fun c hc => (hne (.literal c) hc).symm
    simp only [hevents, List.cons.injEq, reduceCtorEq, and_true, false_iff]
    rintro ⟨c, hc, hchars, -⟩
    exact hliteral c hc hchars
  case of_malformed =>
    intro source hsource
    rw [hevents] at hsource
    exact ⟨by simpa using hsource.symm, hhead⟩
  all_goals simp [hevents, hescape]

/-- Laps that consume something are no more than the characters that they consume. -/
theorem length_le_length_chars {laps : List Lap} (h : ∀ l ∈ laps, l.chars ≠ []) :
    laps.length ≤ (laps.flatMap chars).length := by
  induction laps with
  | nil => exact Nat.le_refl 0
  | cons l laps ih =>
    have hrest := ih fun x hx => h x (List.mem_cons_of_mem l hx)
    have hl := List.length_pos_iff.2 (h l List.mem_cons_self)
    rw [List.flatMap_cons, List.length_append, List.length_cons]
    omega

end Lap

theorem Course.isFaithful {offset : Nat} {pending : Format} {cs rest : List Char}
    {laps : List Lap} (h : Course offset pending cs laps rest) : ∀ l ∈ laps, l.IsFaithful := by
  intro l hl
  rcases h.isToken_or_isMalformed l hl with ⟨t, ht⟩ | hmalformed
  · exact ht.isFaithful
  · exact hmalformed.isFaithful

namespace Template

/-- No character of a template is lost, repeated or moved. The laps of a scan that returns follow one
another from the beginning of the template to its end, each one consumes something and reports what
its stretch determines, and a scan for any purpose goes through them and stops behind the last
one. -/
theorem scan_conserves_text {text : String} {es : List Event} (h : events text = .ok es) :
    (laps text).flatMap Lap.chars = text.toList
      ∧ (laps text).flatMap Lap.events = es
      ∧ Lap.Follow 0 Format.unset (laps text)
      ∧ (laps text).length ≤ text.length
      ∧ (∀ l ∈ laps text, l.IsFaithful)
      ∧ ∀ {σ β : Type} (i : Interpretation σ β) (values : Mapping) (tracing : Bool), ∃ last,
        Session.Runs i (Session.start i values text tracing) (laps text) last
          ∧ (Session.start i values text tracing).scan i = (last, none)
          ∧ last.cursor.position = text.length := by
  obtain ⟨hcourse, rfl⟩ := course_laps h
  have hchars : (laps text).flatMap Lap.chars = text.toList := by
    rw [hcourse.eq_append, List.append_nil]
  have hfaithful : ∀ l ∈ laps text, l.IsFaithful := by
    intro l hl
    rcases hcourse.isToken_or_isMalformed l hl with ⟨t, ht⟩ | hmalformed
    · exact ht.isFaithful
    · exact hmalformed.isFaithful
  refine ⟨hchars, rfl, hcourse.follow, ?_, hfaithful, ?_⟩
  · have hlength := Lap.length_le_length_chars fun l hl => (hfaithful l hl).chars_ne_nil
    rwa [hchars, String.length_toList] at hlength
  · intro σ β i values tracing
    obtain ⟨last, hruns, -, hrest⟩ := exists_runs_start i values tracing hcourse
    refine ⟨last, hruns, ?_, ?_⟩
    · rw [hruns.scan_eq, Session.scan_of_rest_eq_nil i hrest]
    · have hstart : (Session.start i values text tracing).cursor.position = 0 := rfl
      rw [hruns.position_eq, hstart, hchars, String.length_toList, Nat.zero_add]

/-- A directive, a key that is not closed, and the escape that is in its way. -/
theorem scan_conserves_text_openKey :
    (laps "x%>( 2)%(a%%").flatMap Lap.chars = "x%>( 2)%(a%%".toList
      ∧ (laps "x%>( 2)%(a%%").flatMap Lap.events
        = [.literal "x", .malformed ⟨7, "%(a"⟩, .escape "%"]
      ∧ ∀ l ∈ laps "x%>( 2)%(a%%", l.IsFaithful := by
  have hevents : events "x%>( 2)%(a%%"
      = .ok [.literal "x", .malformed ⟨7, "%(a"⟩, .escape "%"] :=
    events_of_toOption (by decide +kernel)
  obtain ⟨hchars, hes, -, -, hfaithful, -⟩ := scan_conserves_text hevents
  exact ⟨hchars, hes, hfaithful⟩

end Template

end PercentTemplate
