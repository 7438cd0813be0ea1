import PercentTemplate.Proofs.Template.Lap

/-!
# Recovery

Where a scan goes on behind an attempt that is given up. With two exceptions the attempt has consumed
the longest beginning of an outline (`Recovery`). The argument has three parts: what it has consumed
is a beginning (`Attempt.isBeginning`), every outline is consumed as a whole
(`Outline.exists_attempt`), and an attempt sees one character beyond what it consumes
(`Attempt.of_head?_eq`), so that a longer beginning would have been consumed as well.

Main statement: a scan goes on right behind the longest beginning
(`Template.scan_recovers_behind_longest_beginning`).
-/

namespace PercentTemplate

namespace Placeholder

open Text

/-- A text that begins with a percent sign and a character with which no form goes on. -/
def IsStranger (x : Char) (cs : List Char) : Prop :=
  x ∉ "(<>n%".toList ∧ ∃ tail, cs = '%' :: x :: tail

/-- A text that begins with a directive whose longest run of digits, `width`, names a number above
the bound. -/
def IsTooWide (side : Side) (before : Nat) (width cs : List Char) : Prop :=
  IsWidth width ∧ maxWidth < Integer.ofDigits width
    ∧ ∃ tail, cs = opening side before width 0 ++ tail ∧ Stops Char.isDigit tail

/-- The text `p` is the longest beginning of an outline with which the text `cs` begins. -/
structure IsLongestBeginning (cs p : List Char) : Prop where
  isPrefix : p <+: cs
  isBeginning : IsBeginning p
  length_le : ∀ q, q <+: cs → IsBeginning q → q.length ≤ p.length

/-- The attempt that is given up in the text `cs` has consumed `slice`. -/
structure Recovery (cs slice : List Char) : Prop where
  /-- The character that is in the way is consumed only right behind the percent sign. -/
  of_isStranger {x : Char} : IsStranger x cs → slice = ['%', x]
  /-- A width above its bound is consumed up to its last digit. -/
  of_isTooWide {side : Side} {before : Nat} {width : List Char} :
    IsTooWide side before width cs → slice = opening side before width 0
  /-- Apart from that it is the longest beginning. -/
  isLongestBeginning :
    (∀ x, ¬IsStranger x cs) → (∀ side before width, ¬IsTooWide side before width cs) →
      IsLongestBeginning cs slice

theorem opening_eq (side : Side) (before : Nat) (width : List Char) (after : Nat) :
    opening side before width after
      = opening side before width 0 ++ Directive.spaces after := by
  simp [opening, Directive.spaces]

/-! An attempt that is given up has consumed a beginning. -/

theorem Ending.isBeginning {side : Side} {value : Nat} {cs rest : List Char} {ofKey : Bool}
    (h : Ending side value cs (malformed ofKey) rest) (before : Nat) {width : List Char}
    (hwidth : IsWidth width) : IsBeginning (opening side before width 0 ++ cs) := by
  generalize hp : malformed ofKey = p at h
  cases h with
  | openWidth after =>
    refine ⟨[')'], ?_⟩
    rw [← opening_eq]
    exact .plain side before after hwidth
  | plain => cases hp
  | @openWord after comma last word _ hword =>
    refine ⟨[')'], ?_⟩
    have houtline := Outline.keyword side before after comma last hwidth hword
    rw [opening_eq] at houtline
    simpa [spaced] using houtline
  | @word after comma last word _ hword =>
    refine Outline.isBeginning ?_
    have houtline := Outline.keyword side before after comma last hwidth hword
    rw [opening_eq] at houtline
    simpa [spaced] using houtline

theorem Attempt.isBeginning {used rest : List Char} {ofKey : Bool}
    (h : Attempt used (malformed ofKey) rest) (hstranger : ∀ x, ¬IsStranger x (used ++ rest))
    (hwide : ∀ side before width, ¬IsTooWide side before width (used ++ rest)) :
    IsBeginning used := by
  have hone : IsWidth ['1'] := ⟨'1', [], rfl, by decide, fun _ hc => nomatch hc⟩
  generalize hp : malformed ofKey = p at h
  cases h with
  | alone => exact ⟨"()".toList, .key (show IsWord [] from fun _ hc => nomatch hc)⟩
  | @stranger x _ hx => exact absurd ⟨hx, _, rfl⟩ (hstranger x)
  | lineFeed | percent | key => cases hp
  | openKey hname => exact ⟨[')'], .key hname⟩
  | bare side => exact ⟨"(1)".toList, .plain side 0 0 hone⟩
  | noWidth side before =>
    refine ⟨"1)".toList, ?_⟩
    have houtline := Outline.plain side before 0 hone
    simpa [opening, Directive.spaces] using houtline
  | tooWide side before hwidth _ hmax hrest =>
    exact absurd ⟨hwidth, hmax, _, rfl, hrest⟩ (hwide side before _)
  | directive side before hwidth _ _ hend =>
    subst hp
    exact hend.isBeginning before hwidth

/-! An attempt sees one character beyond what it consumes. -/

theorem Ending.of_head?_eq {side : Side} {value : Nat} {cs rest rest' : List Char}
    {p : Placeholder} (h : Ending side value cs p rest) (hhead : rest'.head? = rest.head?) :
    Ending side value cs p rest' := by
  cases h with
  | openWidth after hrest => exact .openWidth after (hrest.of_head?_eq hhead)
  | plain after => exact .plain after
  | openWord after comma last hword hlast hchars hrest =>
    refine .openWord after comma last hword hlast (hchars.of_head?_eq ?_) (hrest.of_head?_eq hhead)
    rw [List.head?_append, List.head?_append, hhead]
  | word after comma last hword hlast => exact .word after comma last hword hlast

theorem Attempt.of_head?_eq {used rest rest' : List Char} {p : Placeholder}
    (h : Attempt used p rest) (hhead : rest'.head? = rest.head?) : Attempt used p rest' := by
  cases h with
  | alone => rw [List.head?_eq_none_iff.1 hhead]; exact .alone
  | stranger hx => exact .stranger hx
  | lineFeed => exact .lineFeed
  | percent => exact .percent
  | key hname => exact .key hname
  | openKey hname hrest => exact .openKey hname (hrest.of_head?_eq hhead)
  | bare side hrest => exact .bare side (hrest.of_head?_eq hhead)
  | noWidth side before hrest => exact .noWidth side before (hrest.of_head?_eq hhead)
  | tooWide side before hwidth hlength hmax hrest =>
    exact .tooWide side before hwidth hlength hmax (hrest.of_head?_eq hhead)
  | directive side before hwidth hmax hdigits hend =>
    refine .directive side before hwidth hmax (hdigits.of_head?_eq ?_) (hend.of_head?_eq hhead)
    rw [List.head?_append, List.head?_append, hhead]

/-! Every outline is consumed as a whole. -/

/-- Behind an empty word there are no spaces left. -/
theorem exists_spaced (comma last : Nat) (word : List Char) :
    ∃ comma' last', Directive.spaces comma ++ word ++ Directive.spaces last
      = spaced comma' word last' ∧ (word = [] → last' = 0) := by
  cases word with
  | nil =>
    refine ⟨comma + last, 0, ?_, fun _ => rfl⟩
    simp [spaced, Directive.spaces, List.replicate_append_replicate]
  | cons x word => exact ⟨comma, last, rfl, fun hnil => absurd hnil (List.cons_ne_nil x word)⟩

/-- An outline is a key placeholder or goes on behind its width as a directive does. -/
theorem Outline.cases_directive {cs : List Char} (h : Outline cs) :
    (∃ p, Attempt cs p []) ∨ ∃ side before width ending,
      cs = opening side before width 0 ++ ending ∧ IsWidth width ∧ Stops Char.isDigit ending
        ∧ ∃ p, Ending side (Integer.ofDigits width) ending p [] := by
  cases h with
  | key hname => exact .inl ⟨_, .key hname⟩
  | @plain side before after width hwidth =>
    refine .inr ⟨side, before, width, Directive.spaces after ++ [')'], ?_, hwidth, ?_, _,
      .plain after⟩
    · rw [opening_eq, List.append_assoc]
    · exact stops_spaces (by decide) after (stops_cons.2 (by decide))
  | @keyword side before after comma last width word hwidth hword =>
    obtain ⟨comma', last', hspaced, hlast⟩ := exists_spaced comma last word
    refine .inr ⟨side, before, width, Directive.spaces after ++ ',' :: spaced comma' word last'
      ++ [')'], ?_, hwidth, ?_, _, .word after comma' last' hword hlast⟩
    · rw [opening_eq, ← hspaced]
      simp
    · rw [List.append_assoc]
      exact stops_spaces (by decide) after (stops_cons.2 (by decide))

/-! Where an attempt is given up. -/

theorem Attempt.eq_of_isStranger {used rest : List Char} {p : Placeholder} {x : Char}
    (h : Attempt used p rest) (hstranger : IsStranger x (used ++ rest)) : used = ['%', x] := by
  obtain ⟨hx, tail, heq⟩ := hstranger
  have hattempt : Attempt ['%', x] (malformed false) tail := .stranger hx
  exact (h.unique hattempt heq).1

theorem Attempt.eq_of_isTooWide {used rest width : List Char} {p : Placeholder} {side : Side}
    {before : Nat} (h : Attempt used p rest)
    (hwide : IsTooWide side before width (used ++ rest)) : used = opening side before width 0 := by
  obtain ⟨hwidth, hmax, tail, heq, hstop⟩ := hwide
  by_cases hlength : width.length ≤ Integer.maxDigits
  · exact (h.unique (.tooWide side before hwidth hlength hmax hstop) heq).1
  · refine absurd ?_ (h.not_isRefused width.length)
    exact ⟨side, before, width, tail, heq, hwidth, rfl, Nat.lt_of_not_le hlength, hstop⟩

/-- An attempt consumes the whole of an outline, unless its width is above the bound. -/
theorem Attempt.rest_eq_nil {used rest : List Char} {p : Placeholder} (h : Attempt used p rest)
    (houtline : Outline (used ++ rest))
    (hwide : ∀ side before width, ¬IsTooWide side before width (used ++ rest)) : rest = [] := by
  have hwhole : ∃ p', Attempt (used ++ rest) p' [] := by
    rcases houtline.cases_directive with hkey | ⟨side, before, width, ending, heq, hwidth, hstop,
      p', hend⟩
    · exact hkey
    · by_cases hmax : Integer.ofDigits width ≤ maxWidth
      · rw [heq]
        exact ⟨p', .directive side before hwidth hmax (by rwa [List.append_nil]) hend⟩
      · exact absurd ⟨hwidth, Nat.lt_of_not_le hmax, ending, heq, hstop⟩ (hwide side before width)
  obtain ⟨p', hwhole⟩ := hwhole
  exact (h.unique hwhole (List.append_nil _).symm).2.2

theorem IsTooWide.of_head?_eq {side : Side} {before : Nat} {width used rest rest' : List Char}
    {p : Placeholder} (h : IsTooWide side before width (used ++ rest')) (ha : Attempt used p rest')
    (hhead : rest.head? = rest'.head?) : IsTooWide side before width (used ++ rest) := by
  obtain rfl := ha.eq_of_isTooWide h
  obtain ⟨hwidth, hmax, tail, heq, hstop⟩ := h
  obtain rfl := List.append_cancel_left heq
  exact ⟨hwidth, hmax, rest, rfl, hstop.of_head?_eq hhead⟩

/-- A beginning that is longer than what is consumed would be consumed as well. -/
theorem Attempt.length_le {used rest q : List Char} {p : Placeholder} (h : Attempt used p rest)
    (hwide : ∀ side before width, ¬IsTooWide side before width (used ++ rest))
    (hbegins : q <+: used ++ rest) (hq : IsBeginning q) : q.length ≤ used.length := by
  obtain ⟨tail, htail⟩ := hbegins
  rcases List.append_eq_append_iff.1 htail with ⟨more, rfl, -⟩ | ⟨more, rfl, hrest⟩
  · rw [List.length_append]
    omega
  · cases more with
    | nil => exact Nat.le_of_eq (by rw [List.append_nil])
    | cons x more =>
      -- The text that goes on like the outline has the same attempt, which stops inside the outline.
      obtain ⟨further, houtline⟩ := hq
      rw [List.append_assoc] at houtline
      have hhead : (x :: more ++ further).head? = rest.head? := by
        rw [hrest]
        rfl
      have ha := h.of_head?_eq hhead
      have hnil := ha.rest_eq_nil houtline fun side before width hw =>
        hwide side before width (hw.of_head?_eq ha hhead.symm)
      cases hnil

theorem Attempt.recovery {used rest : List Char} {ofKey : Bool}
    (h : Attempt used (malformed ofKey) rest) : Recovery (used ++ rest) used where
  of_isStranger := h.eq_of_isStranger
  of_isTooWide := h.eq_of_isTooWide
  isLongestBeginning hstranger hwide :=
    { isPrefix := List.prefix_append used rest
      isBeginning := h.isBeginning hstranger hwide
      length_le := fun _ hbegins hq => h.length_le hwide hbegins hq }

end Placeholder

open Placeholder (Attempt Recovery)

/-- Behind some of its laps a course goes on. -/
theorem Course.of_append {offset : Nat} {pending : Format} {cs rest : List Char}
    {before after : List Lap} (h : Course offset pending cs (before ++ after) rest) :
    ∃ format ds, cs = before.flatMap Lap.chars ++ ds
      ∧ Course (offset + (before.flatMap Lap.chars).length) format ds after rest := by
  induction before generalizing offset pending cs with
  | nil => exact ⟨pending, cs, rfl, h⟩
  | cons l before ih =>
    cases h with
    | literal hc h =>
      obtain ⟨format, ds, rfl, hds⟩ := ih h
      refine ⟨format, ds, by simp, ?_⟩
      simpa [Nat.add_assoc, Nat.add_comm] using hds
    | attempt ha h =>
      obtain ⟨format, ds, rfl, hds⟩ := ih h
      refine ⟨format, ds, by simp, ?_⟩
      simpa [Nat.add_assoc] using hds

/-- A percent sign at which a course goes on begins an attempt. -/
theorem Course.of_percent {offset : Nat} {pending : Format} {cs : List Char} {laps : List Lap}
    (h : Course offset pending ('%' :: cs) laps []) :
    ∃ used p rest more, '%' :: cs = used ++ rest ∧ Attempt used p rest
      ∧ laps = p.lap offset pending used :: more := by
  generalize hds : '%' :: cs = ds at h
  cases h with
  | done => cases hds
  | literal hc => exact absurd (List.cons.inj hds).1.symm hc
  | attempt ha h => exact ⟨_, _, _, _, rfl, ha, rfl⟩

namespace Template

/-- A scan that gives an attempt up has consumed the longest beginning, apart from two exceptions,
reports it and goes on with the very next character, which may begin another attempt. -/
theorem scan_recovers_behind_longest_beginning {text : String} {es : List Event}
    (h : events text = .ok es) {before after : List Lap} {l : Lap} {source : Stretch}
    (hlaps : laps text = before ++ l :: after) (hmalformed : l.events = [.malformed source]) :
    l.source = source
      ∧ Recovery (text.toList.drop source.start) source.text.toList
      ∧ after.flatMap Lap.chars = text.toList.drop (source.start + source.text.length)
      ∧ Lap.Follow (source.start + source.text.length) l.format after
      ∧ ∀ cs, text.toList.drop (source.start + source.text.length) = '%' :: cs →
        ∃ used p rest more, '%' :: cs = used ++ rest ∧ Attempt used p rest
          ∧ after = p.lap (source.start + source.text.length) l.format used :: more := by
  obtain ⟨hcourse, -⟩ := course_laps h
  rw [hlaps] at hcourse
  obtain ⟨pending, ds, htext, hds⟩ := hcourse.of_append
  rw [Nat.zero_add] at hds
  cases hds with
  | literal => cases hmalformed
  | @attempt _ _ used rest _ p _ ha hafter =>
    cases p with
    | escape | key | directive => cases hmalformed
    | malformed ofKey =>
      obtain rfl : ⟨(before.flatMap Lap.chars).length, String.ofList used⟩ = source := by
        simpa [Placeholder.lap, Placeholder.events] using hmalformed
      have hused : (String.ofList used).length = used.length := by
        rw [← String.length_toList, String.toList_ofList]
      have hrest : text.toList.drop ((before.flatMap Lap.chars).length + used.length) = rest := by
        rw [htext, ← List.append_assoc, ← List.length_append, List.drop_left]
      simp only [hused, hrest]
      refine ⟨rfl, ?_, ?_, hafter.follow, ?_⟩
      · rw [htext, List.drop_left, String.toList_ofList]
        exact ha.recovery
      · rw [hafter.eq_append, List.append_nil]
      · rintro cs rfl
        exact hafter.of_percent

/-- Behind a comma the percent sign in the way is not consumed and begins an escape. -/
theorem scan_recovers_behind_longest_beginning_comma :
    Recovery ("a%<( 5,%n".toList.drop 1) "%<( 5,".toList
      ∧ ∃ used p rest more, "%n".toList = used ++ rest ∧ Attempt used p rest
        ∧ [Lap.mk ⟨7, "%n"⟩ Format.unset [.escape "\n"] Format.unset]
          = p.lap 7 Format.unset used :: more := by
  have hevents : events "a%<( 5,%n"
      = .ok [.literal "a", .malformed ⟨1, "%<( 5,"⟩, .escape "\n"] :=
    events_of_toOption (by decide +kernel)
  have hlaps : laps "a%<( 5,%n" = [Lap.literal 0 Format.unset 'a']
      ++ ⟨⟨1, "%<( 5,"⟩, Format.unset, [.malformed ⟨1, "%<( 5,"⟩], Format.unset⟩
      :: [⟨⟨7, "%n"⟩, Format.unset, [.escape "\n"], Format.unset⟩] := by
    decide +kernel
  obtain ⟨-, hrecovery, -, -, hnext⟩ := scan_recovers_behind_longest_beginning hevents hlaps rfl
  exact ⟨hrecovery, hnext ['n'] rfl⟩

end Template

end PercentTemplate
