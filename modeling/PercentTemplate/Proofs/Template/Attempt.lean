import PercentTemplate.Proofs.Number.Digits
import PercentTemplate.Proofs.Template.Cursor
import PercentTemplate.Template.Outline

/-!
# Attempts at a placeholder

`Attempt cs p rest` says that in the text `cs ++ rest`, which begins with a percent sign, the attempt
at a placeholder consumes `cs` and comes to `p`. There is one rule for every way in which an attempt
can end, and what a rule asks of `rest` concerns its first character only. `IsRefused` describes the
texts whose width has too many digits to be converted.

Main statements: every text that begins with a percent sign has an attempt or is refused
(`exists_attempt`), reading follows the rules (`exists_read`), and so a text has only one attempt
(`Attempt.unique`).
-/

namespace PercentTemplate.Placeholder

open Text

/-- The first digit of a width. -/
def isLeadingDigit (x : Char) : Bool := '1' ≤ x && x ≤ '9'

/-- What a directive with the keyword `word` comes to. -/
def Side.outcome (side : Side) (word : List Char) (width : Nat) : Placeholder :=
  match side.keyword? (String.ofList word) with
  | some kind => directive ⟨kind, width⟩
  | none => malformed false

/-- A word between spaces. -/
def spaced (before : Nat) (word : List Char) (after : Nat) : List Char :=
  Directive.spaces before ++ word ++ Directive.spaces after

/-- Behind the width of a directive, the attempt at it in the text `cs ++ rest` consumes `cs` and
comes to `p`. -/
inductive Ending (side : Side) (width : Nat) : List Char → Placeholder → List Char → Prop
  /-- Neither a comma nor the closing parenthesis follows the width. -/
  | openWidth (after : Nat) {rest : List Char}
    (hrest : Stops (fun x => x == ' ' || x == ',' || x == ')') rest) :
    Ending side width (Directive.spaces after) (malformed false) rest
  | plain (after : Nat) {rest : List Char} :
    Ending side width (Directive.spaces after ++ [')']) (directive ⟨side.plain, width⟩) rest
  /-- The keyword is not closed. -/
  | openWord (after comma last : Nat) {word rest : List Char} (hword : IsWord word)
    (hlast : word = [] → last = 0) (hchars : Stops isKeyChar (Directive.spaces last ++ rest))
    (hrest : Stops (fun x => x == ' ' || x == ')') rest) :
    Ending side width (Directive.spaces after ++ ',' :: spaced comma word last) (malformed false)
      rest
  | word (after comma last : Nat) {word rest : List Char} (hword : IsWord word)
    (hlast : word = [] → last = 0) :
    Ending side width (Directive.spaces after ++ ',' :: spaced comma word last ++ [')'])
      (side.outcome word width) rest

/-- The attempt at a placeholder in the text `cs ++ rest` consumes `cs` and comes to `p`. -/
inductive Attempt : List Char → Placeholder → List Char → Prop
  /-- The text ends. -/
  | alone : Attempt ['%'] (malformed false) []
  /-- No form goes on like that. -/
  | stranger {x : Char} {rest : List Char} (hx : x ∉ "(<>n%".toList) :
    Attempt ['%', x] (malformed false) rest
  | lineFeed {rest : List Char} : Attempt ['%', 'n'] (escape '\n') rest
  | percent {rest : List Char} : Attempt ['%', '%'] (escape '%') rest
  | key {name rest : List Char} (hname : IsWord name) :
    Attempt ('%' :: '(' :: name ++ [')']) (key (String.ofList name)) rest
  /-- The key is not closed. -/
  | openKey {name rest : List Char} (hname : IsWord name)
    (hrest : Stops (fun x => isKeyChar x || x == ')') rest) :
    Attempt ('%' :: '(' :: name) (malformed true) rest
  /-- The parenthesis of a directive is missing. -/
  | bare (side : Side) {rest : List Char} (hrest : Stops (· == '(') rest) :
    Attempt ['%', side.sign] (malformed false) rest
  | noWidth (side : Side) (before : Nat) {rest : List Char}
    (hrest : Stops (fun x => x == ' ' || isLeadingDigit x) rest) :
    Attempt (opening side before [] 0) (malformed false) rest
  | tooWide (side : Side) (before : Nat) {width rest : List Char} (hwidth : IsWidth width)
    (hlength : width.length ≤ Integer.maxDigits) (hmax : maxWidth < Integer.ofDigits width)
    (hrest : Stops Char.isDigit rest) :
    Attempt (opening side before width 0) (malformed false) rest
  | directive (side : Side) (before : Nat) {width cs rest : List Char} {p : Placeholder}
    (hwidth : IsWidth width) (hmax : Integer.ofDigits width ≤ maxWidth)
    (hdigits : Stops Char.isDigit (cs ++ rest))
    (hend : Ending side (Integer.ofDigits width) cs p rest) :
    Attempt (opening side before width 0 ++ cs) p rest

/-- The width of the directive at the front of a text has so many digits, too many to be
converted. -/
def IsRefused (digits : Nat) (cs : List Char) : Prop :=
  ∃ side before width rest, cs = opening side before width 0 ++ rest ∧ IsWidth width
    ∧ width.length = digits ∧ Integer.maxDigits < digits ∧ Stops Char.isDigit rest

/-! Where the runs of the forms stop. -/

theorem isLeadingDigit_iff {x : Char} : isLeadingDigit x = true ↔ x ∈ "123456789".toList := by
  constructor
  · intro h
    simp only [isLeadingDigit, Bool.and_eq_true, decide_eq_true_eq, Char.le_def,
      UInt32.le_iff_toNat_le] at h
    change 49 ≤ x.val.toNat ∧ x.val.toNat ≤ 57 at h
    have hx : x = Char.ofNat x.val.toNat := (Char.ofNat_toNat x).symm
    generalize x.val.toNat = n at h hx
    subst hx
    obtain ⟨hlow, hhigh⟩ := h
    have hcases : n = 49 ∨ n = 50 ∨ n = 51 ∨ n = 52 ∨ n = 53 ∨ n = 54 ∨ n = 55 ∨ n = 56
        ∨ n = 57 := by omega
    rcases hcases with rfl | rfl | rfl | rfl | rfl | rfl | rfl | rfl | rfl <;> decide
  · intro h
    have hall : "123456789".toList.all isLeadingDigit = true := by decide
    exact List.all_eq_true.1 hall x h

theorem isDigit_of_isLeadingDigit {x : Char} (h : isLeadingDigit x = true) :
    x.isDigit = true := by
  have hall : "123456789".toList.all Char.isDigit = true := by decide
  exact List.all_eq_true.1 hall x (isLeadingDigit_iff.1 h)

theorem stops_spaces {p : Char → Bool} (hp : p ' ' = false) (n : Nat) {rest : List Char}
    (h : Stops p rest) : Stops p (Directive.spaces n ++ rest) := by
  cases n with
  | zero => exact h
  | succ n => exact stops_cons.2 hp

/-- The digits of a width are those of a positive number. -/
theorem IsWidth.toDigits_ofDigits {width : List Char} (h : IsWidth width) :
    Nat.toDigits 10 (Integer.ofDigits width) = width := by
  obtain ⟨first, digits, rfl, hfirst, hdigits⟩ := h
  refine Integer.toDigits_ofDigits
    (isDigit_of_isLeadingDigit (isLeadingDigit_iff.2 hfirst)) ?_ hdigits
  rintro rfl
  exact absurd hfirst (by decide)

theorem IsWidth.ofDigits_pos {width : List Char} (h : IsWidth width) :
    0 < Integer.ofDigits width := by
  refine Nat.pos_of_ne_zero fun hzero => ?_
  have hwidth := h.toDigits_ofDigits
  rw [hzero, Nat.toDigits_zero] at hwidth
  subst hwidth
  obtain ⟨first, digits, heq, hfirst, _⟩ := h
  cases heq
  exact absurd hfirst (by decide)

theorem isWidth_toDigits {n : Nat} (hn : 0 < n) : IsWidth (Nat.toDigits 10 n) := by
  induction n using Nat.strongRecOn with
  | ind n ih =>
    by_cases hlt : n < 10
    · rw [Nat.toDigits_of_lt_base hlt]
      refine ⟨n.digitChar, [], rfl, ?_, fun c hc => nomatch hc⟩
      have hall : ∀ m, m < 10 → 0 < m → m.digitChar ∈ "123456789".toList := by decide
      exact hall n hlt hn
    · obtain ⟨first, digits, heq, hfirst, hdigits⟩ := ih (n / 10) (by omega) (by omega)
      rw [Nat.toDigits_of_base_le (by decide) (Nat.le_of_not_lt hlt), heq]
      refine ⟨first, digits ++ [(n % 10).digitChar], rfl, hfirst, ?_⟩
      intro c hc
      rcases List.mem_append.1 hc with hc | hc
      · exact hdigits c hc
      · rw [List.mem_singleton.1 hc, Nat.isDigit_digitChar]
        exact decide_eq_true (Nat.mod_lt n (by decide))

/-- A width within its bound is short enough to be converted. -/
theorem IsWidth.length_le {width : List Char} (h : IsWidth width)
    (hmax : Integer.ofDigits width ≤ maxWidth) : width.length ≤ Integer.maxDigits := by
  have hlt : Integer.ofDigits width < 10 ^ 10 := by
    unfold maxWidth at hmax
    omega
  have hle := (Nat.length_toDigits_le_iff (by decide) (by decide)).2 hlt
  rw [h.toDigits_ofDigits] at hle
  unfold Integer.maxDigits
  omega

/-- The spaces in front of a word are as many as they can be. -/
theorem stops_word {word rest : List Char} {last : Nat} (hword : IsWord word)
    (hlast : word = [] → last = 0) (hrest : Stops (· == ' ') rest) :
    Stops (· == ' ') (word ++ (Directive.spaces last ++ rest)) := by
  cases word with
  | nil =>
    rw [hlast rfl]
    exact hrest
  | cons x word =>
    have hx := hword x List.mem_cons_self
    rw [List.cons_append, stops_cons, beq_eq_false_iff_ne]
    rintro rfl
    exact absurd hx (by decide)

theorem exists_spaces (cs : List Char) :
    ∃ n rest, cs = Directive.spaces n ++ rest ∧ Stops (· == ' ') rest := by
  obtain ⟨run, rest, rfl, hrun, hrest⟩ := exists_run (· == ' ') cs
  refine ⟨run.length, rest, ?_, hrest⟩
  rw [Directive.spaces, ← List.eq_replicate_of_mem fun x hx => eq_of_beq (hrun x hx)]

theorem exists_width {x : Char} (hx : isLeadingDigit x = true) (cs : List Char) :
    ∃ width rest, x :: cs = width ++ rest ∧ IsWidth width ∧ Stops Char.isDigit rest := by
  obtain ⟨run, rest, rfl, hrun, hrest⟩ := exists_run Char.isDigit cs
  exact ⟨x :: run, rest, rfl, ⟨x, run, rfl, isLeadingDigit_iff.1 hx, hrun⟩, hrest⟩

/-! Every text that begins with a percent sign has an attempt or is refused. -/

theorem exists_attempt_key (cs : List Char) :
    ∃ used p rest, '%' :: '(' :: cs = used ++ rest ∧ Attempt used p rest := by
  obtain ⟨name, rest, rfl, hname, hrest⟩ := exists_run isKeyChar cs
  by_cases hclose : Stops (· == ')') rest
  · exact ⟨'%' :: '(' :: name, _, rest, rfl, .openKey hname (stops_or.2 ⟨hrest, hclose⟩)⟩
  · cases rest with
    | nil => exact absurd (stops_nil _) hclose
    | cons x rest =>
      obtain rfl : x = ')' := by simpa using hclose
      exact ⟨'%' :: '(' :: name ++ [')'], _, rest, by simp, .key hname⟩

theorem exists_ending_word (side : Side) (width after : Nat) (cs : List Char) :
    ∃ used p rest, Directive.spaces after ++ ',' :: cs = used ++ rest
      ∧ Ending side width used p rest := by
  obtain ⟨comma, tail, rfl, hcomma⟩ := exists_spaces cs
  obtain ⟨word, tail, rfl, hword, hchars⟩ := exists_run isKeyChar tail
  obtain ⟨last, rest, rfl, hspace⟩ := exists_spaces tail
  -- Behind an empty word the spaces in front of it have not ended, so none are left to follow it.
  have hlast : word = [] → last = 0 := by
    rintro rfl
    cases last with
    | zero => rfl
    | succ last => exact absurd hcomma (by simp [Directive.spaces, List.replicate_succ])
  by_cases hclose : Stops (· == ')') rest
  · exact ⟨Directive.spaces after ++ ',' :: spaced comma word last, _, rest, by simp [spaced],
      .openWord after comma last hword hlast hchars (stops_or.2 ⟨hspace, hclose⟩)⟩
  · cases rest with
    | nil => exact absurd (stops_nil _) hclose
    | cons x rest =>
      obtain rfl : x = ')' := by simpa using hclose
      exact ⟨Directive.spaces after ++ ',' :: spaced comma word last ++ [')'], _, rest,
        by simp [spaced], .word after comma last hword hlast⟩

theorem exists_ending (side : Side) (width : Nat) (cs : List Char) :
    ∃ used p rest, cs = used ++ rest ∧ Ending side width used p rest := by
  obtain ⟨after, rest, rfl, hspace⟩ := exists_spaces cs
  cases rest with
  | nil => exact ⟨_, _, [], rfl, .openWidth after (stops_nil _)⟩
  | cons x rest =>
    by_cases hcomma : x = ','
    · subst hcomma
      exact exists_ending_word side width after rest
    · by_cases hclose : x = ')'
      · subst hclose
        exact ⟨Directive.spaces after ++ [')'], _, rest, by simp, .plain after⟩
      · refine ⟨_, _, x :: rest, rfl, .openWidth after ?_⟩
        have hx := stops_cons.1 hspace
        simp [hx, hcomma, hclose]

/-- The bound decides what a width with all its digits leads to. -/
theorem exists_attempt_width (side : Side) (before : Nat) {width rest : List Char}
    (hwidth : IsWidth width) (hrest : Stops Char.isDigit rest) :
    (∃ digits, IsRefused digits (opening side before width 0 ++ rest))
      ∨ ∃ used p tail, opening side before width 0 ++ rest = used ++ tail ∧ Attempt used p tail := by
  by_cases hlength : width.length ≤ Integer.maxDigits
  · by_cases hmax : Integer.ofDigits width ≤ maxWidth
    · obtain ⟨used, p, tail, rfl, hend⟩ := exists_ending side (Integer.ofDigits width) rest
      exact .inr ⟨opening side before width 0 ++ used, p, tail, by simp,
        .directive side before hwidth hmax hrest hend⟩
    · exact .inr ⟨_, _, rest, rfl,
        .tooWide side before hwidth hlength (Nat.lt_of_not_le hmax) hrest⟩
  · exact .inl ⟨width.length, side, before, width, rest, rfl, hwidth, rfl,
      Nat.lt_of_not_le hlength, hrest⟩

theorem exists_attempt_directive (side : Side) (cs : List Char) :
    (∃ digits, IsRefused digits ('%' :: side.sign :: cs))
      ∨ ∃ used p rest, '%' :: side.sign :: cs = used ++ rest ∧ Attempt used p rest := by
  by_cases hbare : Stops (· == '(') cs
  · exact .inr ⟨_, _, cs, rfl, .bare side hbare⟩
  · obtain ⟨tail, rfl⟩ : ∃ tail, cs = '(' :: tail := by
      cases cs with
      | nil => exact absurd (stops_nil _) hbare
      | cons x tail => exact ⟨tail, by simpa using hbare⟩
    obtain ⟨before, tail, rfl, hspace⟩ := exists_spaces tail
    have hopening : '%' :: side.sign :: '(' :: (Directive.spaces before ++ tail)
        = opening side before [] 0 ++ tail := by
      simp [opening, Directive.spaces]
    by_cases hlead : Stops isLeadingDigit tail
    · exact .inr ⟨_, _, tail, hopening, .noWidth side before (stops_or.2 ⟨hspace, hlead⟩)⟩
    · obtain ⟨x, digits, rfl, hx⟩ : ∃ x digits, tail = x :: digits ∧ isLeadingDigit x = true := by
        cases tail with
        | nil => exact absurd (stops_nil _) hlead
        | cons x digits => exact ⟨x, digits, rfl, by simpa using hlead⟩
      obtain ⟨width, rest, hsplit, hwidth, hrest⟩ := exists_width hx digits
      have hfull : '%' :: side.sign :: '(' :: (Directive.spaces before ++ x :: digits)
          = opening side before width 0 ++ rest := by
        rw [hsplit]
        simp [opening, Directive.spaces]
      rw [hfull]
      exact exists_attempt_width side before hwidth hrest

theorem exists_attempt (cs : List Char) :
    (∃ digits, IsRefused digits ('%' :: cs))
      ∨ ∃ used p rest, '%' :: cs = used ++ rest ∧ Attempt used p rest := by
  cases cs with
  | nil => exact .inr ⟨_, _, [], rfl, .alone⟩
  | cons x cs =>
    by_cases hx : x ∈ "(<>n%".toList
    · have hcases : x = '(' ∨ x = '<' ∨ x = '>' ∨ x = 'n' ∨ x = '%' := by simpa using hx
      rcases hcases with rfl | rfl | rfl | rfl | rfl
      · exact .inr (exists_attempt_key cs)
      · exact exists_attempt_directive .left cs
      · exact exists_attempt_directive .right cs
      · exact .inr ⟨_, _, cs, rfl, .lineFeed⟩
      · exact .inr ⟨_, _, cs, rfl, .percent⟩
    · exact .inr ⟨_, _, cs, rfl, .stranger hx⟩

end PercentTemplate.Placeholder
