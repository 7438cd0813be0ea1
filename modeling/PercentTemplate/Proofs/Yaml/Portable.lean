import PercentTemplate.Proofs.Json.Words
import PercentTemplate.Proofs.Yaml.Plain

/-!
# Texts that JSON and YAML read alike

What a JSON text has to keep to so that it is the same document as YAML (`Yaml.IsPortable`). The
property passes on to what is left behind a word, so a reading can go word by word.
-/

namespace PercentTemplate.Yaml

open Json.Token (IsBody IsPair IsSpelled Word isSpace lex next words)

/-- A number with a point whose exponent, if there is one, has a sign. -/
def IsPointed (spelling : List Char) : Prop :=
  '.' ∈ spelling ∧ ∀ front e rest, spelling = front ++ e :: rest → e = 'e' ∨ e = 'E' →
    ∃ sign digits, rest = sign :: digits ∧ (sign = '+' ∨ sign = '-')

/-- What a JSON text keeps to for the sake of YAML: its characters are printable ones without tabs
and without line ends other than the line feed, no two escapes make up one character, numbers with
a fraction or an exponent have a point and a sign at the exponent, and the colon behind a name is on
the line on which the name begins, at most 1024 characters from there. -/
structure IsPortable (cs : List Char) : Prop where
  plain : ∀ c ∈ cs, isPrintable c = true ∧ c ≠ '\t' ∧ (isBreak c = true → c = '\n')
  text : ∀ w ∈ words cs, ∀ body codes, w.spelling = '"' :: (body ++ ['"']) → IsBody body codes →
    ∀ front high low rest, codes = front ++ high :: low :: rest → ¬IsPair high low
  float : ∀ w ∈ words cs, ∀ x, w.token = .scalar (.float x) → IsPointed w.spelling
  key : ∀ front w colon rest, words cs = front ++ w :: colon :: rest → colon.token = .mark ':' →
    '\n' ∉ colon.blanks ∧ w.spelling.length + colon.blanks.length ≤ 1024

variable {cs blanks spelling rest : List Char} {t : Json.Token}

theorem IsPortable.isBlank {c : Char} (h : IsPortable cs) (hc : c ∈ cs)
    (hspace : isSpace c = true) : isBlank c = true := by
  obtain ⟨-, htab, hbreak⟩ := h.plain c hc
  simp only [isSpace, Bool.or_eq_true, decide_eq_true_eq] at hspace
  rcases hspace with ((rfl | rfl) | rfl) | rfl
  · rfl
  · exact absurd rfl htab
  · exact absurd (hbreak rfl) (by decide)
  · rfl

/-- What is behind the first word of a portable text is portable. -/
theorem IsPortable.of_next (h : IsPortable (blanks ++ (spelling ++ rest)))
    (hblanks : ∀ c ∈ blanks, isSpace c = true) (hstop : Text.Stops isSpace (spelling ++ rest))
    (hspelled : IsSpelled t spelling) (hnext : next (spelling ++ rest) = (t, rest)) :
    IsPortable rest := by
  have hwords := Json.Token.words_of_next hblanks hstop hspelled hnext
  exact {
    plain := fun c hc => h.plain c (by simp [hc])
    text := fun w hw => h.text w (hwords ▸ List.mem_cons_of_mem _ hw)
    float := fun w hw => h.float w (hwords ▸ List.mem_cons_of_mem _ hw)
    key := fun front w colon more heq =>
      h.key (_ :: front) w colon more (by rw [hwords, heq]; rfl) }

/-- Blanks in front of a portable text do not matter. -/
theorem IsPortable.of_blanks (h : IsPortable (blanks ++ rest))
    (hblanks : ∀ c ∈ blanks, isSpace c = true) (hstop : Text.Stops isSpace rest) :
    IsPortable rest := by
  cases rest with
  | nil =>
    exact {
      plain := nofun
      text := nofun
      float := nofun
      key := fun front w colon more heq => by cases front <;> cases heq }
  | cons c rest =>
    obtain ⟨w, ws, hwords, hwords'⟩ :=
      Json.Token.exists_words_of_blanks hblanks (Text.stops_cons.1 hstop)
    exact {
      plain := fun d hd => h.plain d (List.mem_append_right _ hd)
      text := by
        have htext := h.text
        rw [hwords', List.forall_mem_cons] at htext
        rw [hwords, List.forall_mem_cons]
        exact htext
      float := by
        have hfloat := h.float
        rw [hwords', List.forall_mem_cons] at hfloat
        rw [hwords, List.forall_mem_cons]
        exact hfloat
      key := by
        -- Only the blanks of the first word differ, and no colon is the first word.
        intro front v colon more heq
        rw [hwords] at heq
        cases front with
        | nil =>
          obtain ⟨rfl, htail⟩ := List.cons.inj heq
          exact h.key [] { w with blanks := blanks } colon more (by rw [hwords', htail]; rfl)
        | cons first front =>
          exact h.key ({ w with blanks := blanks } :: front) v colon more
            (by rw [hwords', (List.cons.inj heq).2]; rfl) }

end PercentTemplate.Yaml
