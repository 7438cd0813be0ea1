import PercentTemplate.Proofs.Text.Run
import PercentTemplate.Yaml.Source

/-!
# Going on in a YAML source

What is left of a source, its offset and its line after a stretch of a line, and after a line feed
(`Yaml.Source.IsAt`). The column does not matter between brackets.
-/

namespace PercentTemplate.Yaml

/-- A space or a line feed. -/
def isBlank (c : Char) : Bool := c = ' ' || c = '\n'

/-- Blanks are spaces up to the first line feed or the end. -/
theorem exists_spaces {blanks : List Char} (h : ∀ c ∈ blanks, isBlank c = true) :
    ∃ spaces lines, blanks = spaces ++ lines ∧ (∀ c ∈ spaces, c = ' ')
      ∧ (lines = [] ∨ ∃ lines', lines = '\n' :: lines' ∧ ∀ c ∈ lines', isBlank c = true) := by
  induction blanks with
  | nil => exact ⟨[], [], rfl, nofun, .inl rfl⟩
  | cons c blanks ih =>
    have hrest : ∀ d ∈ blanks, isBlank d = true := fun d hd => h d (List.mem_cons_of_mem c hd)
    have hc := h c List.mem_cons_self
    simp only [isBlank, Bool.or_eq_true, decide_eq_true_eq] at hc
    rcases hc with rfl | rfl
    · obtain ⟨spaces, lines, rfl, hspaces, hlines⟩ := ih hrest
      refine ⟨' ' :: spaces, lines, rfl, fun c hc => ?_, hlines⟩
      rcases List.mem_cons.1 hc with rfl | hc
      · rfl
      · exact hspaces c hc
    · exact ⟨[], _, rfl, nofun, .inr ⟨blanks, rfl, hrest⟩⟩

namespace Source

/-- The unread part of a source, its offset and its line. -/
structure IsAt (s : Source) (rest : List Char) (index line : Nat) : Prop where
  rest_eq : s.rest = rest
  index_eq : s.index = index
  line_eq : s.line = line

variable {s : Source} {c : Char} {cs front rest : List Char} {index line : Nat}

theorem isAt_ofChars (cs : List Char) : (ofChars cs).IsAt cs 0 0 := ⟨rfl, rfl, rfl⟩

theorem IsAt.peek_eq (h : s.IsAt (c :: cs) index line) : s.peek = c := by
  rw [peek, h.rest_eq]
  rfl

theorem IsAt.peekAt_one_eq {d : Char} (h : s.IsAt (c :: d :: cs) index line) :
    s.peekAt 1 = d := by
  rw [peekAt, h.rest_eq]
  rfl

theorem IsAt.peek_eq_endMark (h : s.IsAt [] index line) : s.peek = endMark := by
  rw [peek, h.rest_eq]
  rfl

theorem IsAt.advance (h : s.IsAt (c :: cs) index line) (hc : isBreak c = false) :
    s.advance.IsAt cs (index + 1) line := by
  obtain ⟨hrest, rfl, rfl⟩ := h
  rw [Source.advance, hrest]
  simp only [hc, Bool.false_and, Bool.false_eq_true, if_false]
  exact ⟨rfl, rfl, rfl⟩

theorem IsAt.advance_lineFeed (h : s.IsAt ('\n' :: cs) index line) :
    s.advance.IsAt cs (index + 1) (line + 1) := by
  obtain ⟨hrest, rfl, rfl⟩ := h
  rw [Source.advance, hrest]
  exact ⟨rfl, rfl, rfl⟩

theorem IsAt.skip (h : s.IsAt (front ++ rest) index line)
    (hfront : ∀ c ∈ front, isBreak c = false) :
    (s.skip front.length).IsAt rest (index + front.length) line := by
  induction front generalizing s index with
  | nil => exact h
  | cons c front ih =>
    have hstep := h.advance (hfront c List.mem_cons_self)
    have hrest := ih hstep fun d hd => hfront d (List.mem_cons_of_mem c hd)
    rw [List.length_cons, ← Nat.add_assoc, Nat.add_right_comm]
    exact hrest

/-- A run of a class in which no line ends. -/
theorem IsAt.takeWhile {p : Char → Bool} (h : s.IsAt (front ++ rest) index line)
    (hp : ∀ c ∈ front, p c = true) (hfront : ∀ c ∈ front, isBreak c = false)
    (hrest : Text.Stops p rest) :
    (s.takeWhile p).1 = front ∧ (s.takeWhile p).2.IsAt rest (index + front.length) line := by
  have hrun : s.rest.takeWhile p = front := by rw [h.rest_eq, Text.takeWhile_run hp hrest]
  refine ⟨hrun, ?_⟩
  rw [Source.takeWhile]
  simp only [hrun]
  exact h.skip hfront

theorem IsAt.lineBreak_eq_none (h : s.IsAt rest index line) (hrest : Text.Stops isBreak rest) :
    s.lineBreak = (none, s) := by
  rw [lineBreak, h.rest_eq]
  split
  · cases hrest '\r' rfl
  · rename_i c cs _
    have hc : isBreak c = false := Text.stops_cons.1 hrest
    have hseparator : (c = '\u2028' || c = '\u2029') = false := by
      rw [Bool.eq_false_iff]
      intro h
      rw [Bool.or_eq_true, decide_eq_true_eq, decide_eq_true_eq] at h
      rcases h with rfl | rfl <;> cases hc
    simp only [hseparator, hc, Bool.false_eq_true, if_false]
  · rfl

theorem IsAt.lineBreak_lineFeed (h : s.IsAt ('\n' :: cs) index line) :
    s.lineBreak = (some '\n', s.advance) := by
  rw [lineBreak, h.rest_eq]
  rfl

/-- The blanks in front of a text, line by line: either they are spaces, or a line feed ends the
spaces and more blanks follow. -/
theorem IsAt.exists_line {blanks : List Char} (h : s.IsAt (blanks ++ rest) index line)
    (hblanks : ∀ c ∈ blanks, isBlank c = true) (hspace : Text.Stops (· = ' ') rest)
    (hbreak : Text.Stops isBreak rest) :
    ∃ spaces s', s.takeWhile (· = ' ') = (spaces, s')
      ∧ ((blanks.count '\n' = 0 ∧ s'.IsAt rest (index + blanks.length) line
          ∧ s'.lineBreak = (none, s'))
        ∨ ∃ lines s'' index' line', s'.lineBreak = (some '\n', s'')
          ∧ s''.IsAt (lines ++ rest) index' line' ∧ (∀ c ∈ lines, isBlank c = true)
          ∧ lines.length < blanks.length ∧ index' + lines.length = index + blanks.length
          ∧ line' + lines.count '\n' = line + blanks.count '\n') := by
  obtain ⟨spaces, lines, rfl, hspaces, hlines⟩ := exists_spaces hblanks
  have hstops : Text.Stops (· = ' ') (lines ++ rest) := by
    rcases hlines with rfl | ⟨lines', rfl, -⟩
    · exact hspace
    · exact Text.stops_cons.2 rfl
  have hno : ∀ c ∈ spaces, isBreak c = false := by
    intro c hc
    rw [hspaces c hc]
    rfl
  have hcount : spaces.count '\n' = 0 := by
    refine List.count_eq_zero.2 fun hmem => ?_
    exact absurd (hspaces _ hmem) (by decide)
  rw [List.append_assoc] at h
  obtain ⟨htake, hafter⟩ := h.takeWhile (p := (· = ' ')) (by simpa using hspaces) hno hstops
  refine ⟨spaces, (s.takeWhile (· = ' ')).2, Prod.ext htake rfl, ?_⟩
  rcases hlines with rfl | ⟨lines', rfl, hlines'⟩
  · refine .inl ⟨?_, ?_, hafter.lineBreak_eq_none hbreak⟩
    · rwa [List.append_nil]
    · rwa [List.append_nil]
  · refine .inr ⟨lines', _, _, _, hafter.lineBreak_lineFeed, hafter.advance_lineFeed, hlines', ?_⟩
    rw [List.count_append, hcount, List.count_cons_self, List.length_append, List.length_cons]
    omega

end Source

end PercentTemplate.Yaml
