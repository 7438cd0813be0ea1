import PercentTemplate.Proofs.Template.Cursor

/-!
# Looking ahead

A cursor remembers where it has looked and reads the next character from there. Nobody can tell: in
whatever order a cursor is used, it answers like a plain one, which remembers nothing. What carries
this through is that the place remembered is always the position (`Cursor.IsSound`).

Main statement: operations in any order come to what they come to on a plain cursor, and looks ahead
can be put in and left out (`Cursor.lookahead_leaves_no_trace`).
-/

namespace PercentTemplate

namespace PlainCursor

theorem advance_of_peek_eq_some {c : PlainCursor} {x : Char} (h : c.peek = some x) :
    c.advance = { c with position := c.position + 1 } := by
  obtain ⟨hlt, -⟩ := List.getElem?_eq_some_iff.1 h
  exact if_pos hlt

theorem advance_of_peek_eq_none {c : PlainCursor} (h : c.peek = none) : c.advance = c := by
  have hle : c.text.length ≤ c.position := List.getElem?_eq_none_iff.1 h
  exact if_neg (Nat.not_lt.2 hle)

theorem text_advance (c : PlainCursor) : c.advance.text = c.text := by
  unfold advance
  split <;> rfl

/-- No operation changes the text. -/
theorem text_perform (c : PlainCursor) (step : Cursor.Step) : (c.perform step).2.text = c.text := by
  cases step with
  | peek | mark | slice | drain => rfl
  | next => exact c.text_advance
  | iterate =>
    simp only [perform]
    split
    · exact c.text_advance
    · rfl

end PlainCursor

namespace Cursor

variable {c d : Cursor}

/-- The cursor behind a sequence of operations. -/
def behind (c : Cursor) (steps : List Step) : Cursor :=
  steps.foldl (fun c step => (c.perform step).2) c

/-- What the operations that are no looks ahead give back, each with the place and the mark behind
it. -/
def observations (c : Cursor) (steps : List Step) : List (Answer × PlainCursor) :=
  ((steps.zip (c.performAll steps)).filter fun row => row.1 != .peek).map
    fun row => (row.2.1, row.2.2.plain)

theorem Reads.plain_eq {cs : List Char} (h : c.Reads cs d) :
    d.plain = { c.plain with position := c.position + cs.length } := by
  rw [plain, h.text_eq, h.marked_eq, h.position_eq]
  rfl

theorem plain_sliceFromMark (c : Cursor) : c.plain.sliceFromMark = c.sliceFromMark := by
  -- One of them cuts an array, the other one the list of its elements.
  unfold sliceFromMark PlainCursor.sliceFromMark
  show c.marked.map _ = c.marked.map _
  congr 1
  funext m
  rw [slice, Array.toList_extract, List.extract_eq_take_drop, ← List.drop_take]
  rfl

namespace IsSound

theorem rest_eq (h : c.IsSound) : c.rest = c.plain.text.drop c.plain.position := by
  rw [rest, h.offset_eq]
  rfl

theorem peek_plain (h : c.IsSound) : c.plain.peek = c.rest.head? := by
  rw [h.rest_eq, List.head?_drop]
  rfl

theorem mark (h : c.IsSound) : c.mark.IsSound := by
  refine ⟨h.offset_eq, h.position_le, ?_⟩
  intro m hm
  cases hm
  exact Nat.le_refl _

theorem lookahead_eq (h : c.IsSound) : c.lookahead = none ∨ c.lookahead = some c.position := by
  have hoffset : c.lookahead.getD c.position = c.position := h.offset_eq
  cases hlook : c.lookahead with
  | none => exact .inl rfl
  | some n =>
    rw [hlook] at hoffset
    exact .inr (congrArg some hoffset)

/-- Reading takes the character at the position, whether or not the cursor has looked at it. -/
theorem next_eq (h : c.IsSound) :
    c.next.1 = c.plain.peek ∧ c.next.2.plain = c.plain.advance ∧ c.next.2.IsSound := by
  cases hrest : c.rest with
  | nil =>
    have hpeek : c.plain.peek = none := by
      rw [h.peek_plain, hrest]
      rfl
    obtain ⟨d, hd, hreads⟩ := exists_next_end h hrest
    rw [hd, hpeek, PlainCursor.advance_of_peek_eq_none hpeek]
    exact ⟨rfl, hreads.plain_eq, hreads.isSound h⟩
  | cons x cs =>
    have hpeek : c.plain.peek = some x := by
      rw [h.peek_plain, hrest]
      rfl
    obtain ⟨d, hd, hreads⟩ := exists_next h.offset_eq hrest
    rw [hd, hpeek, PlainCursor.advance_of_peek_eq_some hpeek]
    exact ⟨rfl, hreads.plain_eq, hreads.isSound h⟩

/-- Draining gives what is left and leaves the cursor at the end of the text. -/
theorem drain_eq (h : c.IsSound) :
    c.drain = (c.rest, { c with position := c.text.size, lookahead := none }) := by
  -- A run that no character stops goes to the end of the text.
  obtain ⟨d, hd, hreads⟩ := exists_run (p := fun _ => true) h.offset_eq
    (List.append_nil c.rest).symm (fun _ _ => rfl) (Text.stops_nil _)
  have hend : d.rest = [] := hreads.rest_of (List.append_nil c.rest).symm
  rw [drain, hd]
  dsimp only
  rw [advance, next_of_rest_eq_nil hend, hreads.text_eq, hreads.marked_eq]

/-- Draining is reading one character after the other until there is none. -/
theorem drain_eq_next (h : c.IsSound) :
    c.drain = match c.next with
      | (some x, d) => (x :: d.drain.1, d.drain.2)
      | (none, d) => ([], d) := by
  cases hrest : c.rest with
  | nil => rw [next_of_rest_eq_nil hrest, h.drain_eq, hrest]
  | cons x cs =>
    obtain ⟨d, hd, hreads⟩ := exists_next h.offset_eq hrest
    rw [hd, h.drain_eq]
    dsimp only
    rw [(hreads.isSound h).drain_eq, hrest, hreads.rest_cons hrest, hreads.text_eq,
      hreads.marked_eq]

/-- Every operation comes to what it comes to on the plain cursor. -/
theorem perform_eq (h : c.IsSound) (step : Step) :
    (c.perform step).1 = (c.plain.perform step).1
      ∧ (c.perform step).2.plain = (c.plain.perform step).2 ∧ (c.perform step).2.IsSound := by
  obtain ⟨hchar, hplain, hsound⟩ := h.next_eq
  cases step with
  | peek =>
    refine ⟨?_, rfl, (reads_peek h.offset_eq).isSound h⟩
    show Answer.character c.peek.1 = .character c.plain.peek
    rw [h.peek_plain, peek_fst]
  | next => exact ⟨congrArg Answer.character hchar, hplain, hsound⟩
  | mark => exact ⟨rfl, rfl, h.mark⟩
  | slice => exact ⟨congrArg Answer.text c.plain_sliceFromMark.symm, rfl, h⟩
  | iterate =>
    cases hx : c.plain.peek with
    | none =>
      -- At the end the plain cursor is left as it is.
      have hnext : c.next = (none, c.next.2) := Prod.ext (hchar.trans hx) rfl
      rw [PlainCursor.advance_of_peek_eq_none hx] at hplain
      simp only [perform, PlainCursor.perform, hx]
      rw [hnext]
      exact ⟨rfl, hplain, hsound⟩
    | some x =>
      have hnext : c.next = (some x, c.next.2) := Prod.ext (hchar.trans hx) rfl
      simp only [perform, PlainCursor.perform, hx]
      rw [hnext]
      exact ⟨rfl, hplain, hsound⟩
  | drain =>
    simp only [perform, PlainCursor.perform, h.drain_eq, h.rest_eq]
    refine ⟨trivial, rfl, rfl, Nat.le_refl _, ?_⟩
    intro m hm
    exact Nat.le_trans (h.marked_le m hm) h.position_le

end IsSound

/-! A sequence of operations. -/

theorem isSound_behind (h : c.IsSound) (steps : List Step) : (c.behind steps).IsSound := by
  induction steps generalizing c with
  | nil => exact h
  | cons step steps ih => exact ih (h.perform_eq step).2.2

/-- A sequence of operations comes to what it comes to on the plain cursor. -/
theorem map_performAll (h : c.IsSound) (steps : List Step) :
    (c.performAll steps).map (fun row => (row.1, row.2.plain)) = c.plain.performAll steps := by
  induction steps generalizing c with
  | nil => rfl
  | cons step steps ih =>
    obtain ⟨hanswer, hplain, hsound⟩ := h.perform_eq step
    rw [performAll, PlainCursor.performAll, List.map_cons, ih hsound, hanswer, hplain]

theorem observations_cons (c : Cursor) {step : Step} (h : step ≠ .peek) (steps : List Step) :
    c.observations (step :: steps)
      = ((c.perform step).1, (c.perform step).2.plain) :: (c.perform step).2.observations steps := by
  simp [observations, performAll, h]

/-- Of a sequence of operations one sees what the plain cursor gives without the looks ahead. -/
theorem observations_eq (h : c.IsSound) (steps : List Step) :
    c.observations steps = c.plain.performAll (steps.filter (· != .peek)) := by
  induction steps generalizing c with
  | nil => rfl
  | cons step steps ih =>
    obtain ⟨hanswer, hplain, hsound⟩ := h.perform_eq step
    have htail := ih hsound
    by_cases hstep : step = .peek
    · -- A look ahead leaves the plain cursor alone.
      subst hstep
      exact htail
    · rw [observations_cons c hstep, htail, hanswer, hplain]
      simp [PlainCursor.performAll, hstep]

/-- Where a sequence of operations leads the plain cursor goes without the looks ahead. -/
theorem plain_behind (h : c.IsSound) (steps : List Step) :
    (c.behind steps).plain
      = (steps.filter (· != .peek)).foldl (fun p step => (p.perform step).2) c.plain := by
  induction steps generalizing c with
  | nil => rfl
  | cons step steps ih =>
    obtain ⟨-, hplain, hsound⟩ := h.perform_eq step
    have htail := ih hsound
    rw [hplain] at htail
    by_cases hstep : step = .peek
    · subst hstep
      exact htail
    · simpa [behind, hstep] using htail

theorem text_behind (h : c.IsSound) (steps : List Step) : (c.behind steps).text = c.text := by
  induction steps generalizing c with
  | nil => rfl
  | cons step steps ih =>
    obtain ⟨-, hplain, hsound⟩ := h.perform_eq step
    have htext : (c.perform step).2.plain.text = c.plain.text := by
      rw [hplain, PlainCursor.text_perform]
    exact (ih hsound).trans (Array.toList_inj.1 htext)

/-- Whatever is done with a cursor, and in whatever order, it answers as a plain cursor does and stands
where that one stands. The place it remembers is the position, the mark is not behind the position
and the position not behind the end; draining it is reading to the end. Looks ahead can be put in and
left out anywhere: the other operations come to the same, and so does the place in the end. -/
theorem lookahead_leaves_no_trace (s : String) (steps : List Step) :
    ((ofString s).performAll steps).map (fun row => (row.1, row.2.plain))
        = (PlainCursor.ofString s).performAll steps
      ∧ (∀ c, (ofString s).behind steps = c →
        (c.lookahead = none ∨ c.lookahead = some c.position)
          ∧ (∀ m, c.marked = some m → m ≤ c.position)
          ∧ c.position ≤ s.length
          ∧ c.drain = match c.next with
            | (some x, d) => (x :: d.drain.1, d.drain.2)
            | (none, d) => ([], d))
      ∧ ∀ steps', steps'.filter (· != .peek) = steps.filter (· != .peek) →
        (ofString s).observations steps' = (ofString s).observations steps
          ∧ ((ofString s).behind steps').plain = ((ofString s).behind steps).plain := by
  have hstart : (ofString s).IsSound := isSound_ofString s
  refine ⟨?_, ?_, ?_⟩
  · rw [map_performAll hstart, plain_ofString]
  · rintro c rfl
    have hsound := isSound_behind hstart steps
    refine ⟨hsound.lookahead_eq, hsound.marked_le, ?_, hsound.drain_eq_next⟩
    have hsize : ((ofString s).behind steps).text.size = s.length := by
      rw [text_behind hstart, ofString, List.size_toArray, String.length_toList]
    exact hsize ▸ hsound.position_le
  · intro steps' h
    constructor
    · rw [observations_eq hstart, observations_eq hstart, h]
    · rw [plain_behind hstart, plain_behind hstart, h]

/-- Looks ahead before a mark, inside the slice and at the end of the text. -/
theorem lookahead_leaves_no_trace_slice :
    (ofString "x%(k").observations
        [.peek, .next, .peek, .mark, .peek, .peek, .next, .peek, .slice, .drain, .peek, .slice]
      = (ofString "x%(k").observations [.next, .mark, .next, .slice, .drain, .slice]
    ∧ (ofString "x%(k").observations [.next, .mark, .next, .slice, .drain, .slice]
      = [(.character (some 'x'), ⟨['x', '%', '(', 'k'], 1, none⟩),
        (.nothing, ⟨['x', '%', '(', 'k'], 1, some 1⟩),
        (.character (some '%'), ⟨['x', '%', '(', 'k'], 2, some 1⟩),
        (.text (some "%"), ⟨['x', '%', '(', 'k'], 2, some 1⟩),
        (.characters ['(', 'k'], ⟨['x', '%', '(', 'k'], 4, some 1⟩),
        (.text (some "%(k"), ⟨['x', '%', '(', 'k'], 4, some 1⟩)] :=
  ⟨((lookahead_leaves_no_trace "x%(k" _).2.2 _ (by decide)).1, by decide +kernel⟩

end Cursor

end PercentTemplate
