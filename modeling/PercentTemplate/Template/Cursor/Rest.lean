import PercentTemplate.Template.Cursor

/-!
# The rest of a text

`Cursor.rest` is what a cursor has still to read, as a list. Each step of a cursor is described by
what it does to that list: looking ahead leaves it alone, consuming takes its head, and a run takes
its longest prefix of a class. So a grammar that is read with a cursor can be discussed on lists.
-/

namespace PercentTemplate.Cursor

def rest (c : Cursor) : List Char := c.text.toList.drop c.offset

@[simp] theorem rest_ofString (s : String) : (ofString s).rest = s.toList := by
  simp [rest, ofString, offset]

@[simp] theorem length_rest (c : Cursor) : c.rest.length = c.remaining := by
  simp [rest, remaining]

@[simp] theorem peek_fst (c : Cursor) : c.peek.1 = c.rest.head? := by
  simp [peek, rest, List.head?_drop]

@[simp] theorem rest_peek (c : Cursor) : c.peek.2.rest = c.rest := rfl

@[simp] theorem rest_mark (c : Cursor) : c.mark.rest = c.rest := rfl

@[simp] theorem next_fst (c : Cursor) : c.next.1 = c.rest.head? := by
  rw [← peek_fst, next, peek]
  cases c.text[c.offset]? <;> rfl

@[simp] theorem rest_advance (c : Cursor) : c.advance.rest = c.rest.tail := by
  simp only [advance, next, rest, List.tail_drop]
  split
  · simp [offset]
  · rename_i h
    have hsize : c.text.size ≤ c.offset := Array.getElem?_eq_none_iff.1 h
    rw [List.drop_eq_nil_of_le (by simp [offset]), List.drop_eq_nil_of_le (by simp; omega)]

/-- A run takes the longest prefix of its class. -/
theorem runAux_eq (p : Char → Bool) (done : List Char) (c : Cursor) :
    (c.runAux p done).1 = done.reverse ++ c.rest.takeWhile p
      ∧ (c.runAux p done).2.rest = c.rest.dropWhile p := by
  fun_induction runAux p done c with
  | case1 done c h =>
    have hrest : c.rest = [] := List.head?_eq_none_iff.1 (by rw [← peek_fst, h])
    simp [hrest]
  | case2 done c x h hx ih =>
    obtain ⟨tail, hrest⟩ : ∃ tail, c.rest = x :: tail :=
      List.head?_eq_some_iff.1 (by rw [← peek_fst, h])
    simpa [hrest, hx] using ih
  | case3 done c x h hx =>
    obtain ⟨tail, hrest⟩ : ∃ tail, c.rest = x :: tail :=
      List.head?_eq_some_iff.1 (by rw [← peek_fst, h])
    simp [hrest, hx]

@[simp] theorem run_fst (p : Char → Bool) (c : Cursor) : (c.run p).1 = c.rest.takeWhile p := by
  simpa [run] using (runAux_eq p [] c).1

@[simp] theorem rest_run (p : Char → Bool) (c : Cursor) :
    (c.run p).2.rest = c.rest.dropWhile p :=
  (runAux_eq p [] c).2

@[simp] theorem rest_skip (x : Char) (c : Cursor) :
    (c.skip x).rest = c.rest.dropWhile (· == x) :=
  rest_run _ c

/-- Gathering succeeds exactly if something is left behind the run. -/
theorem gatherAux_eq (p : Char → Bool) (done : List Char) (c : Cursor) :
    (c.gatherAux p done).1
        = (if c.rest.dropWhile p = [] then none else some (done.reverse ++ c.rest.takeWhile p))
      ∧ (c.gatherAux p done).2.rest = c.rest.dropWhile p := by
  fun_induction gatherAux p done c with
  | case1 done c h =>
    have hrest : c.rest = [] := List.head?_eq_none_iff.1 (by rw [← peek_fst, h])
    simp [hrest]
  | case2 done c x h hx ih =>
    obtain ⟨tail, hrest⟩ : ∃ tail, c.rest = x :: tail :=
      List.head?_eq_some_iff.1 (by rw [← peek_fst, h])
    simpa [hrest, hx] using ih
  | case3 done c x h hx =>
    obtain ⟨tail, hrest⟩ : ∃ tail, c.rest = x :: tail :=
      List.head?_eq_some_iff.1 (by rw [← peek_fst, h])
    simp [hrest, hx]

theorem gather_fst (p : Char → Bool) (c : Cursor) :
    (c.gather p).1
      = if c.rest.dropWhile p = [] then none else some (String.ofList (c.rest.takeWhile p)) := by
  simp only [gather, (gatherAux_eq p [] c).1]
  split <;> simp

@[simp] theorem rest_gather (p : Char → Bool) (c : Cursor) :
    (c.gather p).2.rest = c.rest.dropWhile p :=
  (gatherAux_eq p [] c).2

/-- What `consumeIf` gives back and leaves, by the next character. -/
theorem consumeIf_eq (p : Char → Bool) (c : Cursor) :
    c.consumeIf p = if c.rest.head?.any p then (c.rest.head?, c.peek.2.advance)
      else (none, c.peek.2) := by
  rw [← peek_fst, consumeIf]
  cases h : c.peek.1 with
  | none => rfl
  | some x => simp

@[simp] theorem consumeIf_fst (p : Char → Bool) (c : Cursor) :
    (c.consumeIf p).1 = c.rest.head?.filter p := by
  rw [consumeIf_eq]
  cases c.rest.head? with
  | none => rfl
  | some x => by_cases hp : p x <;> simp [Option.filter, hp]

theorem rest_consumeIf (p : Char → Bool) (c : Cursor) :
    (c.consumeIf p).2.rest = if c.rest.head?.any p then c.rest.tail else c.rest := by
  rw [consumeIf_eq]
  split <;> simp

theorem consume_fst (x : Char) (c : Cursor) : (c.consume x).1 = (c.rest.head? == some x) := by
  simp only [consume, consumeIf_fst]
  cases c.rest.head? <;> simp [Option.filter]
  split <;> simp_all

theorem rest_consume (x : Char) (c : Cursor) :
    (c.consume x).2.rest = if c.rest.head? = some x then c.rest.tail else c.rest := by
  simp only [consume, rest_consumeIf]
  cases c.rest.head? <;> simp

end PercentTemplate.Cursor
