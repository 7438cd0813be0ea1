/-!
# Cursors

A position in a text with one remembered look-ahead and an optional mark. Looking ahead remembers
where the next character was found, so that reading it does not search again.

## Main definitions

- `Cursor` — a text with a position, a look-ahead and a mark
- `Cursor.peek`, `Cursor.next` — the next character, left or consumed
- `Cursor.mark`, `Cursor.sliceFromMark` — remember a place and read back from it
- `Cursor.gather`, `Cursor.consume`, `Cursor.skip` — the steps that a grammar is read with
- `Cursor.Step`, `Cursor.performAll` — single operations, and what a sequence of them gives back

Main statements: no step moves the cursor back (`Cursor.remaining_gather_le` and its companions),
and consuming a character that is there brings it closer to the end (`Cursor.remaining_advance_lt`).
-/

namespace PercentTemplate

/-- A text with a position, a look-ahead and a mark. -/
structure Cursor where
  text : Array Char
  position : Nat
  lookahead : Option Nat
  marked : Option Nat
  deriving DecidableEq, Repr

namespace Cursor

def ofString (s : String) : Cursor := ⟨s.toList.toArray, 0, none, none⟩

def offset (c : Cursor) : Nat := c.lookahead.getD c.position

def remaining (c : Cursor) : Nat := c.text.size - c.offset

def peek (c : Cursor) : Option Char × Cursor :=
  (c.text[c.offset]?, { c with lookahead := some c.offset })

/-- Consume the next character. At the end there is none. -/
def next (c : Cursor) : Option Char × Cursor :=
  match c.text[c.offset]? with
  | some x => (some x, { c with position := c.offset + 1, lookahead := none })
  | none => (none, { c with position := c.text.size, lookahead := none })

def advance (c : Cursor) : Cursor := c.next.2

def mark (c : Cursor) : Cursor := { c with marked := some c.position }

def slice (c : Cursor) (first last : Nat) : String :=
  String.ofList (c.text.extract first last).toList

def sliceFromMark (c : Cursor) : Option String :=
  c.marked.map fun m => c.slice m c.position

theorem remaining_peek (c : Cursor) : c.peek.2.remaining = c.remaining := rfl

theorem remaining_mark (c : Cursor) : c.mark.remaining = c.remaining := rfl

theorem remaining_advance_le (c : Cursor) : c.advance.remaining ≤ c.remaining := by
  simp only [advance, next]
  split <;> simp only [remaining, offset, Option.getD_none] <;> omega

theorem remaining_advance_lt {c : Cursor} {x : Char} (h : c.peek.1 = some x) :
    c.peek.2.advance.remaining < c.remaining := by
  have hx : c.text[c.offset]? = some x := h
  obtain ⟨hlt, _⟩ := Array.getElem?_eq_some_iff.1 hx
  have hoff : c.peek.2.offset = c.offset := rfl
  have htext : c.peek.2.text = c.text := rfl
  simp only [advance, next, hoff, htext, hx]
  simp only [remaining, offset, Option.getD_none] at hlt ⊢
  omega

theorem remaining_mark_advance (c : Cursor) : c.mark.advance.remaining = c.advance.remaining := by
  have hoff : c.mark.offset = c.offset := rfl
  have htext : c.mark.text = c.text := rfl
  unfold advance next
  rw [hoff, htext]
  cases c.text[c.offset]? <;> rfl

/-- Consume characters of the class `p` up to the first other one and return them behind the
reversed `done`; `none` if the text ends before another character is seen. -/
def gatherAux (p : Char → Bool) (done : List Char) (c : Cursor) : Option (List Char) × Cursor :=
  match _h : c.peek.1 with
  | none => (none, c.peek.2)
  | some x =>
    if p x then gatherAux p (x :: done) c.peek.2.advance else (some done.reverse, c.peek.2)
termination_by c.remaining
decreasing_by exact remaining_advance_lt _h

/-- Consume the longest run of characters of the class `p`. There is no result if the text ends
before a character outside the class is seen. -/
def gather (p : Char → Bool) (c : Cursor) : Option String × Cursor :=
  let (run, c) := c.gatherAux p []
  (run.map String.ofList, c)

/-- Consume the next character if it is in the class `p`. -/
def consumeIf (p : Char → Bool) (c : Cursor) : Option Char × Cursor :=
  match c.peek.1 with
  | some x => if p x then (some x, c.peek.2.advance) else (none, c.peek.2)
  | none => (none, c.peek.2)

/-- Consume the next character if it is `expected`. -/
def consume (expected : Char) (c : Cursor) : Bool × Cursor :=
  let (found, c) := c.consumeIf (· == expected)
  (found.isSome, c)

/-- Consume the longest run of characters of the class `p`, up to the end of the text if need be,
and return it behind the reversed `done`. -/
def runAux (p : Char → Bool) (done : List Char) (c : Cursor) : List Char × Cursor :=
  match _h : c.peek.1 with
  | none => (done.reverse, c.peek.2)
  | some x => if p x then runAux p (x :: done) c.peek.2.advance else (done.reverse, c.peek.2)
termination_by c.remaining
decreasing_by exact remaining_advance_lt _h

/-- Consume the longest run of characters of the class `p`, up to the end of the text if need be. -/
def run (p : Char → Bool) (c : Cursor) : List Char × Cursor := c.runAux p []

def skip (x : Char) (c : Cursor) : Cursor := (c.run (· == x)).2

def drain (c : Cursor) : List Char × Cursor :=
  let (rest, c) := c.run fun _ => true
  (rest, c.advance)

/-- A single operation on a cursor. -/
inductive Step
  | peek
  | next
  | mark
  | slice
  | iterate
  | drain
  deriving DecidableEq, Repr

/-- What an operation on a cursor gives back. -/
inductive Answer
  | nothing
  | character (c : Option Char)
  | text (s : Option String)
  | exhausted
  | characters (cs : List Char)
  deriving DecidableEq, Repr

/-- The effect of an operation and what it gives back. -/
def perform (c : Cursor) : Step → Answer × Cursor
  | .peek => (.character c.peek.1, c.peek.2)
  | .next => (.character c.next.1, c.next.2)
  | .mark => (.nothing, c.mark)
  | .slice => (.text c.sliceFromMark, c)
  | .iterate =>
    match c.next with
    | (some x, c) => (.character (some x), c)
    | (none, c) => (.exhausted, c)
  | .drain =>
    let (rest, c) := c.drain
    (.characters rest, c)

/-- The answers to a sequence of operations, each with the cursor after it. -/
def performAll (c : Cursor) : List Step → List (Answer × Cursor)
  | [] => []
  | step :: rest => c.perform step :: (c.perform step).2.performAll rest

theorem remaining_gatherAux_le (p : Char → Bool) (done : List Char) (c : Cursor) :
    (c.gatherAux p done).2.remaining ≤ c.remaining := by
  fun_induction gatherAux p done c with
  | case1 => exact Nat.le_refl _
  | case2 done c x h _ ih => exact Nat.le_trans ih (Nat.le_of_lt (remaining_advance_lt h))
  | case3 => exact Nat.le_refl _

theorem remaining_gather_le (p : Char → Bool) (c : Cursor) :
    (c.gather p).2.remaining ≤ c.remaining :=
  remaining_gatherAux_le p [] c

theorem remaining_consumeIf_le (p : Char → Bool) (c : Cursor) :
    (c.consumeIf p).2.remaining ≤ c.remaining := by
  unfold consumeIf
  split
  · split
    · exact remaining_advance_le _
    · exact Nat.le_refl _
  · exact Nat.le_refl _

theorem remaining_consume_le (x : Char) (c : Cursor) :
    (c.consume x).2.remaining ≤ c.remaining :=
  remaining_consumeIf_le _ c

theorem remaining_runAux_le (p : Char → Bool) (done : List Char) (c : Cursor) :
    (c.runAux p done).2.remaining ≤ c.remaining := by
  fun_induction runAux p done c with
  | case1 => exact Nat.le_refl _
  | case2 done c x h _ ih => exact Nat.le_trans ih (Nat.le_of_lt (remaining_advance_lt h))
  | case3 => exact Nat.le_refl _

theorem remaining_run_le (p : Char → Bool) (c : Cursor) : (c.run p).2.remaining ≤ c.remaining :=
  remaining_runAux_le p [] c

theorem remaining_skip_le (x : Char) (c : Cursor) : (c.skip x).remaining ≤ c.remaining :=
  remaining_run_le _ c

end Cursor

end PercentTemplate
