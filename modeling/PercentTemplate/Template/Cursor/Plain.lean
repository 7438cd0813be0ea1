import PercentTemplate.Template.Cursor

/-!
# Plain cursors

A position in a text with an optional mark and nothing else: looking ahead leaves no trace. What a
`Cursor` gives back can be compared with what a plain cursor gives back.

## Main definitions

- `PlainCursor` — a text with a position and a mark
- `PlainCursor.perform` — the effect of a single operation
- `Cursor.plain` — a cursor without its look-ahead
- `Cursor.IsSound` — what holds of every cursor that operations lead to
-/

namespace PercentTemplate

/-- A text with a position and a mark. -/
structure PlainCursor where
  text : List Char
  position : Nat
  marked : Option Nat
  deriving DecidableEq, Repr

namespace PlainCursor

def ofString (s : String) : PlainCursor := ⟨s.toList, 0, none⟩

def peek (c : PlainCursor) : Option Char := c.text[c.position]?

/-- The cursor behind the next character; at the end it stays. -/
def advance (c : PlainCursor) : PlainCursor :=
  if c.position < c.text.length then { c with position := c.position + 1 } else c

def mark (c : PlainCursor) : PlainCursor := { c with marked := some c.position }

def sliceFromMark (c : PlainCursor) : Option String :=
  c.marked.map fun m => String.ofList ((c.text.take c.position).drop m)

def finish (c : PlainCursor) : PlainCursor := { c with position := c.text.length }

/-- The effect of an operation and what it gives back. -/
def perform (c : PlainCursor) : Cursor.Step → Cursor.Answer × PlainCursor
  | .peek => (.character c.peek, c)
  | .next => (.character c.peek, c.advance)
  | .mark => (.nothing, c.mark)
  | .slice => (.text c.sliceFromMark, c)
  | .iterate =>
    match c.peek with
    | some x => (.character (some x), c.advance)
    | none => (.exhausted, c)
  | .drain => (.characters (c.text.drop c.position), c.finish)

/-- The answers to a sequence of operations, each with the cursor after it. -/
def performAll (c : PlainCursor) : List Cursor.Step → List (Cursor.Answer × PlainCursor)
  | [] => []
  | step :: rest => c.perform step :: (c.perform step).2.performAll rest

end PlainCursor

namespace Cursor

def plain (c : Cursor) : PlainCursor := ⟨c.text.toList, c.position, c.marked⟩

/-- The look-ahead is where the position is, and the mark is not behind it. -/
structure IsSound (c : Cursor) : Prop where
  offset_eq : c.offset = c.position
  position_le : c.position ≤ c.text.size
  marked_le : ∀ m, c.marked = some m → m ≤ c.position

theorem isSound_ofString (s : String) : (ofString s).IsSound where
  offset_eq := rfl
  position_le := Nat.zero_le _
  marked_le := fun _ h => nomatch h

@[simp] theorem plain_ofString (s : String) : (ofString s).plain = PlainCursor.ofString s := by
  simp [plain, ofString, PlainCursor.ofString]

end Cursor

end PercentTemplate
