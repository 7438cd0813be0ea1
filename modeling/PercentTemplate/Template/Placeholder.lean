import PercentTemplate.Number.Integer
import PercentTemplate.Template.Cursor
import PercentTemplate.Template.Format

/-!
# Placeholders

What a percent sign introduces. With `d` one of `<` and `>` the forms are

- `%n` and `%%`, which stand for a line feed and a percent sign
- `%(key)`, which stands for the value of a key
- `%d(width)` and `%d(width,keyword)`, which set the format of the next key placeholder; spaces may
  stand after the parenthesis, the width, the comma and the keyword

Everything else is malformed, and the attempt ends where the grammar was left.

## Main definitions

- `Placeholder` — what an attempt at a placeholder came to
- `Placeholder.read` — the attempt after a percent sign
-/

namespace PercentTemplate

/-- What an attempt at a placeholder came to. -/
inductive Placeholder
  | escape (c : Char)
  | key (name : String)
  | directive (format : Format)
  /-- No placeholder; `ofKey` if the attempt began like a key placeholder. -/
  | malformed (ofKey : Bool)
  deriving DecidableEq, Repr

namespace Placeholder

/-- The side that a directive aligns to. -/
inductive Side
  | left
  | right
  deriving DecidableEq, Repr

/-- The format kind of a directive without a keyword. -/
def Side.plain : Side → Format.Kind
  | left => .left
  | right => .right

/-- The format kind of a directive with a keyword. A cut at the beginning exists only to the
right. -/
def Side.keyword? : Side → String → Option Format.Kind
  | left, "trunc" => some .leftTrunc
  | right, "trunc" => some .rightTrunc
  | right, "ltrunc" => some .rightLtrunc
  | _, _ => none

/-- Whether `c` may be part of a key or a keyword. -/
def isKeyChar (c : Char) : Bool :=
  c.isAlphanum || "_+*/äöüß?".toList.contains c

/-- The largest width, which is the greatest number of 32 bits. -/
def maxWidth : Nat := 4294967295

/-- A width at the cursor: a digit from 1 to 9 and further digits, of a value up to `maxWidth`. A
digit run beyond the limit of integer conversion is a fault. -/
def readWidth (c : Cursor) : Except Integer.Fault (Option Nat × Cursor) :=
  match c.consumeIf fun x => '1' ≤ x && x ≤ '9' with
  | (none, c) => .ok (none, c)
  | (some first, c) =>
    let (digits, c) := c.run Char.isDigit
    match Integer.ofDigitRun (first :: digits) with
    | .error f => .error f
    | .ok n => .ok (if maxWidth < n then none else some n, c)

/-- The rest of a key placeholder, its parenthesis already consumed. -/
def readKey (c : Cursor) : Placeholder × Cursor :=
  match c.gather isKeyChar with
  | (none, c) => (malformed true, c)
  | (some name, c) =>
    match c.consume ')' with
    | (true, c) => (key name, c)
    | (false, c) => (malformed true, c)

/-- The rest of a directive with a keyword, its comma already consumed. -/
def readKeyword (side : Side) (width : Nat) (c : Cursor) : Placeholder × Cursor :=
  match (c.skip ' ').gather isKeyChar with
  | (none, c) => (malformed false, c)
  | (some word, c) =>
    match (c.skip ' ').consume ')' with
    | (false, c) => (malformed false, c)
    | (true, c) =>
      match side.keyword? word with
      | some kind => (directive ⟨kind, width⟩, c)
      | none => (malformed false, c)

/-- The rest of a directive, its width already consumed. -/
def readEnd (side : Side) (width : Nat) (c : Cursor) : Placeholder × Cursor :=
  match (c.skip ' ').consume ',' with
  | (true, c) => readKeyword side width c
  | (false, c) =>
    match c.consume ')' with
    | (true, c) => (directive ⟨side.plain, width⟩, c)
    | (false, c) => (malformed false, c)

/-- The rest of a directive, its side already consumed. -/
def readDirective (side : Side) (c : Cursor) : Except Integer.Fault (Placeholder × Cursor) :=
  match c.consume '(' with
  | (false, c) => .ok (malformed false, c)
  | (true, c) =>
    match readWidth (c.skip ' ') with
    | .error f => .error f
    | .ok (none, c) => .ok (malformed false, c)
    | .ok (some width, c) => .ok (readEnd side width c)

/-- The attempt at a placeholder after a percent sign. -/
def read (c : Cursor) : Except Integer.Fault (Placeholder × Cursor) :=
  match c.next with
  | (some '(', c) => .ok (readKey c)
  | (some '<', c) => readDirective .left c
  | (some '>', c) => readDirective .right c
  | (some 'n', c) => .ok (escape '\n', c)
  | (some '%', c) => .ok (escape '%', c)
  | (_, c) => .ok (malformed false, c)

theorem remaining_readWidth_le {c c' : Cursor} {w : Option Nat} (h : readWidth c = .ok (w, c')) :
    c'.remaining ≤ c.remaining := by
  unfold readWidth at h
  have hfirst := Cursor.remaining_consumeIf_le (fun x => '1' ≤ x && x ≤ '9') c
  split at h
  · rename_i hc
    cases h
    rw [hc] at hfirst
    exact hfirst
  · rename_i first d hc
    rw [hc] at hfirst
    have hrun := Cursor.remaining_run_le Char.isDigit d
    dsimp only at h
    split at h
    · cases h
    · cases h
      exact Nat.le_trans hrun hfirst

theorem remaining_readKey_le (c : Cursor) : (readKey c).2.remaining ≤ c.remaining := by
  unfold readKey
  have hkey := Cursor.remaining_gather_le isKeyChar c
  split
  · rename_i d hd
    rw [hd] at hkey
    exact hkey
  · rename_i name d hd
    rw [hd] at hkey
    have hclose := Cursor.remaining_consume_le ')' d
    split <;> rename_i e he <;> rw [he] at hclose <;> exact Nat.le_trans hclose hkey

theorem remaining_readKeyword_le (side : Side) (width : Nat) (c : Cursor) :
    (readKeyword side width c).2.remaining ≤ c.remaining := by
  unfold readKeyword
  have hspace := Cursor.remaining_skip_le ' ' c
  have hword := Nat.le_trans (Cursor.remaining_gather_le isKeyChar (c.skip ' ')) hspace
  split
  · rename_i d hd
    rw [hd] at hword
    exact hword
  · rename_i word d hd
    rw [hd] at hword
    have hclose := Nat.le_trans (Cursor.remaining_consume_le ')' (d.skip ' '))
      (Nat.le_trans (Cursor.remaining_skip_le ' ' d) hword)
    split <;> rename_i e he <;> rw [he] at hclose
    · exact hclose
    · split <;> exact hclose

theorem remaining_readEnd_le (side : Side) (width : Nat) (c : Cursor) :
    (readEnd side width c).2.remaining ≤ c.remaining := by
  unfold readEnd
  have hcomma := Nat.le_trans (Cursor.remaining_consume_le ',' (c.skip ' '))
    (Cursor.remaining_skip_le ' ' c)
  split <;> rename_i d hd <;> rw [hd] at hcomma
  · exact Nat.le_trans (remaining_readKeyword_le side width d) hcomma
  · have hclose := Nat.le_trans (Cursor.remaining_consume_le ')' d) hcomma
    split <;> rename_i e he <;> rw [he] at hclose <;> exact hclose

theorem remaining_readDirective_le {side : Side} {c c' : Cursor} {p : Placeholder}
    (h : readDirective side c = .ok (p, c')) : c'.remaining ≤ c.remaining := by
  unfold readDirective at h
  have hopen := Cursor.remaining_consume_le '(' c
  split at h <;> rename_i d hd <;> rw [hd] at hopen
  · cases h
    exact hopen
  · have hspace := Nat.le_trans (Cursor.remaining_skip_le ' ' d) hopen
    split at h
    · cases h
    · rename_i e hw
      cases h
      exact Nat.le_trans (remaining_readWidth_le hw) hspace
    · rename_i w e hw
      have he := Nat.le_trans (remaining_readWidth_le hw) hspace
      have hend := remaining_readEnd_le side w e
      rw [Except.ok.inj h] at hend
      exact Nat.le_trans hend he

theorem remaining_read_le {c c' : Cursor} {p : Placeholder} (h : read c = .ok (p, c')) :
    c'.remaining ≤ c.remaining := by
  unfold read at h
  have hnext : c.next.2.remaining ≤ c.remaining := Cursor.remaining_advance_le c
  split at h <;> rename_i hd <;> rw [hd] at hnext
  · have hkey := remaining_readKey_le (by assumption)
    rw [Except.ok.inj h] at hkey
    exact Nat.le_trans hkey hnext
  · exact Nat.le_trans (remaining_readDirective_le h) hnext
  · exact Nat.le_trans (remaining_readDirective_le h) hnext
  all_goals
    cases h
    exact hnext

end Placeholder

end PercentTemplate
