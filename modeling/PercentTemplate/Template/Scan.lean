import PercentTemplate.Template.Session

/-!
# Scanning a template

One pass over a template that reports every character, escape, key placeholder and malformed stretch
to an interpretation. The format that a directive sets is pending for the next attempt at a key
placeholder, which uses it up whether or not it succeeds.

## Main definitions

- `Session.turn` — one turn of the pass: a character or an attempt at a placeholder
- `Session.scan` — the pass over the rest of a template
- `Template.interpret` — the result of an interpretation and the trace of the pass
- `Template.render`, `Template.measure`, `Template.keys` — the three interpretations of a template
- `Template.events` — the events of a template

A scan cannot fail on grammar; the only fault is a width whose digits are refused as an integer.
Every turn brings it closer to the end (`Session.remaining_turn_lt`).
-/

namespace PercentTemplate

namespace Session

variable {σ β : Type}

/-- Take the outcome of an attempt at a placeholder into the session. -/
def settle (i : Interpretation σ β) (s : Session σ) : Placeholder → Session σ
  | .escape c => s.emit i (.escape (String.singleton c))
  | .key name => (s.emitKey i name).reset
  | .directive f => { s with format := f }
  | .malformed true => (s.emitMalformed i).reset
  | .malformed false => s.emitMalformed i

theorem cursor_settle (i : Interpretation σ β) (s : Session σ) (p : Placeholder) :
    (s.settle i p).cursor = s.cursor := by
  rcases p with _ | _ | _ | ofKey <;> try rfl
  cases ofKey <;> rfl

/-- What one turn of a scan comes to. -/
inductive Turn (σ : Type)
  | finished (s : Session σ)
  | refused (s : Session σ) (f : Integer.Fault)
  | next (s : Session σ)

/-- One turn of a scan: a character that stands for itself, or an attempt at a placeholder, which is
marked at its percent sign. -/
def turn (i : Interpretation σ β) (s : Session σ) : Turn σ :=
  match s.cursor.peek.1 with
  | none => .finished s
  | some c =>
    if c = '%' then
      match Placeholder.read s.cursor.peek.2.mark.advance with
      | .error f => .refused s f
      | .ok (p, cursor) => .next (settle i { s with cursor := cursor } p)
    else
      .next (emit i { s with cursor := s.cursor.peek.2.advance } (.literal (String.singleton c)))

/-- A turn consumes at least one character. -/
theorem remaining_turn_lt {i : Interpretation σ β} {s t : Session σ} (h : s.turn i = .next t) :
    t.cursor.remaining < s.cursor.remaining := by
  unfold turn at h
  split at h
  · cases h
  · rename_i c hc
    split at h
    · split at h
      · cases h
      · rename_i p cursor hp
        cases h
        have hread := Placeholder.remaining_read_le hp
        rw [Cursor.remaining_mark_advance] at hread
        rw [cursor_settle]
        exact Nat.lt_of_le_of_lt hread (Cursor.remaining_advance_lt hc)
    · cases h
      exact Cursor.remaining_advance_lt hc

/-- Scan the rest of the template. A fault ends the scan and leaves the session as it was before the
placeholder. -/
def scan (i : Interpretation σ β) (s : Session σ) : Session σ × Option Integer.Fault :=
  match _h : s.turn i with
  | .finished s => (s, none)
  | .refused s f => (s, some f)
  | .next t => scan i t
termination_by s.cursor.remaining
decreasing_by exact remaining_turn_lt _h

end Session

namespace Template

variable {σ β : Type}

/-- Interpret a template, with a trace if wanted. -/
def interpret (i : Interpretation σ β) (values : Mapping) (text : String) (tracing : Bool) :
    Log.Traced (Except Integer.Fault β) :=
  let (s, fault) := (Session.start i values text tracing).scan i
  { value :=
      match fault with
      | some f => .error f
      | none => .ok (i.result s.state)
    trace := s.trace.toList }

/-- The text of a template with every value in place. -/
def render (values : Mapping) (text : String) : Except Integer.Fault String :=
  (interpret .render values text false).value

/-- The lengths of the rendered text and of the values in it. -/
def measure (values : Mapping) (text : String) : Except Integer.Fault Interpretation.Lengths :=
  (interpret .measure values text false).value

/-- The keys that a template refers to, in order and with repetitions. -/
def keys (text : String) : Except Integer.Fault (List String) :=
  (interpret .keys [] text false).value

/-- What a scan reports about a template, in order. -/
def events (text : String) : Except Integer.Fault (List Event) :=
  (interpret .record [] text false).value

end Template

end PercentTemplate
