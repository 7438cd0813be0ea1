import PercentTemplate.Template.Interpretation
import PercentTemplate.Template.Placeholder

/-!
# Sessions

An interpretation at work: the values of the keys, a cursor in the template, the pending format and
the state reached. A session is driven by the scan of a whole template or step by step.

## Main definitions

- `Session` — the state of an interpretation at work
- `Session.emit` — report an event to the interpretation
- `Session.Step`, `Session.perform` — the single steps and their effects
- `Session.run` — a sequence of steps
-/

namespace PercentTemplate

/-- An interpretation at work. -/
structure Session (σ : Type) where
  values : Mapping
  cursor : Cursor
  /-- The format that is pending for the next key placeholder. -/
  format : Format
  state : σ
  tracing : Bool
  trace : Array Log.Record

namespace Session

variable {σ β : Type}

def start (i : Interpretation σ β) (values : Mapping) (text : String) (tracing : Bool) :
    Session σ where
  values := values
  cursor := Cursor.ofString text
  format := Format.unset
  state := i.start
  tracing := tracing
  trace := if tracing then #[i.opening text] else #[]

/-- The stretch from the mark to the cursor; without a mark it is empty. -/
def source (s : Session σ) : Stretch :=
  ⟨s.cursor.marked.getD 0, s.cursor.sliceFromMark.getD ""⟩

/-- Report an event to the interpretation, and to the trace what there is to say about it. -/
def emit (i : Interpretation σ β) (s : Session σ) (event : Event) : Session σ :=
  { s with
    state := i.handle s.values s.state event
    trace := if s.tracing then s.trace ++ (i.notice? s.values event).toArray else s.trace }

def reset (s : Session σ) : Session σ := { s with format := Format.unset }

/-- Report a key placeholder under the pending format. -/
def emitKey (i : Interpretation σ β) (s : Session σ) (name : String) : Session σ :=
  s.emit i (.key name s.format s.source)

/-- Report the stretch from the mark as malformed. -/
def emitMalformed (i : Interpretation σ β) (s : Session σ) : Session σ :=
  s.emit i (.malformed s.source)

/-- A single step in a session. -/
inductive Step
  | peek
  | next (count : Nat)
  | mark
  | format (f : Format)
  | reset
  | literal (text : String)
  | escape (text : String)
  /-- Report a key placeholder under the pending format, which stays pending. -/
  | key (name : String)
  | malformed
  | finish
  deriving DecidableEq, Repr

/-- What a step gives back. -/
inductive Answer (β : Type)
  | nothing
  | character (c : Option Char)
  /-- Consumed characters, each none beyond the end of the text. -/
  | characters (cs : List (Option Char))
  | result (r : β)

/-- Consume `count` characters behind the reversed `done`. -/
def nextMany (done : List (Option Char)) (c : Cursor) : Nat → List (Option Char) × Cursor
  | 0 => (done.reverse, c)
  | count + 1 => nextMany (c.next.1 :: done) c.next.2 count

def perform (i : Interpretation σ β) (s : Session σ) : Step → Answer β × Session σ
  | .peek => (.character s.cursor.peek.1, { s with cursor := s.cursor.peek.2 })
  | .next count =>
    let (cs, cursor) := nextMany [] s.cursor count
    (.characters cs, { s with cursor := cursor })
  | .mark => (.nothing, { s with cursor := s.cursor.mark })
  | .format f => (.nothing, { s with format := f })
  | .reset => (.nothing, s.reset)
  | .literal text => (.nothing, s.emit i (.literal text))
  | .escape text => (.nothing, s.emit i (.escape text))
  | .key name => (.nothing, s.emitKey i name)
  | .malformed => (.nothing, s.emitMalformed i)
  | .finish => (.result (i.result s.state), s)

/-- The answers to a sequence of steps and the sessions after them. -/
def performAll (i : Interpretation σ β) (s : Session σ) : List Step → List (Answer β × Session σ)
  | [] => []
  | step :: rest =>
    let (answer, s) := s.perform i step
    (answer, s) :: s.performAll i rest

/-- An answer as it reads once all steps are done: a live result has become that of the last
state. -/
def Answer.settle (i : Interpretation σ β) (last : σ) : Answer β → Answer β
  | result r => result (if i.isLive then i.result last else r)
  | answer => answer

/-- The answers to a sequence of steps, read after the last step, and the sessions after them. -/
def run (i : Interpretation σ β) (s : Session σ) (steps : List Step) :
    List (Answer β × Session σ) :=
  let rows := s.performAll i steps
  let last := (rows.getLast?.map fun row => row.2.state).getD s.state
  rows.map fun (answer, s) => (answer.settle i last, s)

end Session

end PercentTemplate
