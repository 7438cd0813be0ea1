/-!
# Log records

What is written to the log: a severity, the name of the logger and a message.

## Main definitions

- `Log.Level` — the five severities
- `Log.Record` — one entry of a log
- `Log.Traced` — a value with the records of its making
-/

namespace PercentTemplate.Log

/-- The severity of a record. -/
inductive Level
  | debug
  | info
  | warning
  | error
  | critical
  deriving DecidableEq, Repr, Inhabited

namespace Level

def rank : Level → Nat
  | debug => 10
  | info => 20
  | warning => 30
  | error => 40
  | critical => 50

def name : Level → String
  | debug => "DEBUG"
  | info => "INFO"
  | warning => "WARNING"
  | error => "ERROR"
  | critical => "CRITICAL"

def all : List Level := [debug, info, warning, error, critical]

def ofName? (name : String) : Option Level :=
  all.find? fun l => l.name == name

/-- Whether a threshold lets records of a severity through. -/
def admits (threshold level : Level) : Bool :=
  threshold.rank ≤ level.rank

end Level

/-- One entry of a log. -/
structure Record where
  /-- The name of the logger, its parts separated by points. -/
  logger : String
  level : Level
  message : String
  deriving DecidableEq, Repr

/-- A value with the records of its making. -/
structure Traced (α : Type) where
  value : α
  trace : List Record
  deriving Repr

namespace Traced

variable {α β : Type}

def map (f : α → β) (t : Traced α) : Traced β := ⟨f t.value, t.trace⟩

/-- One making after another: the records of both. -/
def bind (t : Traced α) (f : α → Traced β) : Traced β :=
  let u := f t.value
  ⟨u.value, t.trace ++ u.trace⟩

end Traced

end PercentTemplate.Log
