import PercentTemplate.Log.Record

/-!
# Loggers

The state of the log: a threshold and the handlers that write records to the error stream.

## Main definitions

- `Logger` — threshold and handlers
- `Logger.configure` — set the threshold and attach the handler once
- `Logger.write` — what a record adds to the error stream
- `Logger.Step`, `Logger.performAll` — single operations, and what a sequence of them adds
-/

namespace PercentTemplate

/-- The threshold and the handlers of a log. -/
structure Logger where
  threshold : Log.Level
  /-- The names of the attached handlers, each of which writes every record. -/
  handlers : List String
  deriving DecidableEq, Repr

namespace Logger

def initial : Logger := ⟨.warning, []⟩

/-- The name of the handler that configuration attaches. -/
def handlerName : String := "percentfmt.cli"

/-- Set the threshold, and attach the handler unless it is there already. -/
def configure (l : Logger) (threshold : Log.Level) : Logger :=
  { threshold := threshold
    handlers :=
      if l.handlers.contains handlerName then l.handlers else l.handlers ++ [handlerName] }

def line (r : Log.Record) : String :=
  r.level.name ++ " " ++ r.logger ++ ": " ++ r.message ++ "\n"

/-- What a record adds to the error stream. Without a handler a warning or a worse record is written
as its bare message. -/
def write (l : Logger) (r : Log.Record) : String :=
  if !l.threshold.admits r.level then ""
  else if l.handlers.isEmpty then
    if Log.Level.warning.admits r.level then r.message ++ "\n" else ""
  else String.join (l.handlers.map fun _ => line r)

/-- What a list of records adds to the error stream. -/
def writeAll (l : Logger) (rs : List Log.Record) : String :=
  String.join (rs.map l.write)

/-- An operation on the log. -/
inductive Step
  | configure (threshold : Log.Level)
  | log (r : Log.Record)
  deriving DecidableEq, Repr

/-- The log after an operation, and what the operation adds to the error stream. -/
def perform (l : Logger) : Step → String × Logger
  | .configure threshold => ("", l.configure threshold)
  | .log r => (l.write r, l)

/-- What each of a sequence of operations adds to the error stream, with the log after it. -/
def performAll (l : Logger) : List Step → List (String × Logger)
  | [] => []
  | step :: rest => l.perform step :: (l.perform step).2.performAll rest

end Logger

end PercentTemplate
