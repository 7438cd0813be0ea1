import PercentTemplate.Command.Console
import PercentTemplate.Command.Input
import PercentTemplate.Command.Settings
import PercentTemplate.Report.Summary

/-!
# Running a command

A run reads its template, then its values, computes its result, delivers it and logs that it is
done. The first thing that goes wrong decides how it ends.

## Main definitions

- `Surroundings` — what a run finds when it starts
- `Ending`, `Outcome` — how a run ends, and what it leaves
- `Invocation.run` — the run of an invocation
- `Command.execute` — the run of an argument list
-/

namespace PercentTemplate

/-- What a run finds when it starts. -/
structure Surroundings where
  files : FileTree
  stdin : List UInt8
  maxChars : Option String
  logLevel : Option String
  /-- How many milliseconds have gone by when the run is logged. -/
  elapsed : Nat
  host : Host := .standard

/-- What can break a run down. -/
inductive Breakdown
  | template (f : Template.Fault)
  | load (f : Mapping.LoadFault)
  | write (f : FileTree.Fault)
  deriving DecidableEq, Repr

def Breakdown.message : Breakdown → String
  | template (.width f) => f.message
  | template (.report .empty) => MeasureReport.emptyMessage
  | template (.report (.invalid _)) => "the lengths make no report"
  | load f => f.message
  | write f => f.wording

/-- How a run ends. -/
inductive Ending
  | exit (code : Nat)
  | usage
  | breakdown (b : Breakdown)
  deriving DecidableEq, Repr

/-- How a run ends, and what it leaves. -/
structure Outcome where
  console : Console
  ending : Ending
  deriving DecidableEq, Repr

namespace Ending

/-- The exit code of a run that did what it was asked for. -/
def done : Ending := exit 0

/-- The exit code for inputs that cannot be used. -/
def invalidInput : Nat := 1

def missingKeys : Nat := 2

/-- The exit code for a template beyond the limit. -/
def tooLarge : Nat := 3

/-- The exit code for arguments that make no invocation. -/
def wrongUsage : Nat := 2

end Ending

namespace Invocation

/-- The name that the program gives itself in the log. -/
def loggerName : String := "percentfmt.cli"

/-- End a run with a message, which is logged and shown. -/
def fail (i : Invocation) (c : Console) (code : Nat) (message : String) : Outcome :=
  let text := "ERROR: " ++ message
  let entry := Json.obj
    [("command", .str i.command.name), ("exit_code", .int code), ("error", .str text)]
  ⟨(c.log [⟨loggerName, .error, entry.render⟩]).complain text, .exit code⟩

def logDone (i : Invocation) (s : Surroundings) (c : Console) (code : Nat)
    (fields : List (String × Nat)) : Console :=
  let entry := Json.obj
    ([("command", .str i.command.name), ("exit_code", .int code), ("duration_ms", .int s.elapsed)]
      ++ fields.map fun f => (f.1, .int f.2))
  c.log [⟨loggerName, .info, entry.render⟩]

def outPath (i : Invocation) : Option Path := i.out.map Path.ofString

/-- Deliver the result of a pass over the template, whose trace is logged first. `deliver` shows or
writes the result, and `next` ends the run after that. -/
def conclude {β : Type} (c : Console) (t : Log.Traced (Except Template.Fault β))
    (deliver : Console → β → Console × Option FileTree.Fault) (next : Console → β → Outcome) :
    Outcome :=
  let c := c.log t.trace
  match t.value with
  | .error f => ⟨c, .breakdown (.template f)⟩
  | .ok r =>
    match deliver c r with
    | (c, some f) => ⟨c, .breakdown (.write f)⟩
    | (c, none) => next c r

def succeed (i : Invocation) (s : Surroundings) (text : String) (fields : List (String × Nat))
    (c : Console) : Outcome :=
  ⟨i.logDone s c 0 (("template_chars", text.length) :: fields), .done⟩

def tracing (c : Console) : Bool := c.logger.threshold.admits .debug

/-- A pass over the template in which only a width can be at fault. -/
def pass {σ β : Type} (c : Console) (p : Interpretation σ β) (values : Mapping) (text : String) :
    Log.Traced (Except Template.Fault β) :=
  (Template.interpret p values text (tracing c)).map fun r => r.mapError .width

/-- Print the template with every value in place. -/
def runRender (i : Invocation) (s : Surroundings) (c : Console) (values : Mapping)
    (text : String) : Outcome :=
  conclude c (pass c .render values text) (fun c r => c.deliverText i.outPath r)
    fun c _ => i.succeed s text [] c

def runMeasure (i : Invocation) (s : Surroundings) (c : Console) (values : Mapping)
    (text : String) : Outcome :=
  conclude c (Template.measureReport values text (tracing c))
    (fun c r => c.deliverJson i.outPath r.toJson) fun c _ => i.succeed s text [] c

def runKeys (i : Invocation) (s : Surroundings) (c : Console) (text : String) : Outcome :=
  let keys := (pass c .keys [] text).map fun r =>
    r.map fun ks => if i.unique then Keyed.distinct ks else ks
  conclude c keys (fun c ks => c.deliverJson i.outPath (.arr (ks.map .str)))
    fun c ks => i.succeed s text [("key_count", ks.length)] c

/-- Print the summary, and fail if keys have no value. -/
def runCheck (i : Invocation) (s : Surroundings) (c : Console) (values : Mapping)
    (text : String) : Outcome :=
  conclude c (Template.summarizeTraced values text (tracing c))
    (fun c r => c.deliverJson i.outPath r.toJson) fun c r =>
      let code := if r.isComplete then 0 else Ending.missingKeys
      let c := i.logDone s c code
        [("template_chars", text.length), ("missing_count", r.missingKeys.length)]
      if r.isComplete then ⟨c, .done⟩
      else
        let message := "ERROR: missing keys: " ++ String.intercalate ", " r.missingKeys
        ⟨c.complain message, .exit code⟩

def runWithValues (i : Invocation) (s : Surroundings) (c : Console) (next : Mapping → Outcome) :
    Outcome :=
  match i.mapping s.host c.files with
  | .ok values => next values
  | .error (.load f) =>
    if f.isReported then i.fail c Ending.invalidInput f.message else ⟨c, .breakdown (.load f)⟩
  | .error (.assignment f) => i.fail c Ending.invalidInput f.message

def runOn (i : Invocation) (s : Surroundings) (c : Console) (text : String) : Outcome :=
  match i.command with
  | .keys => i.runKeys s c text
  | .render => i.runWithValues s c fun values => i.runRender s c values text
  | .measure => i.runWithValues s c fun values => i.runMeasure s c values text
  | .check => i.runWithValues s c fun values => i.runCheck s c values text

/-- Whether a path that has to name a file names a directory. -/
def namesDirectory (i : Invocation) (files : FileTree) : Bool :=
  [i.values, i.out].any fun p? =>
    p?.any fun p => p != "" && files.isDirectory (Path.ofString p)

def run (i : Invocation) (s : Surroundings) : Outcome :=
  let logger := Logger.initial.configure (Settings.logLevel i.logLevel s.logLevel)
  let c := Console.start s.files logger
  if i.namesDirectory s.files then ⟨c, .usage⟩
  else
    match Template.read s.files s.stdin i.template (Settings.maxTemplateChars s.maxChars) with
    | .ok text => i.runOn s c text
    | .error f =>
      if f.isTooLarge then i.fail c Ending.tooLarge ("template too large: " ++ f.message)
      else i.fail c Ending.invalidInput ("cannot read template: " ++ f.message)

end Invocation

namespace Command

def execute (s : Surroundings) (args : List String) : Outcome :=
  let c := Console.start s.files Logger.initial
  match Invocation.parse args with
  | .ok i => i.run s
  | .error .usage => ⟨c, .usage⟩
  | .error f => ⟨c.complain f.message, .exit Ending.wrongUsage⟩

end Command

end PercentTemplate
