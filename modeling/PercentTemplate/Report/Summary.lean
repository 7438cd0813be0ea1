import PercentTemplate.Report.Measure

/-!
# Template summaries

A template against a mapping: its length, the keys it refers to and those of them that have no
value.

## Main definitions

- `TemplateSummary` — the summary of a template
- `TemplateSummary.isComplete` — whether every key has a value
- `Template.measureReport` — the report on the lengths of a template
- `Template.summarize` — the summary of a template against a mapping
-/

namespace PercentTemplate

/-- A template against a mapping. -/
structure TemplateSummary where
  totalLength : Nat
  placeholderWidths : List Int
  keys : List String
  missingKeys : List String
  deriving DecidableEq, Repr

namespace TemplateSummary

def isComplete (s : TemplateSummary) : Bool := s.missingKeys.isEmpty

def ofJson : Json → Schema.Checked TemplateSummary
  | .obj members =>
    let total := Schema.field members "total_length" none Schema.natural
    let widths :=
      Schema.field members "placeholder_widths" (some []) (Schema.listOf Schema.integer)
    let keys := Schema.field members "keys" (some []) (Schema.listOf Schema.text)
    let missing := Schema.field members "missing_keys" (some []) (Schema.listOf Schema.text)
    let extra := Schema.unknown members
      ["total_length", "placeholder_widths", "keys", "missing_keys"]
    match total, widths, keys, missing, extra with
    | .ok total, .ok widths, .ok keys, .ok missing, [] => .ok ⟨total, widths, keys, missing⟩
    | total, widths, keys, missing, extra =>
      .error (Schema.problems total ++ Schema.problems widths ++ Schema.problems keys
        ++ Schema.problems missing ++ extra)
  | _ => Schema.refuse .modelType

def toJson (s : TemplateSummary) : Json :=
  .obj [("total_length", .int s.totalLength),
    ("placeholder_widths", .arr (s.placeholderWidths.map .int)),
    ("keys", .arr (s.keys.map .str)), ("missing_keys", .arr (s.missingKeys.map .str))]

end TemplateSummary

namespace Template

/-- Why there is no report on a template. -/
inductive Fault
  | width (f : Integer.Fault)
  | report (f : MeasureReport.Fault)
  deriving DecidableEq, Repr

def reportOf (lengths : Except Integer.Fault Interpretation.Lengths) :
    Except Fault MeasureReport :=
  match lengths with
  | .error f => .error (.width f)
  | .ok l => (MeasureReport.ofLengths l.toList).mapError .report

/-- The summary that a report and the keys of a template make up. -/
def summaryOf (values : Mapping) (report : MeasureReport)
    (keys : Except Integer.Fault (List String)) : Except Fault TemplateSummary :=
  match keys with
  | .error f => .error (.width f)
  | .ok keys =>
    let keys := Keyed.distinct keys
    .ok ⟨report.total, report.placeholders, keys, keys.filter fun k => !values.defines k⟩

/-- The report on the lengths of a template, with a trace if wanted. -/
def measureReport (values : Mapping) (text : String) (tracing : Bool) :
    Log.Traced (Except Fault MeasureReport) :=
  (interpret .measure values text tracing).map reportOf

/-- The summary of a template against a mapping, with a trace if wanted: it is measured first, and
then its keys are listed in a second pass. -/
def summarizeTraced (values : Mapping) (text : String) (tracing : Bool) :
    Log.Traced (Except Fault TemplateSummary) :=
  (measureReport values text tracing).bind fun
    | .error f => ⟨.error f, []⟩
    | .ok report => (interpret .keys [] text tracing).map (summaryOf values report)

def summarize (values : Mapping) (text : String) : Except Fault TemplateSummary :=
  (summarizeTraced values text false).value

end Template

end PercentTemplate
