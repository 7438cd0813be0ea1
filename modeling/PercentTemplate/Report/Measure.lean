import PercentTemplate.Report.Schema
import PercentTemplate.Template.Scan

/-!
# Measure reports

The length of a rendered template and the widths of the values in it, as a report.

## Main definitions

- `MeasureReport` — a total and the widths of the placeholders
- `MeasureReport.ofLengths` — the report of a total followed by widths
- `MeasureReport.ofJson`, `MeasureReport.toJson` — the report as a JSON object
-/

namespace PercentTemplate

/-- The length of a rendered template and the widths of the values in it. -/
structure MeasureReport where
  total : Nat
  placeholders : List Int
  deriving DecidableEq, Repr

namespace MeasureReport

/-- Why lengths make no report. -/
inductive Fault
  | empty
  | invalid (problems : List Schema.Problem)
  deriving DecidableEq, Repr

/-- The wording of a fault that is not one of the schema. -/
def emptyMessage : String := "not enough values to unpack (expected at least 1, got 0)"

def ofLengths : List Int → Except Fault MeasureReport
  | [] => .error .empty
  | total :: widths =>
    if total < 0 then .error (.invalid [⟨.greaterThanEqual, [.member "total"]⟩])
    else .ok ⟨total.toNat, widths⟩

def ofJson : Json → Schema.Checked MeasureReport
  | .obj members =>
    let total := Schema.field members "total" none Schema.natural
    let placeholders :=
      Schema.field members "placeholders" (some []) (Schema.listOf Schema.integer)
    let extra := Schema.unknown members ["total", "placeholders"]
    match total, placeholders, extra with
    | .ok total, .ok placeholders, [] => .ok ⟨total, placeholders⟩
    | total, placeholders, extra =>
      .error (Schema.problems total ++ Schema.problems placeholders ++ extra)
  | _ => Schema.refuse .modelType

def toJson (r : MeasureReport) : Json :=
  .obj [("total", .int r.total), ("placeholders", .arr (r.placeholders.map .int))]

end MeasureReport

end PercentTemplate
