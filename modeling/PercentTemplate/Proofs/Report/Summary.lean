import PercentTemplate.Proofs.Template.Stream
import PercentTemplate.Report.Summary

/-!
# Summaries of templates

The summary of a template in terms of its events. The report on its lengths is never refused, since
the total is the length of a text (`MeasureReport.ofLengths_toList`), so a summary exists exactly if
the scan returns (`Template.summarize_of_events`, `Template.summarize_of_fault`).
-/

namespace PercentTemplate

open Interpretation (Lengths)

theorem MeasureReport.ofLengths_toList {l : Lengths} (h : 0 ≤ l.total) :
    ofLengths l.toList = .ok ⟨l.total.toNat, l.widths.toList⟩ := by
  rw [Lengths.toList, ofLengths, if_neg (Int.not_lt.2 h)]

namespace Template

variable {text : String} {es : List Event}

theorem value_measureReport (values : Mapping) (text : String) :
    (measureReport values text false).value = reportOf (measure values text) := rfl

theorem summarize_eq (values : Mapping) (text : String) :
    summarize values text
      = (reportOf (measure values text)).bind fun report => summaryOf values report (keys text) := by
  rw [summarize, summarizeTraced, Log.Traced.bind, value_measureReport]
  cases reportOf (measure values text) <;> rfl

/-- If the scan returns, there is a report. -/
theorem reportOf_measure (h : events text = .ok es) (values : Mapping) :
    reportOf (measure values text)
      = .ok ⟨(Event.textAll values es).length, Event.widths values es⟩ := by
  have htotal : (0 : Int) ≤ (Event.textAll values es).length := Int.natCast_nonneg _
  rw [measure_eq values h, reportOf, MeasureReport.ofLengths_toList htotal]
  rfl

/-- If the scan returns, there is a summary. -/
theorem summarize_of_events (h : events text = .ok es) (values : Mapping) :
    summarize values text = .ok
      { totalLength := (Event.textAll values es).length
        placeholderWidths := Event.widths values es
        keys := Keyed.distinct (es.filterMap Event.key?)
        missingKeys := (Keyed.distinct (es.filterMap Event.key?)).filter fun k =>
          !values.defines k } := by
  rw [summarize_eq, reportOf_measure h, keys_of_events h]
  rfl

theorem summarize_of_fault {values : Mapping} {f : Integer.Fault}
    (h : measure values text = .error f) : summarize values text = .error (.width f) := by
  rw [summarize_eq, h]
  rfl

end Template

end PercentTemplate
