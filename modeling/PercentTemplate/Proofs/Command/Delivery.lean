import PercentTemplate.Proofs.Command.Failure
import PercentTemplate.Proofs.Files.Stranding
import PercentTemplate.Proofs.Json.RoundTrip
import PercentTemplate.Proofs.Report.Summary

/-!
# What a command delivers

The result of each command, for a template that is scanned to its end, in terms of the events of the
template. A result is shown, or it is written to a file if one is named, and whatever its
destination is, a run comes to the same result (`Invocation.Concludes`). So the two ways to deliver a
result are compared once for all commands (`Invocation.Concludes.isRedirected`). A result that is
shown as a JSON document is read back from the standard output (`Outcome.Shows`), as the text of a
JSON document holds no control sequence.
-/

namespace PercentTemplate

/-- A run ends with a code, and what it shows is a JSON document. -/
structure Outcome.Shows (o : Outcome) (document : Json) (code : Nat) : Prop where
  ending_eq : o.ending = .exit code
  read_stdout : Json.read o.console.stdout = .ok document.wide

/-- Two runs that differ in the destination of their result alone: one shows it, the other one
writes it to the file that a path leads to. -/
structure Outcome.IsRedirected (shown written : Outcome) (files : FileTree) (p : Path) (code : Nat)
    (output contents : String) : Prop where
  ending_shown : shown.ending = .exit code
  ending_written : written.ending = .exit code
  stdout_shown : shown.console.stdout = output
  stdout_written : written.console.stdout = ""
  stderr_eq : written.console.stderr = shown.console.stderr
  files_shown : shown.console.files = files
  delivers : files.Delivers p (Text.Utf8.encode contents) written.console.files

/-- The end of a run adds to the error stream, and what it adds depends on the log alone. -/
structure Outcome.Closes (next : Console → Outcome) (code : Nat) : Prop where
  ending_eq (c : Console) : (next c).ending = .exit code
  stdout_eq (c : Console) : (next c).console.stdout = c.stdout
  files_eq (c : Console) : (next c).console.files = c.files
  stderr_eq {c d : Console} : c.logger = d.logger → c.stderr = d.stderr →
    (next c).console.stderr = (next d).console.stderr

/-- The keys that are listed: all of them, or each once. -/
def Event.listed (unique : Bool) (es : List Event) : List String :=
  if unique then Keyed.distinct (es.filterMap key?) else es.filterMap key?

section Exact

variable {ns : List Int}

/-- The integers are short enough to be converted to text and back. -/
def Integer.AreShort (ns : List Int) : Prop :=
  ∀ n ∈ ns, (Nat.toDigits 10 n.natAbs).length ≤ maxDigits

theorem Json.isExact_integers (h : Integer.AreShort ns) : (Json.arr (ns.map .int)).IsExact := by
  refine .arr fun v hv => ?_
  obtain ⟨n, hn, rfl⟩ := List.mem_map.1 hv
  exact .int (h n hn)

theorem Json.isExact_texts (ss : List String) : (Json.arr (ss.map .str)).IsExact := by
  refine .arr fun v hv => ?_
  obtain ⟨s, -, rfl⟩ := List.mem_map.1 hv
  exact .str s

theorem MeasureReport.isExact_toJson {r : MeasureReport}
    (h : Integer.AreShort (r.total :: r.placeholders)) : r.toJson.IsExact := by
  have htotal : (Json.int r.total).IsExact := .int (h _ List.mem_cons_self)
  have hwidths := Json.isExact_integers fun n hn => h n (List.mem_cons_of_mem _ hn)
  refine .obj ?_
  simp [htotal, hwidths]

theorem TemplateSummary.isExact_toJson {r : TemplateSummary}
    (h : Integer.AreShort (r.totalLength :: r.placeholderWidths)) : r.toJson.IsExact := by
  have htotal : (Json.int r.totalLength).IsExact := .int (h _ List.mem_cons_self)
  have hwidths := Json.isExact_integers fun n hn => h n (List.mem_cons_of_mem _ hn)
  refine .obj ?_
  simp [htotal, hwidths, Json.isExact_texts]

/-- The text of a JSON value is shown as it is. -/
theorem Json.stripControls_line {v : Json} (h : v.IsExact) :
    Text.stripControls (v.render ++ "\n") = v.render ++ "\n" := by
  apply Text.stripControls_eq_self
  rw [String.toList_append, Json.render, String.toList_ofList, List.mem_append, not_or]
  constructor
  · intro hmem
    exact absurd (h.le_toNat_of_mem _ hmem) (by decide)
  · decide

end Exact

namespace Template

variable {text : String} {es : List Event}

/-- A trace changes no result. -/
theorem value_interpret_tracing {σ β : Type} (i : Interpretation σ β) (values : Mapping)
    (text : String) (tracing : Bool) :
    (interpret i values text tracing).value = (interpret i values text false).value := by
  rw [value_interpret, value_interpret]

theorem exists_events_of_measure {values : Mapping} {lengths : Interpretation.Lengths}
    (h : measure values text = .ok lengths) : ∃ es, events text = .ok es := by
  cases hevents : events text with
  | error f =>
    rw [measure, value_interpret, hevents] at h
    cases h
  | ok es => exact ⟨es, rfl⟩

theorem value_measureReport_of_events (h : events text = .ok es) (values : Mapping)
    (tracing : Bool) : (measureReport values text tracing).value
      = .ok ⟨(Event.textAll values es).length, Event.widths values es⟩ := by
  show reportOf (interpret .measure values text tracing).value = _
  rw [value_interpret_tracing]
  exact reportOf_measure h values

theorem value_summarizeTraced_of_events (h : events text = .ok es) (values : Mapping)
    (tracing : Bool) : (summarizeTraced values text tracing).value = summarize values text := by
  rw [summarize_eq, reportOf_measure h, summarizeTraced, Log.Traced.bind]
  simp only [value_measureReport_of_events h]
  show summaryOf values _ (interpret .keys [] text tracing).value = _
  rw [value_interpret_tracing]
  rfl

end Template

/-! Ways to deliver a result. -/

variable {β : Type} {c : Console} {code : Nat} {output contents : String}

/-- A result is shown as one text, and written to a file as another one. The write succeeds exactly
if the destination is open. -/
structure Console.Redirects (deliver : Option Path → Console → Console × Option FileTree.Fault)
    (output contents : String) : Prop where
  show_eq (c : Console) : deliver none c = (c.print output, none)
  exists_write_eq (c : Console) (p : Path) : ∃ files fault,
    deliver (some p) c = ({ c with files := files }, fault)
      ∧ (fault = none ↔ c.files.IsOpenTo p)
      ∧ (fault = none → c.files.Delivers p (Text.Utf8.encode contents) files)

theorem Console.redirects_deliverText (text : String) :
    Redirects (fun out c => c.deliverText out text) text text := by
  refine ⟨fun c => rfl, fun c p => ⟨_, _, rfl, FileTree.fault_writeText_eq_none_iff _ _ _, ?_⟩⟩
  exact fun hfault => FileTree.delivers_of_writeText (Prod.ext rfl hfault)

theorem Console.redirects_deliverJson {v : Json} (h : v.IsConvertible) :
    Redirects (fun out c => c.deliverJson out v) (v.render ++ "\n") v.render := by
  refine ⟨fun c => rfl, fun c p => ⟨_, _, rfl, FileTree.fault_writeJson_eq_none_iff h _ _, ?_⟩⟩
  exact fun hfault => FileTree.delivers_of_writeJson h (Prod.ext rfl hfault)

namespace Invocation

/-- The run of a command whose inputs are there. -/
def runWith (i : Invocation) (s : Surroundings) (c : Console) (values : Mapping)
    (text : String) : Outcome :=
  match i.command with
  | .keys => i.runKeys s c text
  | .render => i.runRender s c values text
  | .measure => i.runMeasure s c values text
  | .check => i.runCheck s c values text

/-- The run of a command whose inputs are there, with a destination for its result. -/
def runTo (i : Invocation) (s : Surroundings) (c : Console) (values : Mapping) (text : String)
    (out : Option String) : Outcome :=
  runWith { i with out := out } s c values text

/-- Whatever its destination is, a run comes to the same result. -/
inductive Concludes (run : Option String → Outcome) (c : Console) (code : Nat)
    (output contents : String) : Prop
  | intro {β : Type} (t : Log.Traced (Except Template.Fault β)) (r : β)
    (deliver : Option Path → Console → β → Console × Option FileTree.Fault)
    (next : Console → β → Outcome) (value_eq : t.value = .ok r)
    (redirects : Console.Redirects (fun out c => deliver out c r) output contents)
    (closes : Outcome.Closes (fun c => next c r) code)
    (run_eq : ∀ out, run out = conclude c t (deliver (out.map Path.ofString)) next) :
    Concludes run c code output contents

section Concluded

variable {run : Option String → Outcome} {path : String}

theorem conclude_eq {t : Log.Traced (Except Template.Fault β)} {r : β}
    {deliver : Console → β → Console × Option FileTree.Fault} {next : Console → β → Outcome}
    {d : Console} {fault : Option FileTree.Fault} (hvalue : t.value = .ok r)
    (hdeliver : deliver (c.log t.trace) r = (d, fault)) :
    conclude c t deliver next = match fault with
      | some f => ⟨d, .breakdown (.write f)⟩
      | none => next d r := by
  simp only [conclude, hvalue, hdeliver]
  cases fault <;> rfl

/-- A run that writes its result ends with a code only if the destination is open. -/
theorem Concludes.isOpenTo {code' : Nat} (h : Concludes run c code output contents)
    (hexit : (run (some path)).ending = .exit code') :
    c.files.IsOpenTo (Path.ofString path) := by
  obtain ⟨t, r, deliver, next, hvalue, hredirects, -, hrun⟩ := h
  obtain ⟨files, fault, hwrite, hiff, -⟩ :=
    hredirects.exists_write_eq (c.log t.trace) (Path.ofString path)
  have hwritten := (hrun (some path)).trans (conclude_eq hvalue hwrite)
  rw [hwritten] at hexit
  cases fault with
  | none => exact hiff.1 rfl
  | some f => cases hexit

/-- A run that shows its result leaves all files alone. -/
theorem Concludes.shown (h : Concludes run c code output contents) (hc : c.stdout = "") :
    (run none).ending = .exit code ∧ (run none).console.stdout = Text.stripControls output
      ∧ (run none).console.files = c.files := by
  obtain ⟨t, r, deliver, next, hvalue, hredirects, hcloses, hrun⟩ := h
  have hshown : run none = next ((c.log t.trace).print output) r :=
    (hrun none).trans (conclude_eq hvalue (hredirects.show_eq _))
  rw [hshown]
  refine ⟨hcloses.ending_eq _, (hcloses.stdout_eq _).trans ?_, hcloses.files_eq _⟩
  show c.stdout ++ Text.stripControls output = _
  rw [hc, String.empty_append]

/-- A run that writes its result to a destination that is open differs in that alone from the run
that shows it. -/
theorem Concludes.isRedirected (h : Concludes run c code output contents) (hc : c.stdout = "")
    (hopen : c.files.IsOpenTo (Path.ofString path)) :
    (run none).IsRedirected (run (some path)) c.files (Path.ofString path) code
      (Text.stripControls output) contents := by
  obtain ⟨hending, hstdout, hfiles⟩ := h.shown hc
  obtain ⟨t, r, deliver, next, hvalue, hredirects, hcloses, hrun⟩ := h
  obtain ⟨files, fault, hwrite, hiff, hdelivers⟩ :=
    hredirects.exists_write_eq (c.log t.trace) (Path.ofString path)
  obtain rfl := hiff.2 hopen
  have hshown : run none = next ((c.log t.trace).print output) r :=
    (hrun none).trans (conclude_eq hvalue (hredirects.show_eq _))
  have hwritten : run (some path) = next { c.log t.trace with files := files } r :=
    (hrun (some path)).trans (conclude_eq hvalue hwrite)
  refine ⟨hending, ?_, hstdout, ?_, ?_, hfiles, ?_⟩
  · rw [hwritten]
    exact hcloses.ending_eq _
  · rw [hwritten]
    exact (hcloses.stdout_eq _).trans hc
  · -- Both ways to deliver leave the log and what it has written so far as they are.
    rw [hwritten, hshown]
    exact hcloses.stderr_eq rfl rfl
  · rw [hwritten, hcloses.files_eq]
    exact hdelivers rfl

/-- A result that is shown is there to be read. -/
theorem Concludes.shows {document : Json}
    (h : Concludes run c code (document.render ++ "\n") contents) (hc : c.stdout = "")
    (hexact : document.IsExact) :
    (run none).Shows document.sorted code := by
  obtain ⟨hending, hstdout, -⟩ := h.shown hc
  refine ⟨hending, ?_⟩
  rw [hstdout, Json.stripControls_line hexact]
  exact Json.read_render_line hexact

/-- A result that is written is there to be read. -/
theorem Concludes.read_eq {code' : Nat} (h : Concludes run c code output contents)
    (hc : c.stdout = "") (hexit : (run (some path)).ending = .exit code') :
    (run (some path)).console.files.read (Path.ofString path)
      = .ok (Text.Utf8.encode contents) :=
  (h.isRedirected hc (h.isOpenTo hexit)).delivers.read_eq

end Concluded

section Commands

variable {i : Invocation} {s : Surroundings} {text : String} {es : List Event} {values : Mapping}

/-- The run of a command has the destination that the invocation names. -/
theorem runTo_out (i : Invocation) (s : Surroundings) (c : Console) (values : Mapping)
    (text : String) : i.runTo s c values text i.out = i.runWith s c values text := rfl

theorem closes_succeed (i : Invocation) (s : Surroundings) (text : String)
    (fields : List (String × Nat)) : Outcome.Closes (i.succeed s text fields) 0 := by
  refine ⟨fun c => rfl, fun c => rfl, fun c => rfl, fun {c d} hlogger hstderr => ?_⟩
  show c.stderr ++ c.logger.writeAll _ = d.stderr ++ d.logger.writeAll _
  rw [hlogger, hstderr]

/-- A check that finds keys missing says so after its entry in the log. -/
theorem closes_check (i : Invocation) (s : Surroundings) (fields : List (String × Nat))
    (message : String) (complete : Bool) : Outcome.Closes (fun c =>
      let code := if complete then 0 else Ending.missingKeys
      let c := i.logDone s c code fields
      if complete then ⟨c, .done⟩ else ⟨c.complain message, .exit code⟩)
      (if complete then 0 else 2) := by
  cases complete with
  | true =>
    refine ⟨fun c => rfl, fun c => rfl, fun c => rfl, fun {c d} hlogger hstderr => ?_⟩
    show c.stderr ++ c.logger.writeAll _ = d.stderr ++ d.logger.writeAll _
    rw [hlogger, hstderr]
  | false =>
    refine ⟨fun c => rfl, fun c => rfl, fun c => rfl, fun {c d} hlogger hstderr => ?_⟩
    show c.stderr ++ c.logger.writeAll _ ++ _ ++ _ = d.stderr ++ d.logger.writeAll _ ++ _ ++ _
    rw [hlogger, hstderr]

section Events

variable (h : Template.events text = .ok es)

include h

theorem value_pass_render (c : Console) (values : Mapping) :
    (pass c .render values text).value = .ok (Event.textAll values es) := by
  have hscan : (Template.interpret .render values text (tracing c)).value
      = Template.render values text :=
    Template.value_interpret_tracing .render values text (tracing c)
  simp only [pass, Log.Traced.map, hscan, Template.render_of_events h]
  rfl

theorem value_pass_keys (c : Console) (unique : Bool) :
    ((pass c .keys [] text).map fun r =>
        r.map fun ks => if unique then Keyed.distinct ks else ks).value
      = .ok (Event.listed unique es) := by
  have hscan : (Template.interpret .keys [] text (tracing c)).value = Template.keys text :=
    Template.value_interpret_tracing .keys [] text (tracing c)
  simp only [pass, Log.Traced.map, hscan, Template.keys_of_events h]
  rfl

theorem concludes_render (hcommand : i.command = .render) (s : Surroundings) (c : Console)
    (values : Mapping) :
    Concludes (i.runTo s c values text) c 0
      (Event.textAll values es) (Event.textAll values es) := by
  refine .intro _ _ (fun out c r => c.deliverText out r) (fun c _ => i.succeed s text [] c)
    (value_pass_render h c values) (Console.redirects_deliverText _) (closes_succeed i s text [])
    fun out => ?_
  show _ = runRender { i with out := out } s c values text
  simp only [runTo, runWith, hcommand]

theorem concludes_measure (hcommand : i.command = .measure) (s : Surroundings) (c : Console)
    {report : MeasureReport}
    (hreport : report = ⟨(Event.textAll values es).length, Event.widths values es⟩)
    (hshort : Integer.AreShort (report.total :: report.placeholders)) :
    Concludes (i.runTo s c values text) c 0
      (report.toJson.render ++ "\n") report.toJson.render := by
  have hvalue := Template.value_measureReport_of_events h values (tracing c)
  rw [← hreport] at hvalue
  refine .intro _ _ (fun out c (r : MeasureReport) => c.deliverJson out r.toJson)
    (fun c _ => i.succeed s text [] c) hvalue
    (Console.redirects_deliverJson (MeasureReport.isExact_toJson hshort).isConvertible)
    (closes_succeed i s text []) fun out => ?_
  show _ = runMeasure { i with out := out } s c values text
  simp only [runTo, runWith, hcommand]

theorem concludes_keys (hcommand : i.command = .keys) (s : Surroundings) (c : Console)
    (values : Mapping) :
    Concludes (i.runTo s c values text) c 0
      ((Json.arr ((Event.listed i.unique es).map .str)).render ++ "\n")
      (Json.arr ((Event.listed i.unique es).map .str)).render := by
  refine .intro _ _ (fun out c (ks : List String) => c.deliverJson out (.arr (ks.map .str)))
    (fun c ks => i.succeed s text [("key_count", ks.length)] c) (value_pass_keys h c i.unique)
    (Console.redirects_deliverJson (Json.isExact_texts _).isConvertible)
    (closes_succeed i s text _) fun out => ?_
  show _ = runKeys { i with out := out } s c text
  simp only [runTo, runWith, hcommand]

theorem concludes_check (hcommand : i.command = .check) (s : Surroundings) (c : Console)
    {summary : TemplateSummary} (hsummary : Template.summarize values text = .ok summary)
    (hshort : Integer.AreShort (summary.totalLength :: summary.placeholderWidths)) :
    Concludes (i.runTo s c values text) c
      (if summary.isComplete then 0 else 2) (summary.toJson.render ++ "\n")
      summary.toJson.render := by
  have hvalue := (Template.value_summarizeTraced_of_events h values (tracing c)).trans hsummary
  refine .intro _ _ (fun out c (r : TemplateSummary) => c.deliverJson out r.toJson) (fun c r =>
      let code := if r.isComplete then 0 else Ending.missingKeys
      let c := i.logDone s c code
        [("template_chars", text.length), ("missing_count", r.missingKeys.length)]
      if r.isComplete then ⟨c, .done⟩
      else ⟨c.complain ("ERROR: missing keys: " ++ String.intercalate ", " r.missingKeys),
        .exit code⟩)
    hvalue (Console.redirects_deliverJson (TemplateSummary.isExact_toJson hshort).isConvertible)
    (closes_check i s _ _ _) fun out => ?_
  show _ = runCheck { i with out := out } s c values text
  simp only [runTo, runWith, hcommand]

end Events

end Commands

end Invocation

end PercentTemplate
