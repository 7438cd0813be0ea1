import PercentTemplate.Proofs.Command.Agreement

/-!
# Where a result goes

What a command reports (`Invocation.Reports`) does not depend on whether the report is shown or
written to a file, and neither does anything else that a run does.

Main statement: a run that writes its result to a file and one that shows it differ in nothing but
that (`Command.out_changes_destination`).
-/

namespace PercentTemplate

variable {code : Nat} {output contents : String}

namespace Invocation

section Commands

variable {i : Invocation} {s : Surroundings} {text : String} {es : List Event} {values : Mapping}

/-- What a command other than rendering reports on a text, and the code that it ends with. -/
inductive Reports (i : Invocation) (values : Mapping) (text : String) : Json → Nat → Prop
  | measure {lengths : Interpretation.Lengths} {report : MeasureReport}
    (command_eq : i.command = .measure) (lengths_eq : Template.measure values text = .ok lengths)
    (report_eq : MeasureReport.ofLengths lengths.toList = .ok report) :
    Reports i values text report.toJson 0
  | keys {names : List String} (command_eq : i.command = .keys)
    (names_eq : Template.keys text = .ok names) :
    Reports i values text
      (.arr ((if i.unique then Keyed.distinct names else names).map .str)) 0
  | check {summary : TemplateSummary} (command_eq : i.command = .check)
    (summary_eq : Template.summarize values text = .ok summary) :
    Reports i values text summary.toJson (if summary.isComplete then 0 else 2)

/-- A command that reports on a text concludes with the JSON document of the report, if the integers
in it are short enough to be read back. -/
theorem exists_reports (h : Template.events text = .ok es) (hcommand : i.command ≠ .render)
    (hshort : i.command = .measure ∨ i.command = .check →
      Integer.AreShort ((Event.textAll values es).length :: Event.widths values es))
    (s : Surroundings) (c : Console) :
    ∃ document code, i.Reports values text document code ∧ document.IsExact
      ∧ Concludes (i.runTo s c values text) c code
        (document.render ++ "\n") document.render := by
  cases hi : i.command with
  | render => exact absurd hi hcommand
  | measure =>
    have hshort := hshort (.inl hi)
    have hreport := MeasureReport.ofLengths_toList
      (l := ⟨(Event.textAll values es).length, (Event.widths values es).toArray⟩)
      (Int.natCast_nonneg _)
    exact ⟨_, _, .measure hi (Template.measure_eq values h) hreport,
      MeasureReport.isExact_toJson hshort, concludes_measure h hi s c rfl hshort⟩
  | keys =>
    exact ⟨_, _, .keys hi (Template.keys_of_events h), Json.isExact_texts _,
      concludes_keys h hi s c values⟩
  | check =>
    have hshort := hshort (.inr hi)
    have hsummary := Template.summarize_of_events h values
    exact ⟨_, _, .check hi hsummary, TemplateSummary.isExact_toJson hshort,
      concludes_check h hi s c hsummary hshort⟩

theorem namesDirectory_of_isOpenTo {files : FileTree} {path : String}
    (h : namesDirectory { i with out := none } files = false)
    (hopen : files.IsOpenTo (Path.ofString path)) :
    namesDirectory { i with out := some path } files = false := by
  have hdirectory := hopen.isDirectory_eq
  simp only [namesDirectory, List.any_cons, List.any_nil, Option.any_none, Option.any_some,
    Bool.or_false] at h ⊢
  rw [h, hdirectory, Bool.and_false, Bool.or_false]

end Commands

end Invocation

namespace Command

variable {i : Invocation} {s : Surroundings} {args outArgs : List String} {path : String}
  {values : Mapping} {text : String} {es : List Event}

section Runs

variable (hargs : Invocation.parse args = .ok { i with out := none })
  (houtArgs : Invocation.parse outArgs = .ok { i with out := some path })
  (hread : Template.read s.files s.stdin i.template
    (Settings.maxTemplateChars s.maxChars) = .ok text)
  (hmapping : i.mapping s.host s.files = .ok values)

include hargs houtArgs hread hmapping

/-- Both runs are runs of one command on the same inputs. -/
theorem redirected_of_concludes
    (h : Invocation.Concludes (i.runTo s (i.startConsole s) values text) (i.startConsole s) code
      output contents) :
    ((∃ code, (execute s outArgs).ending = .exit code) ↔ s.files.IsOpenTo (Path.ofString path))
      ∧ (s.files.IsOpenTo (Path.ofString path) →
        (execute s args).IsRedirected (execute s outArgs) s.files (Path.ofString path) code
          (Text.stripControls output) contents) := by
  have hasked : ∀ {out args}, Invocation.parse args = .ok { i with out := out } →
      i.IsAskedFor args i.command i.unique out { i with out := out } :=
    fun h => ⟨h, rfl, rfl, rfl, rfl, fun _ => rfl, fun _ => rfl⟩
  have hdir := (hasked hargs).namesDirectory_eq hmapping
  have hshown := execute_of_isAskedFor hread hmapping (hasked hargs) hdir
  have hwritten := execute_of_isAskedFor hread hmapping (hasked houtArgs)
  have hredirected : ∀ hopen : s.files.IsOpenTo (Path.ofString path),
      (execute s args).IsRedirected (execute s outArgs) s.files (Path.ofString path) code
        (Text.stripControls output) contents := by
    intro hopen
    rw [hshown, hwritten (Invocation.namesDirectory_of_isOpenTo hdir hopen)]
    exact h.isRedirected rfl hopen
  refine ⟨⟨?_, fun hopen => ⟨code, (hredirected hopen).ending_written⟩⟩, hredirected⟩
  -- A destination that names a directory is refused before anything is read.
  rintro ⟨code', hexit⟩
  rw [hwritten (namesDirectory_of_exit houtArgs hexit)] at hexit
  exact h.isOpenTo hexit

/-- A run that writes its result to a file ends with a code exactly if the destination is open, and
then it differs in nothing but the destination from the run that shows the result. Both end with the
same code and say the same on the error stream. One of them leaves all files alone, the other one
shows nothing and changes no file but the one that its path leads to. A rendered text is written as
it is and shown without control sequences. Of any other result the file holds a JSON document, which
is the report of the command, and it is shown as it is on a line of its own. -/
theorem out_changes_destination {lengths : Interpretation.Lengths}
    (hmeasure : Template.measure values text = .ok lengths)
    (hshort : i.command = .measure ∨ i.command = .check → Integer.AreShort lengths.toList) :
    ((∃ code, (execute s outArgs).ending = .exit code) ↔ s.files.IsOpenTo (Path.ofString path))
      ∧ (s.files.IsOpenTo (Path.ofString path) →
        (i.command = .render → ∃ rendered, Template.render values text = .ok rendered
          ∧ (execute s args).IsRedirected (execute s outArgs) s.files (Path.ofString path) 0
            (Text.stripControls rendered) rendered
          ∧ (Text.escapeChar ∉ rendered.toList → Text.stripControls rendered = rendered))
        ∧ (i.command ≠ .render → ∃ document code, i.Reports values text document code
          ∧ (execute s args).IsRedirected (execute s outArgs) s.files (Path.ofString path) code
            (document.render ++ "\n") document.render
          ∧ Json.read document.render = .ok document.sorted.wide)) := by
  obtain ⟨es, hevents⟩ := Template.exists_events_of_measure hmeasure
  obtain rfl := Except.ok.inj (hmeasure.symm.trans (Template.measure_eq values hevents))
  by_cases hcommand : i.command = .render
  · obtain ⟨hiff, hredirected⟩ := redirected_of_concludes hargs houtArgs hread hmapping
      (Invocation.concludes_render hevents hcommand s _ values)
    refine ⟨hiff, fun hopen => ⟨fun _ => ?_, fun hne => absurd hcommand hne⟩⟩
    exact ⟨_, Template.render_of_events hevents values, hredirected hopen,
      Text.stripControls_eq_self⟩
  · obtain ⟨document, code, hreports, hexact, hconcludes⟩ :=
      Invocation.exists_reports hevents hcommand hshort s (i.startConsole s)
    obtain ⟨hiff, hredirected⟩ :=
      redirected_of_concludes hargs houtArgs hread hmapping hconcludes
    rw [Json.stripControls_line hexact] at hredirected
    refine ⟨hiff, fun hopen => ⟨fun h => absurd h hcommand, fun _ => ?_⟩⟩
    exact ⟨document, code, hreports, hredirected hopen, Json.read_render hexact⟩

end Runs

/-- A check that finds a key missing, with a destination in a directory that there is not yet. -/
theorem out_changes_destination_missing :
    ∃ document, Invocation.Reports ⟨none, .check, "-", some "v.json", ["b=yy"], false, none⟩
        [("a", "x"), ("b", "yy")] "%(a)%(c)%(b)%(a)" document 2
      ∧ (execute provided ["check", "-", "--values", "v.json", "--set", "b=yy"]).IsRedirected
        (execute provided
          ["check", "-", "--values", "v.json", "--set", "b=yy", "--out", "d/o.json"])
        provided.files (Path.ofString "d/o.json") 2 (document.render ++ "\n") document.render
      ∧ Json.read document.render = .ok document.sorted.wide := by
  have hargs : Invocation.parse ["check", "-", "--values", "v.json", "--set", "b=yy"]
      = .ok ⟨none, .check, "-", some "v.json", ["b=yy"], false, none⟩ := rfl
  have houtArgs : Invocation.parse
      ["check", "-", "--values", "v.json", "--set", "b=yy", "--out", "d/o.json"]
        = .ok ⟨none, .check, "-", some "v.json", ["b=yy"], false, some "d/o.json"⟩ := rfl
  have hexit : (execute provided
      ["check", "-", "--values", "v.json", "--set", "b=yy", "--out", "d/o.json"]).ending
        = .exit 2 := by decide +kernel
  obtain ⟨hiff, hopen⟩ := out_changes_destination
    (i := ⟨none, .check, "-", some "v.json", ["b=yy"], false, none⟩) hargs houtArgs read_provided
    mapping_provided (Template.measure_eq [("a", "x"), ("b", "yy")] events_provided)
    (fun _ => by unfold Integer.AreShort; decide +kernel)
  obtain ⟨document, code, hreports, hredirected, hdocument⟩ :=
    (hopen (hiff.1 ⟨2, hexit⟩)).2 (by decide)
  obtain rfl : code = 2 := by simpa [hexit] using hredirected.ending_written.symm
  exact ⟨document, hreports, hredirected, hdocument⟩

end Command

end PercentTemplate
