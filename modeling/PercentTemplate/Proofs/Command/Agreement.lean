import PercentTemplate.Proofs.Command.Delivery
import PercentTemplate.Proofs.Mapping.RoundTrip
import PercentTemplate.Proofs.Report.Consistency

/-!
# Commands on the same inputs

All commands read the same template, and all but one take the same values, so what they deliver fits
together. An argument list asks for a command on the inputs of an invocation
(`Invocation.IsAskedFor`); what it delivers is what the events of the template give.

Main statement: lengths, keys and exit codes of all commands on the same inputs agree, and so does
the file that is rendered (`Command.results_agree`).
-/

namespace PercentTemplate

/-- An argument list asks for a command on the inputs of `i`: on the same template, and with the same
values if the command takes any. -/
structure Invocation.IsAskedFor (i : Invocation) (args : List String) (command : Command)
    (unique : Bool) (out : Option String) (j : Invocation) : Prop where
  parse_eq : parse args = .ok j
  command_eq : j.command = command
  unique_eq : j.unique = unique
  out_eq : j.out = out
  template_eq : j.template = i.template
  values_eq : command ≠ .keys → j.values = i.values
  assignments_eq : command ≠ .keys → j.assignments = i.assignments

namespace Invocation

variable {i j : Invocation} {s : Surroundings} {args : List String} {command : Command}
  {unique : Bool} {out : Option String} {values : Mapping} {text : String} {es : List Event}

theorem IsAskedFor.fileMapping_eq (h : i.IsAskedFor args command unique out j)
    (hcommand : command ≠ .keys) (host : Host) (files : FileTree) :
    j.fileMapping host files = i.fileMapping host files := by
  rw [fileMapping, fileMapping, h.values_eq hcommand]

theorem IsAskedFor.mapping_eq (h : i.IsAskedFor args command unique out j)
    (hcommand : command ≠ .keys) (host : Host) (files : FileTree) :
    j.mapping host files = i.mapping host files := by
  rw [mapping, mapping, h.fileMapping_eq hcommand, h.assignments_eq hcommand]

/-- Values that are there do not come from a directory. -/
theorem IsAskedFor.namesDirectory_eq (h : i.IsAskedFor args command unique none j)
    (hmapping : i.mapping s.host s.files = .ok values) : j.namesDirectory s.files = false := by
  rw [namesDirectory, h.out_eq]
  cases hvalues : j.values with
  | none => rfl
  | some path =>
    have hcommand : command ≠ .keys := by
      intro hkeys
      have hnone := (values_of_keys h.parse_eq (h.command_eq.trans hkeys)).1
      rw [hvalues] at hnone
      cases hnone
    obtain ⟨fromFile, -, hfile, -⟩ := exists_of_mapping hmapping
    rw [← h.fileMapping_eq hcommand, fileMapping, hvalues] at hfile
    change (Mapping.load s.host s.files (Path.ofString path)).map Mapping.seen = _ at hfile
    cases hload : Mapping.load s.host s.files (Path.ofString path) with
    | error f =>
      rw [hload] at hfile
      cases hfile
    | ok m => simp [Mapping.isDirectory_of_load hload]

theorem runOn_eq_runWith {c : Console}
    (h : i.command ≠ .keys → i.mapping s.host c.files = .ok values) (text : String) :
    i.runOn s c text = i.runWith s c values text := by
  have hvalues : i.command ≠ .keys → ∀ next, i.runWithValues s c next = next values := by
    intro hcommand next
    rw [runWithValues, h hcommand]
  unfold runOn runWith
  cases hcommand : i.command with
  | keys => rfl
  | render | measure | check => exact hvalues (by simp [hcommand]) _

end Invocation

/-- A report on lengths and a summary that both give these lengths. -/
structure ReportsAgree (measured checked : Json) (lengths : Interpretation.Lengths) : Prop where
  total_eq : Json.member? "total" measured = some (.int lengths.total)
  totalLength_eq : Json.member? "total_length" checked = some (.int lengths.total)
  placeholders_eq :
    Json.member? "placeholders" measured = some (.arr (lengths.widths.toList.map .int))
  placeholderWidths_eq :
    Json.member? "placeholder_widths" checked = some (.arr (lengths.widths.toList.map .int))

theorem MeasureReport.member?_toJson (r : MeasureReport) :
    Json.member? "total" r.toJson.sorted = some (.int r.total)
      ∧ Json.member? "placeholders" r.toJson.sorted = some (.arr (r.placeholders.map .int)) := by
  have hsorted := Json.sorted_arr_map (f := .int) (fun _ => rfl) r.placeholders
  constructor
  · rw [toJson, Json.member?_sorted (by simp [Keyed.keys])]
    rfl
  · rw [toJson, Json.member?_sorted (by simp [Keyed.keys])]
    exact congrArg some hsorted

theorem TemplateSummary.member?_toJson (r : TemplateSummary) :
    Json.member? "total_length" r.toJson.sorted = some (.int r.totalLength)
      ∧ Json.member? "placeholder_widths" r.toJson.sorted
        = some (.arr (r.placeholderWidths.map .int))
      ∧ Json.member? "keys" r.toJson.sorted = some (.arr (r.keys.map .str))
      ∧ Json.member? "missing_keys" r.toJson.sorted = some (.arr (r.missingKeys.map .str)) := by
  have hwidths := Json.sorted_arr_map (f := .int) (fun _ => rfl) r.placeholderWidths
  have hkeys := Json.sorted_arr_map (f := .str) (fun _ => rfl) r.keys
  have hmissing := Json.sorted_arr_map (f := .str) (fun _ => rfl) r.missingKeys
  have hnodup : (Keyed.keys [("total_length", Json.int r.totalLength),
      ("placeholder_widths", .arr (r.placeholderWidths.map .int)),
      ("keys", .arr (r.keys.map .str)),
      ("missing_keys", .arr (r.missingKeys.map .str))]).Nodup := by
    simp [Keyed.keys]
  rw [toJson]
  refine ⟨?_, ?_, ?_, ?_⟩
  · rw [Json.member?_sorted hnodup]
    rfl
  · rw [Json.member?_sorted hnodup]
    exact congrArg some hwidths
  · rw [Json.member?_sorted hnodup]
    exact congrArg some hkeys
  · rw [Json.member?_sorted hnodup]
    exact congrArg some hmissing

namespace Command

variable {i j : Invocation} {s : Surroundings} {args : List String} {command : Command}
  {unique : Bool} {out : Option String} {values : Mapping} {text : String} {es : List Event}

/-- A run that ends with a code has not been refused for naming a directory. -/
theorem namesDirectory_of_exit {code : Nat} (hargs : Invocation.parse args = .ok j)
    (hexit : (execute s args).ending = .exit code) : j.namesDirectory s.files = false := by
  by_cases hdir : j.namesDirectory s.files = true
  · rw [execute_of_parse hargs, Invocation.run, if_pos hdir] at hexit
    cases hexit
  · exact Bool.eq_false_iff.2 hdir

section Inputs

variable (hread : Template.read s.files s.stdin i.template
    (Settings.maxTemplateChars s.maxChars) = .ok text)
  (hmapping : i.mapping s.host s.files = .ok values) (hevents : Template.events text = .ok es)

include hread hmapping

theorem execute_of_isAskedFor (h : i.IsAskedFor args command unique out j)
    (hdir : j.namesDirectory s.files = false) :
    execute s args = j.runTo s (j.startConsole s) values text out := by
  have htemplate : Template.read s.files s.stdin j.template
      (Settings.maxTemplateChars s.maxChars) = .ok text := by rw [h.template_eq, hread]
  rw [execute_of_read h.parse_eq hdir htemplate, ← h.out_eq, Invocation.runTo_out]
  refine Invocation.runOn_eq_runWith (fun hcommand => ?_) text
  exact (h.mapping_eq (h.command_eq ▸ hcommand) s.host s.files).trans hmapping

include hevents

theorem shows_keys (h : i.IsAskedFor args .keys unique none j) :
    (execute s args).Shows (.arr ((Event.listed unique es).map .str)) 0 := by
  have hsorted : (Json.arr ((Event.listed j.unique es).map .str)).sorted
      = .arr ((Event.listed j.unique es).map .str) := Json.sorted_arr_map (fun _ => rfl) _
  rw [execute_of_isAskedFor hread hmapping h (h.namesDirectory_eq hmapping), ← h.unique_eq,
    ← hsorted]
  exact (Invocation.concludes_keys hevents h.command_eq s _ values).shows rfl
    (Json.isExact_texts _)

theorem shows_measure (h : i.IsAskedFor args .measure unique none j)
    (hshort : Integer.AreShort ((Event.textAll values es).length :: Event.widths values es)) :
    (execute s args).Shows (MeasureReport.toJson
      ⟨(Event.textAll values es).length, Event.widths values es⟩).sorted 0 := by
  rw [execute_of_isAskedFor hread hmapping h (h.namesDirectory_eq hmapping)]
  exact (Invocation.concludes_measure hevents h.command_eq s _ rfl hshort).shows rfl
    (MeasureReport.isExact_toJson hshort)

theorem shows_check (h : i.IsAskedFor args .check unique none j) {summary : TemplateSummary}
    (hsummary : Template.summarize values text = .ok summary)
    (hshort : Integer.AreShort (summary.totalLength :: summary.placeholderWidths)) :
    (execute s args).Shows summary.toJson.sorted (if summary.isComplete then 0 else 2) := by
  rw [execute_of_isAskedFor hread hmapping h (h.namesDirectory_eq hmapping)]
  exact (Invocation.concludes_check hevents h.command_eq s _ hsummary hshort).shows rfl
    (TemplateSummary.isExact_toJson hshort)

/-- What is rendered to a file is there to be read. -/
theorem read_of_render {path : String} (h : i.IsAskedFor args .render unique (some path) j)
    (hdone : (execute s args).ending = .done) :
    (execute s args).console.files.read (Path.ofString path)
      = .ok (Text.Utf8.encode (Event.textAll values es)) := by
  have hdir := namesDirectory_of_exit h.parse_eq hdone
  rw [execute_of_isAskedFor hread hmapping h hdir] at hdone ⊢
  exact (Invocation.concludes_render hevents h.command_eq s _ values).read_eq rfl hdone

end Inputs

/-- On the same inputs a measurement and a check give the same lengths, whose total is the length of
the file that is rendered. The keys listed once are those of the check, which fails exactly if there
are more keys than widths, for the keys that neither the file nor an assignment sets. -/
theorem results_agree {lengths : Interpretation.Lengths} {margs cargs kargs uargs : List String}
    {m c k u : Invocation} (hread : Template.read s.files s.stdin i.template
      (Settings.maxTemplateChars s.maxChars) = .ok text)
    (hmapping : i.mapping s.host s.files = .ok values)
    (hmeasure : Template.measure values text = .ok lengths)
    (hshort : Integer.AreShort lengths.toList)
    (hm : i.IsAskedFor margs .measure false none m) (hc : i.IsAskedFor cargs .check false none c)
    (hk : i.IsAskedFor kargs .keys false none k) (hu : i.IsAskedFor uargs .keys true none u) :
    ∃ (measured checked : Json) (names missing : List String) (fromFile : Mapping),
      Template.keys text = .ok names
      ∧ (execute s margs).Shows measured 0
      ∧ (execute s cargs).Shows checked (if lengths.widths.size = names.length then 0 else 2)
      ∧ (execute s kargs).Shows (.arr (names.map .str)) 0
      ∧ (execute s uargs).Shows (.arr ((Keyed.distinct names).map .str)) 0
      ∧ ReportsAgree measured checked lengths
      ∧ Json.member? "keys" checked = some (.arr ((Keyed.distinct names).map .str))
      ∧ Json.member? "missing_keys" checked = some (.arr (missing.map .str))
      ∧ missing.Sublist (Keyed.distinct names)
      ∧ i.fileMapping s.host s.files = .ok fromFile
      ∧ (∀ key ∈ Keyed.distinct names, key ∈ missing ↔ key ∉ Keyed.keys fromFile
        ∧ ∀ a ∈ i.assignments, ∀ value, Assignment.parse a ≠ .ok (key, value))
      ∧ ∀ path rargs r, i.IsAskedFor rargs .render false (some path) r →
        (execute s rargs).ending = .done →
        ∃ bytes cs, (execute s rargs).console.files.read (Path.ofString path) = .ok bytes
          ∧ Text.Utf8.decode bytes = .ok cs ∧ cs.length = lengths.total := by
  obtain ⟨es, hevents⟩ := Template.exists_events_of_measure hmeasure
  obtain rfl := Except.ok.inj (hmeasure.symm.trans (Template.measure_eq values hevents))
  obtain ⟨fromFile, -, hfile, -⟩ := Invocation.exists_of_mapping hmapping
  have hsummary := Template.summarize_of_events hevents values
  have hagrees := Template.agreesWith_of_events hevents hsummary
  have hcode : (if (TemplateSummary.isComplete _) then 0 else 2)
      = if (Event.widths values es).toArray.size = (es.filterMap Event.key?).length then 0 else 2 :=
    if_congr hagrees.isComplete_iff rfl rfl
  have hmeasured := shows_measure hread hmapping hevents hm hshort
  have hchecked := shows_check hread hmapping hevents hc hsummary hshort
  rw [hcode] at hchecked
  obtain ⟨htotal, hplaceholders⟩ := MeasureReport.member?_toJson
    ⟨(Event.textAll values es).length, Event.widths values es⟩
  obtain ⟨htotalLength, hwidths, hkeys, hmissing⟩ := TemplateSummary.member?_toJson _
  refine ⟨_, _, _, _, fromFile, Template.keys_of_events hevents, hmeasured, hchecked,
    shows_keys hread hmapping hevents hk, shows_keys hread hmapping hevents hu,
    ⟨htotal, htotalLength, hplaceholders, hwidths⟩, hkeys, hmissing, List.filter_sublist, hfile,
    ?_, ?_⟩
  · intro key hkey
    rw [List.mem_filter, Bool.not_eq_true', Bool.eq_false_iff, ne_eq,
      Invocation.defines_iff hmapping hfile, not_or]
    simp [hkey]
  · intro path rargs r hr hdone
    refine ⟨_, _, read_of_render hread hmapping hevents hr hdone, Text.Utf8.decode_encode _, ?_⟩
    rw [String.length_toList]

/-- Surroundings with a template on the standard input and a value for one of its keys in a file. -/
def provided : Surroundings where
  files := ⟨[], [(["v.json"], .file (Text.Utf8.encode (Mapping.toJson [("a", "x")]).render))]⟩
  stdin := [0x25, 0x28, 0x61, 0x29, 0x25, 0x28, 0x63, 0x29, 0x25, 0x28, 0x62, 0x29, 0x25, 0x28,
    0x61, 0x29]
  maxChars := none
  logLevel := none
  elapsed := 0

theorem load_provided :
    Mapping.load provided.host provided.files (Path.ofString "v.json")
      = .ok (Mapping.wide [("a", "x")]) := by
  have hread : Mapping.bytesOf provided.host provided.files (Path.ofString "v.json")
      = .ok (Text.Utf8.encode (Mapping.toJson [("a", "x")]).render) := rfl
  have hkeys : (Keyed.keys [("a", "x")]).Nodup := by decide
  have hjson : (Path.ofString "v.json").isJson = true := by decide +kernel
  have hsort : Json.sortMembers [("a", "x")] = [("a", "x")] := by simp [Json.sortMembers]
  have hbytes := Mapping.ofBytes_render (h := provided.host) hkeys hjson
  rw [hsort] at hbytes
  rw [Mapping.load_of_bytesOf hread]
  exact hbytes

theorem fileMapping_provided : Invocation.fileMapping provided.host provided.files
    ⟨none, .check, "-", some "v.json", ["b=yy"], false, none⟩ = .ok [("a", "x")] :=
  Invocation.fileMapping_of_load rfl load_provided

theorem mapping_provided : Invocation.mapping provided.host provided.files
    ⟨none, .check, "-", some "v.json", ["b=yy"], false, none⟩ = .ok [("a", "x"), ("b", "yy")] := by
  rw [Invocation.mapping, fileMapping_provided]
  rfl

theorem read_provided : Template.read provided.files provided.stdin "-"
    (Settings.maxTemplateChars provided.maxChars) = .ok "%(a)%(c)%(b)%(a)" := by
  have hcontents : Template.contents provided.files provided.stdin "-" = .ok
      ['%', '(', 'a', ')', '%', '(', 'c', ')', '%', '(', 'b', ')', '%', '(', 'a', ')'] := rfl
  exact Template.read_of_le hcontents (by decide)

theorem events_provided : Template.events "%(a)%(c)%(b)%(a)"
    = .ok [.key "a" Format.unset ⟨0, "%(a)"⟩, .key "c" Format.unset ⟨4, "%(c)"⟩,
      .key "b" Format.unset ⟨8, "%(b)"⟩, .key "a" Format.unset ⟨12, "%(a)"⟩] :=
  Template.events_of_toOption (by decide +kernel)

/-- The file sets one key, an assignment another, and a third one is missing. -/
theorem results_agree_unset :
    ∃ (checked : Json) (missing : List String),
      (execute provided ["check", "-", "--values", "v.json", "--set", "b=yy"]).Shows checked 2
      ∧ (execute provided ["keys", "-", "--unique"]).Shows
        (.arr [.str "a", .str "c", .str "b"]) 0
      ∧ Json.member? "placeholder_widths" checked = some (.arr [.int 1, .int 2, .int 1])
      ∧ Json.member? "missing_keys" checked = some (.arr (missing.map .str))
      ∧ (∀ key ∈ ["a", "c", "b"], key ∈ missing ↔ key ∉ ["a"]
        ∧ ∀ value, Assignment.parse "b=yy" ≠ .ok (key, value))
      ∧ ∃ bytes cs, (execute provided ["render", "-", "--values", "v.json", "--set", "b=yy",
          "--out", "o"]).console.files.read (Path.ofString "o") = .ok bytes
        ∧ Text.Utf8.decode bytes = .ok cs ∧ (cs.length : Int) = 8 := by
  have hmeasure := Template.measure_eq [("a", "x"), ("b", "yy")] events_provided
  have hm : Invocation.IsAskedFor ⟨none, .check, "-", some "v.json", ["b=yy"], false, none⟩
      ["measure", "-", "--values", "v.json", "--set", "b=yy"] .measure false none
      ⟨none, .measure, "-", some "v.json", ["b=yy"], false, none⟩ :=
    ⟨rfl, rfl, rfl, rfl, rfl, fun _ => rfl, fun _ => rfl⟩
  have hc : Invocation.IsAskedFor ⟨none, .check, "-", some "v.json", ["b=yy"], false, none⟩
      ["check", "-", "--values", "v.json", "--set", "b=yy"] .check false none
      ⟨none, .check, "-", some "v.json", ["b=yy"], false, none⟩ :=
    ⟨rfl, rfl, rfl, rfl, rfl, fun _ => rfl, fun _ => rfl⟩
  have hk : Invocation.IsAskedFor ⟨none, .check, "-", some "v.json", ["b=yy"], false, none⟩
      ["keys", "-"] .keys false none ⟨none, .keys, "-", none, [], false, none⟩ :=
    ⟨rfl, rfl, rfl, rfl, rfl, fun h => absurd rfl h, fun h => absurd rfl h⟩
  have hu : Invocation.IsAskedFor ⟨none, .check, "-", some "v.json", ["b=yy"], false, none⟩
      ["keys", "-", "--unique"] .keys true none ⟨none, .keys, "-", none, [], true, none⟩ :=
    ⟨rfl, rfl, rfl, rfl, rfl, fun h => absurd rfl h, fun h => absurd rfl h⟩
  have hr : Invocation.IsAskedFor ⟨none, .check, "-", some "v.json", ["b=yy"], false, none⟩
      ["render", "-", "--values", "v.json", "--set", "b=yy", "--out", "o"] .render false (some "o")
      ⟨none, .render, "-", some "v.json", ["b=yy"], false, some "o"⟩ :=
    ⟨rfl, rfl, rfl, rfl, rfl, fun _ => rfl, fun _ => rfl⟩
  have hdone : (execute provided ["render", "-", "--values", "v.json", "--set", "b=yy",
      "--out", "o"]).ending = .done := by decide +kernel
  obtain ⟨_, checked, names, missing, fromFile, hkeys, -, hchecked, -, hunique, hreports, -,
      hmissing, -, hfile, hunset, hrendered⟩ := results_agree read_provided mapping_provided hmeasure
    (by unfold Integer.AreShort; decide +kernel) hm hc hk hu
  obtain rfl := Except.ok.inj (hkeys.symm.trans (Template.keys_of_events events_provided))
  obtain rfl := Except.ok.inj (fileMapping_provided.symm.trans hfile)
  refine ⟨checked, missing, hchecked, hunique, hreports.placeholderWidths_eq, hmissing, ?_,
    hrendered _ _ _ hr hdone⟩
  intro key hkey
  have hiff := hunset key hkey
  simpa [Keyed.keys] using hiff

end Command

end PercentTemplate
