import PercentTemplate.Proofs.Command.Failure
import PercentTemplate.Proofs.Mapping.Reporting

/-!
# Values files that break a run down

Most of what can be wrong with a values file is reported. Three kinds of problems are not: a file
that is there, or a path, that the system refuses to open, a YAML document with a scalar or an
escape whose conversion goes wrong in an unforeseen way, and values too deep inside one another for
the stack (`Mapping.Escapes`).

Main statement: apart from these, a values file gives values or the run fails with a message, and
these break the run down (`Command.values_unless_escaping`). It holds on every host.
-/

namespace PercentTemplate

namespace Mapping

variable {h : Host} {files : FileTree} {path : Path} {f : LoadFault}

/-- Something is at the path that cannot be read, or it is a YAML document whose reading goes wrong
in a way of its own, or the values in it lie too deep inside one another. -/
inductive Escapes (h : Host) (files : FileTree) (path : Path) : Prop
  | unreadable (f : FileTree.Fault) (hbytes : bytesOf h files path = .error f) (hf : f ≠ .notFound)
      (hname : f ≠ .endMark)
  | unforeseen (cs : List Char) (f : Yaml.Fault) (hyaml : path.isJson = false)
      (hcontains : Contains h files path cs) (hvalue : h.yaml cs = .error f)
      (hf : f.isOfValue = false)
  | deepJson (cs : List Char) (hjson : path.isJson = true) (hcontains : Contains h files path cs)
      (hroom : h.jsonOverflows cs = true)
  | deepText (cs : List Char) (d : Document) (hyaml : path.isJson = false)
      (hcontains : Contains h files path cs) (hread : h.yaml cs = .ok d)
      (hroom : h.textOverflows d = true)

/-- The problems that are not reported are those that escape. -/
theorem escapes_iff :
    Escapes h files path ↔ ∃ f, load h files path = .error f ∧ f.isReported = false := by
  constructor
  · intro hescapes
    cases hescapes with
    | unreadable f hbytes hf hname =>
      refine ⟨_, load_of_leaks (.access hbytes hf), ?_⟩
      cases f with
      | endMark => exact absurd rfl hname
      | _ => rfl
    | unforeseen cs f hyaml hcontains hvalue hf =>
      have hne : f ≠ .malformed := by
        rintro rfl
        cases hf
      exact ⟨_, load_of_leaks (.scalar hyaml hcontains hvalue hne), hf⟩
    | deepJson cs hjson hcontains hroom =>
      exact ⟨_, load_of_leaks (.depth hjson hcontains hroom), rfl⟩
    | deepText cs d hyaml hcontains hread hroom =>
      exact ⟨_, load_of_leaks (.textDepth hyaml hcontains hread hroom), rfl⟩
  · rintro ⟨f, hload, hf⟩
    obtain ⟨p, rfl⟩ | hleaks := leaks_of_load hload
    · cases hf
    cases hleaks with
    | access hbytes hne =>
      refine .unreadable _ hbytes hne ?_
      rintro rfl
      cases hf
    | scalar hyaml hcontains hread _ => exact .unforeseen _ _ hyaml hcontains hread hf
    | depth hjson hcontains hroom => exact .deepJson _ hjson hcontains hroom
    | textDepth hyaml hcontains hread hroom => exact .deepText _ _ hyaml hcontains hread hroom
    | encoding | literal | text => cases hf

end Mapping

namespace Command

variable {s : Surroundings} {args : List String} {i : Invocation} {text : String}

/-- On every host a values file gives values or makes the run fail with a message unless it escapes,
and if it escapes then the run breaks down without a message. What the host does with YAML and where
its stack ends is not assumed, only told apart in `Mapping.Escapes`. -/
theorem values_unless_escaping (hargs : Invocation.parse args = .ok i)
    (hdir : i.namesDirectory s.files = false) (hcommand : i.command ≠ .keys)
    (hread : Template.read s.files s.stdin i.template
      (Settings.maxTemplateChars s.maxChars) = .ok text) {path : String}
    (hvalues : i.values = some path) :
    (¬Mapping.Escapes s.host s.files (Path.ofString path) →
      (∃ values, Mapping.load s.host s.files (Path.ofString path) = .ok values)
      ∨ ∃ f, Mapping.load s.host s.files (Path.ofString path) = .error f
        ∧ (execute s args).FailsWith s 1 f.message)
    ∧ (Mapping.Escapes s.host s.files (Path.ofString path) →
      ∃ f, Mapping.load s.host s.files (Path.ofString path) = .error f
        ∧ (execute s args).ending = .breakdown (.load f)
        ∧ (execute s args).console = i.startConsole s) := by
  have hmapping : i.fileMapping s.host s.files
      = (Mapping.load s.host s.files (Path.ofString path)).map Mapping.seen := by
    rw [Invocation.fileMapping, hvalues]
  have hexecute := execute_of_read hargs hdir hread
  constructor
  · intro hescapes
    cases hload : Mapping.load s.host s.files (Path.ofString path) with
    | ok values => exact .inl ⟨values, rfl⟩
    | error f =>
      refine .inr ⟨f, rfl, ?_⟩
      have hreported : f.isReported = true := by
        by_cases hf : f.isReported = true
        · exact hf
        · exact absurd (Mapping.escapes_iff.2 ⟨f, hload, Bool.eq_false_iff.2 hf⟩) hescapes
      have hrun := Invocation.runOn_of_load (c := i.startConsole s) hcommand
        (hmapping.trans (congrArg _ hload)) text
      rw [hexecute, hrun, if_pos hreported]
      exact Invocation.failsWith_fail i s _ _
  · intro hescapes
    obtain ⟨f, hload, hf⟩ := Mapping.escapes_iff.1 hescapes
    have hneg : ¬f.isReported = true := by simp [hf]
    have hrun := Invocation.runOn_of_load (c := i.startConsole s) hcommand
      (hmapping.trans (congrArg _ hload)) text
    rw [hexecute, hrun, if_neg hneg]
    exact ⟨f, hload, rfl, rfl⟩

/-- Surroundings with an empty file, a JSON document that is a list and an empty template. -/
def shapeless : Surroundings where
  files := ⟨[], [(["f"], .file []), (["v.json"], .file [0x5b, 0x5d])]⟩
  stdin := []
  maxChars := none
  logLevel := none
  elapsed := 0

/-- A document of the wrong shape is reported, and a path through a file escapes. -/
theorem values_unless_escaping_shapeless :
    (execute shapeless ["check", "-", "--values", "v.json"]).FailsWith shapeless 1
        "Mapping file must contain a mapping: v.json"
      ∧ Mapping.Escapes shapeless.host shapeless.files (Path.ofString "f/x")
      ∧ ∃ f, (execute shapeless ["check", "-", "--values", "f/x"]).ending
        = .breakdown (.load f) := by
  have hshape : Mapping.load shapeless.host shapeless.files (Path.ofString "v.json")
      = .error (.file .notMapping (Path.ofString "v.json")) := rfl
  have hread : Template.read shapeless.files shapeless.stdin "-"
      (Settings.maxTemplateChars shapeless.maxChars) = .ok "" := rfl
  have hescapes : Mapping.Escapes shapeless.host shapeless.files (Path.ofString "f/x") :=
    .unreadable .notDirectory rfl (by decide) (by decide)
  have hreported : ¬Mapping.Escapes shapeless.host shapeless.files (Path.ofString "v.json") := by
    intro h
    obtain ⟨f, hload, hf⟩ := Mapping.escapes_iff.1 h
    rw [hshape] at hload
    cases hload
    cases hf
  refine ⟨?_, hescapes, ?_⟩
  · have hargs : Invocation.parse ["check", "-", "--values", "v.json"]
        = .ok ⟨none, .check, "-", some "v.json", [], false, none⟩ := rfl
    obtain ⟨values, hload⟩ | ⟨f, hload, hfails⟩ :=
      (values_unless_escaping hargs rfl (by decide) hread rfl).1 hreported
    · rw [hshape] at hload
      cases hload
    · rw [hshape] at hload
      cases hload
      exact hfails
  · have hargs : Invocation.parse ["check", "-", "--values", "f/x"]
        = .ok ⟨none, .check, "-", some "f/x", [], false, none⟩ := rfl
    obtain ⟨f, -, hending, -⟩ :=
      (values_unless_escaping hargs rfl (by decide) hread rfl).2 hescapes
    exact ⟨f, hending⟩

/-- A path through a file gives no values, and the run does not fail with a message. -/
theorem not_failsWith_of_path_through_file :
    ∃ i, Invocation.parse ["render", "-", "--values", "f/x"] = .ok i
      ∧ i.namesDirectory shapeless.files = false
      ∧ Template.read shapeless.files shapeless.stdin i.template
        (Settings.maxTemplateChars shapeless.maxChars) = .ok ""
      ∧ (∀ values, i.fileMapping shapeless.host shapeless.files ≠ .ok values)
      ∧ ∀ code message, ¬(execute shapeless ["render", "-", "--values", "f/x"]).FailsWith
        shapeless code message := by
  have hload : Invocation.fileMapping shapeless.host shapeless.files
      ⟨none, .render, "-", some "f/x", [], false, none⟩
        = .error (.access .notDirectory (Path.ofString "f/x")) := rfl
  have hending : (execute shapeless ["render", "-", "--values", "f/x"]).ending
      = .breakdown (.load (.access .notDirectory (Path.ofString "f/x"))) := rfl
  refine ⟨⟨none, .render, "-", some "f/x", [], false, none⟩, rfl, rfl, rfl,
    fun values hvalues => ?_, fun code message hfails => ?_⟩
  · rw [hload] at hvalues
    cases hvalues
  · rw [hfails.ending_eq] at hending
    cases hending

end Command

end PercentTemplate
