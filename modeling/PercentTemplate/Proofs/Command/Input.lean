import PercentTemplate.Command.Input
import PercentTemplate.Command.Settings
import PercentTemplate.Proofs.Files.Tree
import PercentTemplate.Proofs.Mapping.Assignment
import PercentTemplate.Proofs.Mapping.Reporting
import PercentTemplate.Proofs.Text.Utf8

/-!
# What the inputs of a command are

A template is read in two steps: its contents (`Template.contents`), whose size plays no part, and
the check of their size (`Template.read_eq`). The limit for the check is a setting if that is a
positive integer (`Settings.isLimit_maxTemplateChars`).
-/

namespace PercentTemplate

namespace Template

variable {files : FileTree} {stdin : List UInt8} {source : String} {limit : Int} {cs : List Char}

/-- The text of a template, its line ends unified, whatever its size. -/
def contents (files : FileTree) (stdin : List UInt8) (source : String) :
    Except ReadFault (List Char) :=
  match bytes files stdin source with
  | .error f => .error f
  | .ok bs =>
    match Text.Utf8.decode bs with
    | .error f => .error (.encoding f)
    | .ok cs => .ok (Text.unifyNewlines cs)

/-- The size of a template is checked after its contents are there. -/
theorem read_eq (files : FileTree) (stdin : List UInt8) (source : String) (limit : Int) :
    read files stdin source limit = (contents files stdin source).bind fun cs =>
      if limit < cs.length then .error (.tooLarge cs.length limit) else .ok (String.ofList cs) := by
  unfold read contents
  cases bytes files stdin source with
  | error f => rfl
  | ok bs =>
    dsimp only
    cases Text.Utf8.decode bs <;> rfl

theorem read_of_le (h : contents files stdin source = .ok cs) (hle : cs.length ≤ limit) :
    read files stdin source limit = .ok (String.ofList cs) := by
  rw [read_eq, h, Except.bind, if_neg (by omega)]

end Template

section Values

variable {host : Host} {files : FileTree} {values : Mapping}

/-- Of a file without surrogates a template sees what is loaded. -/
theorem Invocation.fileMapping_of_load {i : Invocation} {path : String}
    (hvalues : i.values = some path)
    (hload : Mapping.load host files (Path.ofString path) = .ok values.wide) :
    i.fileMapping host files = .ok values := by
  rw [fileMapping, hvalues]
  change (Mapping.load host files (Path.ofString path)).map Mapping.seen = _
  rw [hload, Except.map, Mapping.seen_wide]

/-- Values that are there come from a file that gives values and from assignments that are made. -/
theorem Invocation.exists_of_mapping {i : Invocation} (h : i.mapping host files = .ok values) :
    ∃ fromFile assigned, i.fileMapping host files = .ok fromFile
      ∧ Assignment.parseAll i.assignments = .ok assigned
      ∧ values = Mapping.override fromFile assigned := by
  unfold mapping at h
  split at h
  · cases h
  · rename_i fromFile hfile
    split at h
    · cases h
    · rename_i assigned hassigned
      cases h
      exact ⟨fromFile, assigned, hfile, hassigned, rfl⟩

/-- A key has a value if the file or an assignment sets it. -/
theorem Invocation.defines_iff {i : Invocation} {fromFile : Mapping}
    (h : i.mapping host files = .ok values) (hfile : i.fileMapping host files = .ok fromFile)
    {key : String} : values.defines key = true
      ↔ key ∈ Keyed.keys fromFile
        ∨ ∃ a ∈ i.assignments, ∃ value, Assignment.parse a = .ok (key, value) := by
  obtain ⟨fromFile', assigned, hfile', hassigned, rfl⟩ := exists_of_mapping h
  obtain rfl := Except.ok.inj (hfile.symm.trans hfile')
  have hcollects := Assignment.collects_of_parseAll hassigned
  simp only [Mapping.defines, Mapping.value?, Keyed.isSome_get?, Mapping.override,
    Keyed.mem_keys_putAll, hcollects.mem_keys_iff, Assignment.parse_eq_ok_iff]

/-- A file that gives values is no directory. -/
theorem Mapping.isDirectory_of_load {path : Path} {m : Mapping Text.Points}
    (h : Mapping.load host files path = .ok m) : files.isDirectory path = false := by
  obtain ⟨bytes, hbytes⟩ := exists_bytesOf_of_load h
  exact FileTree.isDirectory_of_read (read_of_bytesOf hbytes)

end Values

end PercentTemplate
