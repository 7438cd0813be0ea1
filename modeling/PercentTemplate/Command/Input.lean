import PercentTemplate.Command.Arguments
import PercentTemplate.Mapping.Assignment
import PercentTemplate.Mapping.Load

/-!
# Inputs of a command

The template and the values that a command works on.

## Main definitions

- `Template.read` — the text of a template, up to a limit
- `Invocation.mapping` — the values from a file with the assignments on top of them
-/

namespace PercentTemplate

namespace Template

/-- Why a template cannot be used. -/
inductive ReadFault
  | access (f : FileTree.Fault) (path : Path)
  | encoding (f : Text.Utf8.Fault)
  | tooLarge (size : Nat) (limit : Int)
  deriving DecidableEq, Repr

def ReadFault.message : ReadFault → String
  | access f path => f.message path
  | encoding f => f.message
  | tooLarge size limit =>
    "Template has " ++ toString size ++ " characters, limit is " ++ toString limit

def ReadFault.isTooLarge : ReadFault → Bool
  | tooLarge _ _ => true
  | access _ _ | encoding _ => false

/-- The source that stands for the standard input. -/
def standardInput : String := "-"

/-- The bytes of a template: those of a file or of the standard input. -/
def bytes (files : FileTree) (stdin : List UInt8) (source : String) :
    Except ReadFault (List UInt8) :=
  if source == standardInput then .ok stdin
  else
    let path := Path.ofString source
    (files.read path).mapError (.access · path)

/-- The text of a template, its line ends unified, if it has at most `limit` characters. -/
def read (files : FileTree) (stdin : List UInt8) (source : String) (limit : Int) :
    Except ReadFault String :=
  match bytes files stdin source with
  | .error f => .error f
  | .ok bs =>
    match Text.Utf8.decode bs with
    | .error f => .error (.encoding f)
    | .ok cs =>
      let text := Text.unifyNewlines cs
      if limit < text.length then .error (.tooLarge text.length limit)
      else .ok (String.ofList text)

end Template

namespace Mapping

/-- Whether a fault is one of the path or the contents of a mapping file, which a command reports,
rather than a breakdown in reading it. -/
def LoadFault.isReported : LoadFault → Bool
  | file _ _ | access .endMark _ | encoding _ | integer _ => true
  | access _ _ | tooDeep => false
  | value f => f.isOfValue

end Mapping

namespace Invocation

/-- Why there are no values. -/
inductive MappingFault
  | load (f : Mapping.LoadFault)
  | assignment (f : Assignment.Fault)
  deriving DecidableEq, Repr

variable (h : Host) (files : FileTree)

/-- The values that a template sees of the mapping file, if one is named. -/
def fileMapping (i : Invocation) : Except Mapping.LoadFault Mapping :=
  match i.values with
  | none => .ok []
  | some path => (Mapping.load h files (Path.ofString path)).map Mapping.seen

/-- The values from the mapping file with the assignments on top of them. The file is looked at
first. -/
def mapping (i : Invocation) : Except MappingFault Mapping :=
  match i.fileMapping h files with
  | .error f => .error (.load f)
  | .ok values =>
    match Assignment.parseAll i.assignments with
    | .error f => .error (.assignment f)
    | .ok news => .ok (Mapping.override values news)

end Invocation

end PercentTemplate
