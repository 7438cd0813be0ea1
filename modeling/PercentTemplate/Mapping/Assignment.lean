import PercentTemplate.Mapping
import PercentTemplate.Text.Quoted

/-!
# Assignments

Inline values given as `KEY=VALUE`. The key ends at the first equals sign and is not empty; the
value may hold further ones.

## Main definitions

- `Assignment.parse` — the key and the value of one assignment
- `Assignment.parseAll` — the mapping that a list of assignments makes
-/

namespace PercentTemplate.Assignment

/-- The text that is no assignment. -/
structure Fault where
  assignment : String
  deriving DecidableEq, Repr

def Fault.message (f : Fault) : String :=
  "Invalid assignment (expected KEY=VALUE): " ++ Text.quoted f.assignment

def parse (s : String) : Except Fault (String × String) :=
  let key := s.toList.takeWhile (· != '=')
  match key, s.toList.dropWhile (· != '=') with
  | _ :: _, _ :: value => .ok (String.ofList key, String.ofList value)
  | _, _ => .error ⟨s⟩

/-- The mapping that assignments make: of several for one key the last counts, and the first text
that is no assignment is reported. -/
def parseAll (assignments : List String) : Except Fault Mapping :=
  (assignments.mapM parse).map Keyed.ofList

end PercentTemplate.Assignment
