import PercentTemplate.Files.Tree
import PercentTemplate.Json.Reader
import PercentTemplate.Yaml.Value

/-!
# Hosts

What reading a mapping file depends on besides the file: whether the system opens it, what reads a
YAML document, and whether the stack has room for values inside one another.

## Main definitions

- `Host` — all of this
- `Host.ofRoom` — a host that opens every file, with `Yaml.read` for YAML documents and a given number
  of places on the stack

What holds for every host does not depend on how YAML is read, or on where the stack ends.
-/

namespace PercentTemplate

/-- What reading a mapping file depends on besides the file. -/
structure Host where
  /-- Why the system does not open a file, if the reason is none of the tree. -/
  refusal? : Path → Option FileTree.Fault
  /-- The document of a YAML text, or what reading it fails with. -/
  yaml : List Char → Except Yaml.Fault Document
  /-- Whether reading a JSON text takes more of the stack than there is. -/
  jsonOverflows : List Char → Bool
  /-- Whether the texts of the lists in the document of a YAML text take more of the stack than
  there is. To write what has been read as JSON takes less than to read it. -/
  textOverflows : Document → Bool
  /-- There is room for an array or an object with none inside it. -/
  jsonOverflows_of_nesting_le : ∀ cs, Json.nesting cs ≤ 1 → jsonOverflows cs = false

namespace Host

/-- A host with a given number of places on the stack for values inside the outermost one. A value
inside another one takes one place in reading JSON, and `Yaml.Compose.levelRoom` in reading YAML. -/
def ofRoom (room : Nat) : Host where
  refusal? p := if p.holdsEndMark then some .endMark else none
  yaml := Yaml.read room
  jsonOverflows cs := room + 1 < Json.nesting cs
  textOverflows d := room < d.listDepth
  jsonOverflows_of_nesting_le _ h :=
    decide_eq_false (Nat.not_lt.2 (Nat.le_trans h (Nat.le_add_left 1 room)))

/-- As many places as there are by default for a text on one line, in a call from the outermost
level. -/
def standardRoom : Nat := 991

def standard : Host := ofRoom standardRoom

end Host

end PercentTemplate
