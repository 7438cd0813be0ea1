import PercentTemplate.Files.Tree
import PercentTemplate.Json.Writer
import PercentTemplate.Text.Utf8

/-!
# Writing files

New contents are written to a temporary file beside the destination, which then takes its place, so
that no reader ever sees half a file. Missing directories are made first.

## Main definitions

- `FileTree.temporaryName` — a free name beside a destination
- `FileTree.writeText` — write a text; a failure removes the temporary file
- `FileTree.writeJson` — write a JSON value; a failure to move the temporary file leaves it behind
-/

namespace PercentTemplate.FileTree

/-- A name for a temporary file, with as many repetitions of the tag as `tries`. -/
def temporaryNameAt (name : String) (tries : Nat) : String :=
  name ++ "." ++ String.join (List.replicate (tries + 1) "TMP") ++ ".tmp"

/-- A name that nothing in the directory has: one among as many candidates as there are entries, and
one more, is free. -/
def temporaryName (t : FileTree) (directory : List String) (name : String) : String :=
  let candidates := (List.range (t.entries.length + 1)).map (temporaryNameAt name)
  (candidates.find? fun n => (t.get? (directory ++ [n])).isNone).getD name

/-- Make the directories above a path and put a temporary file with the given bytes beside it: the
tree and the location of the file. -/
def stage (t : FileTree) (p : Path) (bytes : List UInt8) :
    FileTree × Except Fault (List String) :=
  match t.ensureDirs p.parent with
  | (t, some f) => (t, .error f)
  | (t, none) =>
    match t.locate p.parent with
    | .error f => (t, .error f)
    | .ok directory =>
      let location := directory ++ [t.temporaryName directory p.name]
      (t.set location (.file bytes), .ok location)

/-- Write a text. If the destination cannot be replaced, the temporary file is removed. -/
def writeText (t : FileTree) (p : Path) (text : String) : FileTree × Option Fault :=
  let bytes := Text.Utf8.encode text
  match t.stage p bytes with
  | (t, .error f) => (t, some f)
  | (t, .ok temporary) =>
    match t.rename temporary bytes p with
    | .ok t => (t, none)
    | .error f => (t.remove temporary, some f)

/-- Write a JSON value. If the destination cannot be replaced, the temporary file stays. -/
def writeJson (t : FileTree) (p : Path) (payload : Json) : FileTree × Option Fault :=
  let bytes := Text.Utf8.encode payload.render
  match t.stage p bytes with
  | (t, .error f) => (t, some f)
  | (t, .ok temporary) =>
    match t.rename temporary bytes p with
    | .ok t => (t, none)
    | .error f => (t, some f)

end PercentTemplate.FileTree
