import PercentTemplate.Files.Write
import PercentTemplate.Json.Emission

/-!
# Writing against obstacles

A file system can refuse any step of a write for a reason that no file or directory shows: a missing
permission, a name that is too long, a full disk. A write ends at the first step that is refused,
and what it has put beside the destination by then has to be taken away again.

## Main definitions

- `FileTree.Obstacles` — the steps of a write that are refused
- `FileTree.attempt` — the steps of a write up to the first problem
- `FileTree.writeTextAgainst` — write a text; a problem removes the temporary file
- `FileTree.writeJsonAgainst` — write a JSON value; a problem leaves the temporary file behind

Without obstacles these are `FileTree.writeText` and, for a value whose integers can all be
converted, `FileTree.writeJson`. That a temporary file is removed is never refused.
-/

namespace PercentTemplate.FileTree

/-- The steps of a write that the system refuses, whatever the tree looks like. -/
structure Obstacles where
  /-- The number of components of the path below which no directory can be made. -/
  directories : Option Nat
  /-- Whether no temporary file can be made. -/
  temporary : Bool
  /-- The number of bytes after which the temporary file takes no more. -/
  contents : Option Nat
  /-- Whether the temporary file cannot be moved. -/
  move : Bool
  deriving DecidableEq, Repr

/-- Nothing is refused. -/
def Obstacles.free : Obstacles := ⟨none, false, none, false⟩

/-- Why a write fails. -/
inductive Problem
  /-- The tree is in the way. -/
  | fault (f : Fault)
  /-- The system refuses a step. -/
  | refused
  deriving DecidableEq, Repr

/-- How far a write has come. -/
structure Progress where
  files : FileTree
  /-- The location of a temporary file that is there. -/
  temporary : Option (List String)
  problem : Option Problem
  deriving DecidableEq, Repr

/-- Make the directories above a path, the outermost first. -/
def prepare (t : FileTree) (o : Obstacles) (p : Path) : FileTree × Option Problem :=
  match o.directories with
  | none =>
    let (t, fault) := t.ensureDirs p.parent
    (t, fault.map .fault)
  | some count =>
    let (t, fault) := t.ensureDirs { p with parts := p.parent.parts.take count }
    (t, some ((fault.map .fault).getD .refused))

/-- The steps of a write: the directories above the destination are made and an empty temporary file
beside it, which is filled and moved to the destination. -/
def attempt (t : FileTree) (o : Obstacles) (p : Path) (bytes : List UInt8) : Progress :=
  match t.prepare o p with
  | (t, some problem) => ⟨t, none, some problem⟩
  | (t, none) =>
    match t.locate p.parent with
    | .error f => ⟨t, none, some (.fault f)⟩
    | .ok directory =>
      if o.temporary then ⟨t, none, some .refused⟩
      else
        let temporary := directory ++ [t.temporaryName directory p.name]
        let t := t.set temporary (.file [])
        match o.contents with
        | some count => ⟨t.set temporary (.file (bytes.take count)), some temporary, some .refused⟩
        | none =>
          let t := t.set temporary (.file bytes)
          if o.move then ⟨t, some temporary, some .refused⟩
          else match t.rename temporary bytes p with
          | .ok t => ⟨t, none, none⟩
          | .error f => ⟨t, some temporary, some (.fault f)⟩

/-- What is left of a write once its temporary file is removed. -/
def Progress.cleared (w : Progress) : FileTree :=
  match w.temporary with
  | none => w.files
  | some temporary => w.files.remove temporary

/-- Write a text. If that comes to a problem, the temporary file is removed. -/
def writeTextAgainst (t : FileTree) (o : Obstacles) (p : Path) (text : String) :
    FileTree × Option Problem :=
  let w := t.attempt o p (Text.Utf8.encode text)
  (w.cleared, w.problem)

/-- Why a JSON value is not written. -/
inductive JsonProblem
  | write (problem : Problem)
  /-- An integer of the value cannot be converted. -/
  | integer (f : Integer.Fault)
  deriving DecidableEq, Repr

/-- Write a JSON value. If that comes to a problem, the temporary file stays as it is by then. -/
def writeJsonAgainst (t : FileTree) (o : Obstacles) (p : Path) (payload : Json) :
    FileTree × Option JsonProblem :=
  let e := payload.emit
  let bytes := Text.Utf8.encode (String.ofList e.chars)
  match e.fault with
  | none =>
    let w := t.attempt o p bytes
    (w.files, w.problem.map .write)
  | some f =>
    -- The file takes what comes out, or less if it is full before.
    let room := o.contents.getD bytes.length
    let w := t.attempt { o with contents := some room } p bytes
    let isLast := w.temporary.isSome && bytes.length ≤ room
    (w.files, w.problem.map fun problem => if isLast then .integer f else .write problem)

end PercentTemplate.FileTree
