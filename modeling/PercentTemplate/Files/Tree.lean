import PercentTemplate.Files.Path
import PercentTemplate.Keyed
import PercentTemplate.Text.Quoted
import PercentTemplate.Text.Utf8

/-!
# File trees

Files and directories, each under the list of names that leads to it from the root, and the working
directory, where relative paths begin.

## Main definitions

- `FileTree` — files and directories under their locations
- `FileTree.locate` — the location that a path leads to
- `FileTree.read` — the bytes of a file
- `FileTree.makeDir`, `FileTree.ensureDirs` — a new directory, with those above it
- `FileTree.rename` — move a file over another
-/

namespace PercentTemplate

/-- What can be at a location. -/
inductive FileTree.Entry
  | file (bytes : List UInt8)
  | directory
  deriving DecidableEq, Repr

/-- Files and directories. The root has the empty location and is not listed. -/
structure FileTree where
  workingDirectory : List String
  entries : List (List String × FileTree.Entry)
  deriving DecidableEq, Repr

namespace FileTree

/-- Nothing but the root, where relative paths begin. -/
def empty : FileTree := ⟨[], []⟩

/-- Why the file system refuses an operation. -/
inductive Fault
  | notFound
  | exists
  | notDirectory
  | isDirectory
  | busy
  | nameTooLong
  /-- A path has the character in it that ends the names of the system. -/
  | endMark
  /-- A reason that lies in the system and not in the tree, such as a missing permission. -/
  | refused (number : Nat) (reason : String)
  deriving DecidableEq, Repr

def Fault.wording : Fault → String
  | notFound => "[Errno 2] No such file or directory"
  | «exists» => "[Errno 17] File exists"
  | notDirectory => "[Errno 20] Not a directory"
  | isDirectory => "[Errno 21] Is a directory"
  | busy => "[Errno 16] Device or resource busy"
  | nameTooLong => "[Errno 36] File name too long"
  | endMark => "embedded null byte"
  | refused number reason => "[Errno " ++ toString number ++ "] " ++ reason

/-- The wording of a fault with the path; a path that is none is not shown. -/
def Fault.message (f : Fault) (p : Path) : String :=
  match f with
  | endMark => f.wording
  | _ => f.wording ++ ": " ++ Text.quoted p.toString

def get? (t : FileTree) (location : List String) : Option Entry :=
  if location.isEmpty then some .directory else Keyed.get? location t.entries

def set (t : FileTree) (location : List String) (e : Entry) : FileTree :=
  { t with entries := Keyed.put location e t.entries }

/-- Go down the components from a location; everything passed on the way has to be a directory. -/
def walk (t : FileTree) (location : List String) : List String → Except Fault (List String)
  | [] => .ok location
  | part :: rest =>
    match t.get? location with
    | some .directory => t.walk (if part = ".." then location.dropLast else location ++ [part]) rest
    | some (.file _) => .error .notDirectory
    | none => .error .notFound

/-- The location that a path leads to, whether or not there is something. -/
def locate (t : FileTree) (p : Path) : Except Fault (List String) :=
  t.walk (if p.isAbsolute then [] else t.workingDirectory) p.parts

def isDirectory (t : FileTree) (p : Path) : Bool :=
  match t.locate p with
  | .error _ => false
  | .ok location => t.get? location = some .directory

/-- The bytes of the file that a path leads to. -/
def lookUp (t : FileTree) (p : Path) : Except Fault (List UInt8) :=
  match t.locate p with
  | .error f => .error f
  | .ok location =>
    match t.get? location with
    | none => .error .notFound
    | some .directory => .error .isDirectory
    | some (.file bytes) => .ok bytes

/-- The most bytes that a component of a path may have. -/
def maxNameBytes : Nat := 255

/-- The most bytes that a whole path may have. -/
def maxPathBytes : Nat := 4095

def isShortName (part : String) : Bool :=
  (Text.Utf8.encode part).length ≤ maxNameBytes

/-- Whether the way along a path comes to a directory in which a name is looked up that is too
long. -/
def meetsLongName (t : FileTree) (p : Path) : Bool :=
  !p.parts.all isShortName && t.isDirectory { p with parts := p.parts.takeWhile isShortName }

/-- What is wrong with a path that leads to no file: a name that is too long is not looked up. -/
def faultOf (t : FileTree) (p : Path) (f : Fault) : Fault :=
  if maxPathBytes < (Text.Utf8.encode p.toString).length then .nameTooLong
  else if f = .notFound && t.meetsLongName p then .nameTooLong
  else f

def read (t : FileTree) (p : Path) : Except Fault (List UInt8) :=
  (t.lookUp p).mapError (t.faultOf p)

def remove (t : FileTree) (location : List String) : FileTree :=
  { t with entries := t.entries.filter fun e => e.1 != location }

def makeDir (t : FileTree) (p : Path) : Except Fault FileTree :=
  match t.locate p with
  | .error f => .error f
  | .ok location =>
    match t.get? location with
    | some _ => .error .exists
    | none => .ok (t.set location .directory)

def ensureDir (t : FileTree) (p : Path) : FileTree × Option Fault :=
  match t.makeDir p with
  | .ok t => (t, none)
  | .error f => (t, if t.isDirectory p then none else some f)

/-- Make the directory whose components, the innermost first, are `reversed`, and those above it. -/
def ensureDirsAux (t : FileTree) (isAbsolute : Bool) : List String → FileTree × Option Fault
  | [] => (t, none)
  | part :: above =>
    let p : Path := ⟨isAbsolute, (part :: above).reverse⟩
    match t.makeDir p with
    | .ok t => (t, none)
    | .error .notFound =>
      match t.ensureDirsAux isAbsolute above with
      | (t, none) => t.ensureDir p
      | (t, some f) => (t, some f)
    | .error f => (t, if t.isDirectory p then none else some f)

/-- Make a directory and those above it unless they are there. Directories made before a failure
stay. -/
def ensureDirs (t : FileTree) (p : Path) : FileTree × Option Fault :=
  t.ensureDirsAux p.isAbsolute p.parts.reverse

/-- Move the file at `source` to where a path leads, over a file that may be there. A directory
cannot be replaced, and a path that ends in a step upwards or nowhere names a directory in use. -/
def rename (t : FileTree) (source : List String) (bytes : List UInt8) (p : Path) :
    Except Fault FileTree :=
  if p.parts.isEmpty || p.name = ".." then .error .busy
  else match t.locate p with
  | .error f => .error f
  | .ok location =>
    match t.get? location with
    | some .directory => .error .isDirectory
    | _ => .ok ((t.remove source).set location (.file bytes))

end FileTree

end PercentTemplate
