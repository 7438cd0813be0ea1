import PercentTemplate.Text.UpperCase

/-!
# Paths

Names of files as sequences of components. Empty components and single points are dropped when a
path is read; two points stay, because where they lead depends on the files.

## Main definitions

- `Path` — the components of a path
- `Path.ofString`, `Path.toString` — reading and writing a path
- `Path.parent`, `Path.name`, `Path.suffix` — its parts
-/

namespace PercentTemplate

/-- The components of a path. -/
structure Path where
  /-- Whether the path starts at the root of the file system. -/
  isAbsolute : Bool
  parts : List String
  deriving DecidableEq, Repr

namespace Path

/-- Pieces of `cs` between slashes, behind the reversed current piece. -/
def components (piece : List Char) : List Char → List (List Char)
  | [] => [piece.reverse]
  | c :: rest =>
    if c = '/' then piece.reverse :: components [] rest else components (c :: piece) rest

def isStep (component : List Char) : Bool :=
  !component.isEmpty && component != ['.']

def ofString (s : String) : Path where
  isAbsolute := s.toList.head? == some '/'
  parts := ((components [] s.toList).filter isStep).map String.ofList

/-- The text that names a path; the path without components is a single point. -/
def toString (p : Path) : String :=
  if p.isAbsolute then "/" ++ String.intercalate "/" p.parts
  else if p.parts.isEmpty then "."
  else String.intercalate "/" p.parts

def parent (p : Path) : Path := { p with parts := p.parts.dropLast }

def name (p : Path) : String := p.parts.getLast?.getD ""

/-- The end of the name from its last point on. A point at the beginning or at the end of the name
starts no suffix. -/
def suffix (p : Path) : List Char :=
  let reversed := p.name.toList.reverse
  let tail := reversed.takeWhile (· != '.')
  if tail.isEmpty || reversed.length ≤ tail.length + 1 then [] else '.' :: tail.reverse

/-- Whether a name on the path has the character in it that ends the names of the system. -/
def holdsEndMark (p : Path) : Bool :=
  p.parts.any (·.toList.contains '\x00')

/-- Whether the suffix is `.json` in any letter case. -/
def isJson (p : Path) : Bool :=
  Text.toLowerAscii p.suffix == ".json".toList

end Path

end PercentTemplate
