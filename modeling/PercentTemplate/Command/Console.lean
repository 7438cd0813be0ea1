import PercentTemplate.Files.Write
import PercentTemplate.Log.Logger
import PercentTemplate.Text.Terminal

/-!
# Consoles

What a run has shown and written so far: both output streams, the log and the files.

## Main definitions

- `Console` — the output streams, the log and the files
- `Console.print`, `Console.complain` — show text on one of the streams
- `Console.log` — write records to the log
- `Console.writeText`, `Console.writeJson` — write a file
-/

namespace PercentTemplate

/-- The output streams, the log and the files. -/
structure Console where
  stdout : String
  stderr : String
  logger : Logger
  files : FileTree
  deriving DecidableEq, Repr

namespace Console

def start (files : FileTree) (logger : Logger) : Console := ⟨"", "", logger, files⟩

/-- Show a text on the standard output, without terminal control sequences. -/
def print (c : Console) (s : String) : Console :=
  { c with stdout := c.stdout ++ Text.stripControls s }

/-- Show a line on the error stream, without terminal control sequences. -/
def complain (c : Console) (s : String) : Console :=
  { c with stderr := c.stderr ++ Text.stripControls s ++ "\n" }

def log (c : Console) (rs : List Log.Record) : Console :=
  { c with stderr := c.stderr ++ c.logger.writeAll rs }

def writeText (c : Console) (p : Path) (s : String) : Console × Option FileTree.Fault :=
  let (files, fault) := c.files.writeText p s
  ({ c with files := files }, fault)

def writeJson (c : Console) (p : Path) (v : Json) : Console × Option FileTree.Fault :=
  let (files, fault) := c.files.writeJson p v
  ({ c with files := files }, fault)

/-- Show a text, or write it to a file if one is named. -/
def deliverText (c : Console) (out : Option Path) (s : String) : Console × Option FileTree.Fault :=
  match out with
  | none => (c.print s, none)
  | some p => c.writeText p s

/-- Show a JSON value on a line of its own, or write it to a file if one is named. -/
def deliverJson (c : Console) (out : Option Path) (v : Json) : Console × Option FileTree.Fault :=
  match out with
  | none => (c.print (v.render ++ "\n"), none)
  | some p => c.writeJson p v

end Console

end PercentTemplate
