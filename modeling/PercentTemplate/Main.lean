import PercentTemplate.Command.Run

/-!
# The program

The command line at work. What the arguments name is read into a file tree, the run is computed from
that, and what it has shown and changed is then shown and written.

## Main definitions

- `Program.survey` — the part of the file system that a run can see
- `Program.apply` — write what a run has changed
- `main` — the program
-/

namespace PercentTemplate.Program

def pathText (location : List String) : String := "/" ++ String.intercalate "/" location

def entryAt (location : List String) : IO (Option FileTree.Entry) := do
  match ← (IO.FS.realPath (pathText location)).toBaseIO with
  | .error _ => return none
  | .ok path =>
    if ← path.isDir then return some .directory
    match ← (IO.FS.readBinFile path).toBaseIO with
    | .ok bytes => return some (.file bytes.toList)
    | .error _ => return none

/-- Take into a tree what lies on the way down from a location. -/
def lookDown (t : FileTree) (location : List String) : List String → IO FileTree
  | [] => return t
  | part :: rest => do
    let location := if part = ".." then location.dropLast else location ++ [part]
    match ← entryAt location with
    | some e => lookDown (t.set location e) location rest
    | none => return t

/-- The working directory and what lies on the way to some paths. -/
def survey (paths : List Path) : IO FileTree := do
  let here := (Path.ofString (← IO.currentDir).toString).parts
  let t ← lookDown { FileTree.empty with workingDirectory := here } [] here
  paths.foldlM (fun t p => lookDown t (if p.isAbsolute then [] else here) p.parts) t

def paths (args : List String) : List Path :=
  match Invocation.parse args with
  | .error _ => []
  | .ok i =>
    let template := if i.template == Template.standardInput then none else some i.template
    ([template, i.values, i.out].filterMap id).map Path.ofString

/-- Whether an argument list asks for the standard input. -/
def readsInput (args : List String) : Bool :=
  match Invocation.parse args with
  | .error _ => false
  | .ok i => i.template == Template.standardInput

/-- The rest of a stream behind `done`. -/
partial def readAll (stream : IO.FS.Stream) (done : ByteArray) : IO ByteArray := do
  let bytes ← stream.read 65536
  if bytes.isEmpty then return done
  readAll stream (done ++ bytes)

/-- Put a file in place at once: it is written beside its place and then moved there. -/
def replace (location : List String) (bytes : List UInt8) : IO Unit := do
  let beside (tries : Nat) : List String :=
    location.dropLast ++ [FileTree.temporaryNameAt (location.getLast?.getD "") tries]
  let isFree (tries : Nat) : IO Bool := return (← entryAt (beside tries)).isNone
  let tries := (← (List.range 100).findM? isFree).getD 100
  IO.FS.writeBinFile (pathText (beside tries)) (ByteArray.mk bytes.toArray)
  IO.FS.rename (pathText (beside tries)) (pathText location)

/-- Write what has changed from one tree to the next. -/
def apply (before after : FileTree) : IO Unit :=
  after.entries.forM fun (location, e) => do
    if before.get? location != some e then
      match e with
      | .directory => IO.FS.createDirAll (pathText location)
      | .file bytes => replace location bytes

/-- What is shown to someone who calls the program in a wrong way. -/
def usage : String :=
  "Usage: percentfmt [--log-level LEVEL] COMMAND TEMPLATE [OPTIONS]\n\n"
    ++ "Commands:\n"
    ++ "  render   [--values FILE] [--set KEY=VALUE]... [--out FILE]\n"
    ++ "  measure  [--values FILE] [--set KEY=VALUE]... [--out FILE]\n"
    ++ "  keys     [--unique] [--out FILE]\n"
    ++ "  check    [--values FILE] [--set KEY=VALUE]... [--out FILE]\n"

def surroundings (args : List String) : IO Surroundings := do
  let started ← IO.monoMsNow
  let files ← survey (paths args)
  let stdin ← if readsInput args then readAll (← IO.getStdin) ByteArray.empty else pure .empty
  let maxChars ← IO.getEnv "PERCENTFMT_MAX_TEMPLATE_CHARS"
  let logLevel ← IO.getEnv "PERCENTFMT_LOG_LEVEL"
  let elapsed := (← IO.monoMsNow) - started
  return ⟨files, stdin.toList, maxChars, logLevel, elapsed, .standard⟩

/-- Show how a run has ended; the result is the exit code. -/
def conclude : Ending → IO UInt32
  | .exit code => return .ofNat code
  | .usage => do
    IO.eprint usage
    return .ofNat Ending.wrongUsage
  | .breakdown b => do
    IO.eprintln b.message
    return 1

end PercentTemplate.Program

open PercentTemplate in
def main (args : List String) : IO UInt32 := do
  let s ← Program.surroundings args
  let outcome := Command.execute s args
  Program.apply s.files outcome.console.files
  IO.print outcome.console.stdout
  IO.eprint outcome.console.stderr
  Program.conclude outcome.ending
