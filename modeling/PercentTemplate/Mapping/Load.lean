import PercentTemplate.Document.Text
import PercentTemplate.Mapping
import PercentTemplate.Mapping.Host
import PercentTemplate.Text.Newline
import PercentTemplate.Text.Utf8

/-!
# Mapping files

Mappings from data files. A path with the suffix `.json` names a JSON file, any other a YAML file.
The document has to be a map; numbers and truth values in it become their text and lists the texts
of their items, joined by commas.

## Main definitions

- `Mapping.LoadFault` — why a file gives no mapping
- `Mapping.ofDocument` — the mapping that a document is
- `Mapping.ofBytes` — the mapping of the contents of a file
- `Mapping.load` — the mapping of a file
-/

namespace PercentTemplate.Mapping

open Text (Points)

/-- What is wrong with a mapping file as such. -/
inductive FileProblem
  | notFound
  | invalidJson
  | invalidYaml
  | notMapping
  | invalidSchema
  deriving DecidableEq, Repr

/-- The wording of a problem; the path follows it. -/
def FileProblem.wording : FileProblem → String
  | notFound => "Mapping file not found"
  | invalidJson => "Invalid JSON in mapping file"
  | invalidYaml => "Invalid YAML in mapping file"
  | notMapping => "Mapping file must contain a mapping"
  | invalidSchema => "Invalid mapping schema"

/-- Why a file gives no mapping. -/
inductive LoadFault
  | file (problem : FileProblem) (path : Path)
  | access (f : FileTree.Fault) (path : Path)
  | encoding (f : Text.Utf8.Fault)
  | integer (f : Integer.Fault)
  | value (f : Yaml.Fault)
  /-- Values lie too deep inside one another for the stack. -/
  | tooDeep
  deriving DecidableEq, Repr

/-- The text that a scalar or a list becomes; none for other values. -/
def valueText? : Document → Except Integer.Fault (Option Points)
  | .list items => (Document.joinTexts items).map some
  | .bool b => .ok (some (.ofString (Document.boolText b)))
  | .int n => (Integer.text n).map fun s => some (.ofString s)
  | .float x => .ok (some (.ofString (FloatText.render FloatText.plain x)))
  | _ => .ok none

/-- A value with numbers, truth values and lists replaced by their texts. -/
def normalizeValue (d : Document) : Except Integer.Fault Document :=
  (valueText? d).map fun t => t.elim d .str

def normalizeKey : Document → Except Integer.Fault Document
  | .int n => (Integer.text n).map fun s => .str (.ofString s)
  | .float x => .ok (.str (.ofString (FloatText.render FloatText.plain x)))
  | d => .ok d

/-- The entries of a map with normalised keys and values; of several under one key the last counts.
-/
def normalize (done : List (Document × Document)) :
    List (Document × Document) → Except Integer.Fault (List (Document × Document))
  | [] => .ok done
  | (k, v) :: rest =>
    match normalizeKey k with
    | .error f => .error f
    | .ok k =>
      match normalizeValue v with
      | .error f => .error f
      | .ok v => normalize (Document.setEntry k v done) rest

/-- The text that a value is: a text, or bytes that encode one. -/
def textOf? : Document → Option Points
  | .str s => some s
  | .bytes bs => (Text.Utf8.decode bs).toOption.map Points.ofChars
  | _ => none

/-- The key and the value of an entry, if both are texts. -/
def entryOf? (e : Document × Document) : Option (Points × Points) :=
  match textOf? e.1, textOf? e.2 with
  | some k, some v => some (k, v)
  | _, _ => none

/-- Why a document is no mapping. -/
inductive DocumentFault
  | problem (p : FileProblem)
  | integer (f : Integer.Fault)
  deriving DecidableEq, Repr

def ofDocument : Document → Except DocumentFault (Mapping Points)
  | .map entries =>
    match normalize [] entries with
    | .error f => .error (.integer f)
    | .ok entries =>
      match entries.mapM entryOf? with
      | some entries => .ok (Keyed.ofList entries)
      | none => .error (.problem .invalidSchema)
  | _ => .error (.problem .notMapping)

section Text

variable (h : Host) (path : Path)

def readJson (cs : List Char) : Except LoadFault Document :=
  if h.jsonOverflows cs then .error .tooDeep
  else
    match Json.read (String.ofList cs) with
    | .ok v => .ok (Document.ofJson v)
    | .error .malformed => .error (.file .invalidJson path)
    | .error (.integer f) => .error (.integer f)

def readYaml (cs : List Char) : Except LoadFault Document :=
  match h.yaml cs with
  | .ok d => if h.textOverflows d then .error .tooDeep else .ok d
  | .error .malformed => .error (.file .invalidYaml path)
  | .error f => .error (.value f)

/-- The document of a text, whose format the path tells. -/
def documentOf (cs : List Char) : Except LoadFault Document :=
  if path.isJson then readJson h path cs else readYaml h path cs

def ofText (cs : List Char) : Except LoadFault (Mapping Points) :=
  match documentOf h path cs with
  | .error f => .error f
  | .ok d =>
    match ofDocument d with
    | .ok m => .ok m
    | .error (.problem p) => .error (.file p path)
    | .error (.integer f) => .error (.integer f)

def ofBytes (bytes : List UInt8) : Except LoadFault (Mapping Points) :=
  match Text.Utf8.decode bytes with
  | .error f => .error (.encoding f)
  | .ok cs => ofText h path (Text.unifyNewlines cs)

end Text

/-- The bytes of a file that the system opens. -/
def bytesOf (h : Host) (files : FileTree) (path : Path) : Except FileTree.Fault (List UInt8) :=
  match h.refusal? path with
  | some f => .error f
  | none => files.read path

def load (h : Host) (files : FileTree) (path : Path) : Except LoadFault (Mapping Points) :=
  match bytesOf h files path with
  | .ok bytes => ofBytes h path bytes
  | .error .notFound => .error (.file .notFound path)
  | .error f => .error (.access f path)

def depthMessage : String := "maximum recursion depth exceeded"

def valueMessage : Yaml.Fault → String
  | .malformed => ""
  | .noSuchCharacter => "chr() arg not in range(0x110000)"
  | .codeTooLarge => "Python int too large to convert to C int"
  | .integer f => f.message
  | .notFloat s => "could not convert string to float: " ++ Text.quoted s
  | .placeTooLarge => "int too large to convert to float"
  | .emptyNumber => "string index out of range"
  | .notBool s => Text.quoted s
  | .notMoment => "'NoneType' object has no attribute 'groupdict'"
  | .momentOfMap => "expected string or bytes-like object, got 'list'"
  | .calendar f => f.message
  | .tooDeep => depthMessage
  | .other _ message => message

def LoadFault.message : LoadFault → String
  | file problem path => problem.wording ++ ": " ++ path.toString
  | access f path => f.message path
  | encoding f => f.message
  | integer f => f.message
  | value f => valueMessage f
  | tooDeep => depthMessage

end PercentTemplate.Mapping
