import PercentTemplate.Yaml.Node
import PercentTemplate.Yaml.Scalar

/-!
# Values of nodes

The document that the nodes of a YAML text stand for. Scalars get their values at once; collections
are filled in the order in which they were met, each once, however many references there are. So of
several faults the one in the outermost collections is reported.

## Main definitions

- `Yaml.Cell` — the value of a node, its parts by number
- `Yaml.Builder` — the state in which nodes get values
- `Yaml.Build.flatten` — take the merged entries into a mapping
- `Yaml.read` — the document of a YAML text

A way through the nodes can be as long as the stack allows, and without an end if a node is inside
itself: `room` is how much of the stack is left.
-/

namespace PercentTemplate.Yaml

open Text (Points)

/-- The value of a node, its parts by number. -/
inductive Cell where
  | scalar (d : Document)
  | list (items : List Nat)
  | map (entries : List (Document × Nat))
  | set (members : List Document)
  | pairs (entries : List (Nat × Nat))

/-- The state in which nodes get values. -/
structure Builder where
  /-- The nodes; merged entries have been taken into the mappings that are done. -/
  nodes : Array Node
  cells : Array (Option Cell)
  /-- The collections that are not filled yet, in the order in which they were met. -/
  waiting : List Nat
  room : Nat

/-- A step in which nodes get values. -/
abbrev Build := StateT Builder (Except Fault)

namespace Build

def node (id : Nat) : Build Node := do
  match (← get).nodes[id]? with
  | some n => return n
  | none => throw .malformed

def cell? (id : Nat) : Build (Option Cell) :=
  return ((← get).cells[id]?).join

def setCell (id : Nat) (cell : Cell) : Build Unit :=
  modify fun b => { b with cells := b.cells.setIfInBounds id (some cell) }

def setNode (id : Nat) (n : Node) : Build Unit :=
  modify fun b => { b with nodes := b.nodes.setIfInBounds id n }

/-- Give a collection an empty value, to be filled later. -/
def enqueue (id : Nat) (cell : Cell) : Build Unit := do
  setCell id cell
  modify fun b => { b with waiting := b.waiting ++ [id] }

/-- The text of a scalar, or of the default value of a mapping. -/
def scalarText : Nat → Nat → Build Points
  | 0, _ => throw .tooDeep
  | room + 1, id => do
    match (← node id).content with
    | .scalar text => return text
    | .sequence _ => throw .malformed
    | .mapping entries =>
      let nodes := (← get).nodes
      match entries.find? fun e => (nodes[e.1]?).any (·.tag == .value) with
      | some (_, value) => scalarText room value
      | none => throw .malformed

/-- Give a node its value: a scalar at once, a collection an empty one for now. -/
def visit (id : Nat) : Build Unit := do
  if (← cell? id).isSome then return
  let n ← node id
  match n.tag with
  | .seq => enqueue id (.list [])
  | .map => enqueue id (.map [])
  | .set => enqueue id (.set [])
  | .pairs => enqueue id (.pairs [])
  | .merge | .value | .other _ => throw .malformed
  | tag =>
    let text ← scalarText (← get).room id
    if tag == .timestamp && n.content.isMapping then throw .momentOfMap
    match Scalar.value tag text with
    | .ok d => setCell id (.scalar d)
    | .error f => throw f

def key (id : Nat) : Build Document := do
  visit id
  match ← cell? id with
  | some (.scalar d) => return d
  | _ => throw .malformed

def entries (id : Nat) : Build (List (Nat × Nat)) := do
  match (← node id).content with
  | .mapping es => return es
  | _ => throw .malformed

def setEntries (id : Nat) (es : List (Nat × Nat)) : Build Unit := do
  setNode id { ← node id with content := .mapping es }

/-- Whether the key of an entry merges other mappings. -/
def isMerging (nodes : Array Node) (e : Nat × Nat) : Bool :=
  (nodes[e.1]?).any (·.tag == .merge)

/-- The entries that are merged from a mapping or from several, of which the first has the last word.
What is merged from them is taken into them first, by `flatten`. -/
def mergedFrom (flatten : Nat → Build Unit) (id : Nat) : Build (List (Nat × Nat)) := do
  match (← node id).content with
  | .mapping _ =>
    flatten id
    entries id
  | .sequence items =>
    let all ← items.mapM fun item => do
      let _ ← entries item
      flatten item
      entries item
    return all.reverse.flatten
  | .scalar _ => throw .malformed

/-- Take `count` merging keys out of a mapping, or as many as there are: the entries that are merged
by them, behind `merged`. -/
def takeMerged (flatten : Nat → Build Unit) (id : Nat) :
    Nat → List (Nat × Nat) → Build (List (Nat × Nat))
  | 0, merged => return merged
  | count + 1, merged => do
    let es ← entries id
    let merging := isMerging (← get).nodes
    match es.find? merging with
    | none => return merged
    | some (_, value) =>
      setEntries id (es.eraseP merging)
      let more ← mergedFrom flatten value
      takeMerged flatten id count (merged ++ more)

/-- The key of the default value becomes a text. -/
def nameValue (e : Nat × Nat) : Build Unit := do
  let key ← node e.1
  if key.tag == .value then setNode e.1 { key with tag := .str }

/-- Take the merged entries into a mapping, before its own ones. The merging keys go away: there are
never more of them than at the beginning. -/
def flatten : Nat → Nat → Build Unit
  | 0, _ => throw .tooDeep
  | room + 1, id => do
    let count := (← entries id).countP (isMerging (← get).nodes)
    let merged ← takeMerged (flatten room) id count []
    let es ← entries id
    es.forM nameValue
    unless merged.isEmpty do setEntries id (merged ++ es)

/-- The map of entries, of which the last under a key counts. -/
def mapOf : List (Nat × Nat) → List (Document × Nat) → Build (List (Document × Nat))
  | [], done => return done
  | (k, v) :: rest, done => do
    let d ← key k
    visit v
    let place := done.findIdx? fun e => e.1.sameKey d
    mapOf rest <|
      match place with
      | some i => done.modify i fun e => (e.1, v)
      | none => done ++ [(d, v)]

def pairsOf : List Nat → Build (List (Nat × Nat))
  | [] => return []
  | id :: rest => do
    match ← entries id with
    | [(k, v)] =>
      visit k
      visit v
      return (k, v) :: (← pairsOf rest)
    | _ => throw .malformed

def items (id : Nat) : Build (List Nat) := do
  match (← node id).content with
  | .sequence is => return is
  | _ => throw .malformed

def fill (id : Nat) : Build Unit := do
  match (← node id).tag with
  | .seq =>
    let is ← items id
    is.forM visit
    setCell id (.list is)
  | .map =>
    flatten (← get).room id
    setCell id (.map (← mapOf (← entries id) []))
  | .set =>
    flatten (← get).room id
    setCell id (.set ((← mapOf (← entries id) []).map Prod.fst))
  | .pairs => setCell id (.pairs (← pairsOf (← items id)))
  | _ => throw .malformed

/-- Fill the waiting collections, those that are met on the way included. -/
def fillAll : Nat → Build Unit
  | 0 => return
  | fuel + 1 => do
    match (← get).waiting with
    | [] => return
    | id :: rest =>
      modify fun b => { b with waiting := rest }
      fill id
      fillAll fuel

end Build

/-- The document of a node. A list or map that contains itself is cut off where it does so. The two
outermost levels do not count for that: `depth` is how deep the node lies, and `around` are the
collections around it from the third level on. -/
def Cell.unfold (cells : Array (Option Cell)) : Nat → List Nat → Nat → Nat → Document
  | 0, _, _, _ => .null
  | fuel + 1, around, depth, id =>
    let inner := unfold cells fuel (if depth < 2 then [] else id :: around) (depth + 1)
    let isAgain := around.contains id
    match (cells[id]?).join with
    | none => .null
    | some (.scalar d) => d
    | some (.list items) => if isAgain then .again false else .list (items.map inner)
    | some (.map entries) =>
      if isAgain then .again true else .map (entries.map fun e => (e.1, inner e.2))
    | some (.set members) => .set members
    | some (.pairs entries) =>
      if isAgain then .again false
      else .list (entries.map fun e => .pair (inner e.1) (inner e.2))

def Graph.document (room : Nat) (g : Graph) : Except Fault Document :=
  let size := g.nodes.size
  let start : Builder := ⟨g.nodes, Array.replicate size none, [], room⟩
  let build : Build Unit := do
    Build.visit g.root
    Build.fillAll (size + 1)
  match build.run start with
  | .error f => .error f
  | .ok (_, b) => .ok (Cell.unfold b.cells (size + 4) [] 0 g.root)

/-- The document of a YAML text; that of an empty one is no value. -/
def read (room : Nat) (cs : List Char) : Except Fault Document :=
  match Graph.ofTokens room (lex cs) with
  | .error f => .error f
  | .ok none => .ok .null
  | .ok (some g) => g.document room

end PercentTemplate.Yaml
