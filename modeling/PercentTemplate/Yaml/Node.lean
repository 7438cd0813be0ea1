import PercentTemplate.Keyed
import PercentTemplate.Yaml.Tag
import PercentTemplate.Yaml.Token.Lexer

/-!
# Nodes

The structure of a document: typed nodes that refer to each other by number, so that an alias is one
more reference to its node, even from inside it.

## Main definitions

- `Yaml.Node`, `Yaml.Graph` — a node, and the nodes of a document
- `Yaml.Composer` — the state in which tokens become nodes
- `Yaml.Graph.ofTokens` — the nodes of the only document in a sequence of tokens

Each production of the grammar is a function with a fuel, which the number of tokens bounds: every
second step at least consumes one.
-/

namespace PercentTemplate.Yaml

open Text (Points)

/-- What a node consists of. -/
inductive Content
  | scalar (text : Points)
  | sequence (items : List Nat)
  | mapping (entries : List (Nat × Nat))
  deriving DecidableEq, Repr, Inhabited

def Content.isMapping : Content → Bool
  | mapping _ => true
  | scalar _ | sequence _ => false

/-- A typed node. -/
structure Node where
  tag : Tag
  content : Content
  deriving DecidableEq, Repr

/-- The nodes of a document. -/
structure Graph where
  nodes : Array Node
  root : Nat
  deriving DecidableEq, Repr

/-- The state in which tokens become nodes. -/
structure Composer where
  tokens : List Token
  nodes : Array Node
  anchors : List (String × Nat)
  handles : List (String × String)
  /-- How much of the stack is left for nodes inside one another. -/
  room : Nat
  deriving DecidableEq, Repr

/-- A step in which tokens become nodes. -/
abbrev Compose := StateT Composer (Except Fault)

namespace Compose

def peek : Compose (Option Token) := do
  match (← get).tokens.head? with
  | some (.fault f) => throw f
  | token => return token

def drop : Compose Unit :=
  modify fun c => { c with tokens := c.tokens.drop 1 }

def isNext (tokens : List Token) : Compose Bool :=
  return (← peek).any tokens.contains

/-- Consume the next token if it is `token`, and say whether it was. -/
def accept (token : Token) : Compose Bool := do
  if ← isNext [token] then
    drop
    return true
  return false

def add (tag : Tag) (content : Content) : Compose Nat := do
  let c ← get
  set { c with nodes := c.nodes.push ⟨tag, content⟩ }
  return c.nodes.size

/-- The node that stands where nothing is written. -/
def absent : Compose Nat := add .null (.scalar [])

def name (anchor : Option String) (node : Nat) : Compose Unit :=
  match anchor with
  | none => return
  | some a => modify fun c => { c with anchors := (a, node) :: c.anchors }

def checkFree (anchor : Option String) : Compose Unit := do
  let anchors := (← get).anchors
  if anchor.any fun a => (Keyed.get? a anchors).isSome then throw .malformed

def resolve (anchor : String) : Compose Nat := do
  match Keyed.get? anchor (← get).anchors with
  | some node => return node
  | none => throw .malformed

def tagName (handle : Option String) (suffix : String) : Compose String := do
  match handle with
  | none => return suffix
  | some h =>
    match Keyed.get? h (← get).handles with
    | some stem => return stem ++ suffix
    | none => throw .malformed

def takeAnchor : Compose (Option String) := do
  match ← peek with
  | some (.anchor a) =>
    drop
    return some a
  | _ => return none

def takeTag : Compose (Option (Option String × String)) := do
  match ← peek with
  | some (.tag handle suffix) =>
    drop
    return some (handle, suffix)
  | _ => return none

/-- The anchor and the full name of the tag at the front, which stand in either order. -/
def takeProperties : Compose (Option String × Option String) := do
  let before ← takeAnchor
  let tag ← takeTag
  let anchor ← if before.isNone && tag.isSome then takeAnchor else pure before
  match tag with
  | some (handle, suffix) => return (anchor, some (← tagName handle suffix))
  | none => return (anchor, none)

/-- The tag that an exclamation mark alone gives: the type that an untagged node would have. -/
def unspecific : String := "!"

def collectionTag (tag : Option String) (default_ : Tag) : Tag :=
  match tag.filter (· != unspecific) with
  | some t => Tag.ofName t
  | none => default_

/-- The tag of a scalar. No type but that of texts has a replacement character in it, so that it
does for a surrogate here. -/
def scalarTag (tag : Option String) (text : Points) (isPlain : Bool) : Tag :=
  match tag with
  | none => if isPlain then Tag.ofPlain text.shown else .str
  | some t => if t == unspecific then Tag.ofPlain text.shown else Tag.ofName t

def addScalar (anchor : Option String) (tag : Tag) (text : Points) : Compose Nat := do
  checkFree anchor
  let node ← add tag (.scalar text)
  name anchor node
  return node

/-- What each collection around a node takes of the stack. -/
def levelRoom : Nat := 2

/-- Take the stack for one more collection, or give it back. -/
def enter : Compose Unit := do
  if (← get).room < levelRoom then throw .tooDeep
  modify fun c => { c with room := c.room - levelRoom }

def leave : Compose Unit :=
  modify fun c => { c with room := c.room + levelRoom }

/-- Add a collection, give it a name and then fill it with what `contents` makes. -/
def addCollection (anchor : Option String) (tag : Tag) (contents : Compose Content) :
    Compose Nat := do
  checkFree anchor
  enter
  let node ← add tag (.sequence [])
  name anchor node
  let content ← contents
  modify fun c => { c with nodes := c.nodes.setIfInBounds node ⟨tag, content⟩ }
  leave
  return node

mutual

/-- A node; `inBlock` if it may be an indented one, `orItems` if it may be a sequence that is not
indented. -/
def node : Nat → Bool → Bool → Compose Nat
  | 0, _, _ => throw .malformed
  | fuel + 1, inBlock, orItems => do
    if let some (.alias a) ← peek then
      drop
      return ← resolve a
    let (anchor, tag) ← takeProperties
    let sequence (items : Compose (List Nat)) : Compose Nat :=
      addCollection anchor (collectionTag tag .seq) (Content.sequence <$> items)
    let mapping (entries : Compose (List (Nat × Nat))) : Compose Nat :=
      addCollection anchor (collectionTag tag .map) (Content.mapping <$> entries)
    match ← peek with
    | some (.scalar text isPlain) =>
      drop
      addScalar anchor (scalarTag tag text isPlain) text
    | some .flowSequence =>
      drop
      sequence (flowItems fuel true)
    | some .flowMapping =>
      drop
      mapping (flowEntries fuel true)
    | token =>
      if orItems && token == some .blockEntry then sequence (plainItems fuel)
      else if inBlock && token == some .blockSequence then
        drop
        sequence (blockItems fuel)
      else if inBlock && token == some .blockMapping then
        drop
        mapping (blockEntries fuel)
      else if anchor.isSome || tag.isSome then addScalar anchor (scalarTag tag [] true) []
      else throw .malformed

def nodeBefore : Nat → List Token → Bool → Bool → Compose Nat
  | 0, _, _, _ => throw .malformed
  | fuel + 1, ends, inBlock, orItems => do
    if ← isNext ends then absent else node fuel inBlock orItems

/-- What follows the sign of a value, or nothing if there is no such sign. -/
def valueBefore : Nat → List Token → Bool → Bool → Compose Nat
  | 0, _, _, _ => throw .malformed
  | fuel + 1, ends, inBlock, orItems => do
    if ← accept .value then nodeBefore fuel ends inBlock orItems else absent

/-- The items of an indented sequence and its end. -/
def blockItems : Nat → Compose (List Nat)
  | 0 => throw .malformed
  | fuel + 1 => do
    if ← accept .blockEntry then
      let item ← nodeBefore fuel [.blockEntry, .blockEnd] true false
      return item :: (← blockItems fuel)
    else if ← accept .blockEnd then return []
    else throw .malformed

/-- The items of a sequence that is not indented; nothing marks its end. -/
def plainItems : Nat → Compose (List Nat)
  | 0 => throw .malformed
  | fuel + 1 => do
    if ← accept .blockEntry then
      let item ← nodeBefore fuel [.blockEntry, .key, .value, .blockEnd] true false
      return item :: (← plainItems fuel)
    else return []

/-- The entries of an indented mapping and its end. -/
def blockEntries : Nat → Compose (List (Nat × Nat))
  | 0 => throw .malformed
  | fuel + 1 => do
    if ← accept .key then
      let ends : List Token := [.key, .value, .blockEnd]
      let key ← nodeBefore fuel ends true true
      let value ← valueBefore fuel ends true true
      return (key, value) :: (← blockEntries fuel)
    else if ← accept .blockEnd then return []
    else throw .malformed

/-- The items of a bracketed sequence and its end; a single pair is a mapping. -/
def flowItems : Nat → Bool → Compose (List Nat)
  | 0, _ => throw .malformed
  | fuel + 1, first => do
    if ← accept .flowSequenceEnd then return []
    if !first then
      unless ← accept .flowEntry do throw .malformed
    if ← accept .key then
      let ends : List Token := [.flowEntry, .flowSequenceEnd]
      let pair ← addCollection none .map do
        let key ← nodeBefore fuel (.value :: ends) false false
        let value ← valueBefore fuel ends false false
        return .mapping [(key, value)]
      return pair :: (← flowItems fuel false)
    else if ← accept .flowSequenceEnd then return []
    else
      let item ← node fuel false false
      return item :: (← flowItems fuel false)

/-- The entries of a bracketed mapping and its end. -/
def flowEntries : Nat → Bool → Compose (List (Nat × Nat))
  | 0, _ => throw .malformed
  | fuel + 1, first => do
    if ← accept .flowMappingEnd then return []
    if !first then
      unless ← accept .flowEntry do throw .malformed
    if ← accept .key then
      let ends : List Token := [.flowEntry, .flowMappingEnd]
      let key ← nodeBefore fuel (.value :: ends) false false
      let value ← valueBefore fuel ends false false
      return (key, value) :: (← flowEntries fuel false)
    else if ← accept .flowMappingEnd then return []
    else
      let key ← node fuel false false
      let value ← absent
      return (key, value) :: (← flowEntries fuel false)

end

def defaultHandles : List (String × String) := [("!", "!"), ("!!", Tag.stem)]

/-- The directives before a document, with the handles and whether the version is given so far. A
version or a handle may be given only once. -/
def directives : Nat → List (String × String) → Bool → Compose (List (String × String))
  | 0, handles, _ => return handles
  | fuel + 1, handles, versioned => do
    match ← peek with
    | some (.directive (.version major)) =>
      if versioned || major != 1 then throw .malformed
      drop
      directives fuel handles true
    | some (.directive (.handle h stem)) =>
      if (Keyed.get? h handles).isSome then throw .malformed
      drop
      directives fuel (handles ++ [(h, stem)]) versioned
    | some (.directive .other) =>
      drop
      directives fuel handles versioned
    | _ => return handles

def documentEnds : Nat → Compose Unit
  | 0 => return
  | fuel + 1 => do
    if ← accept .documentEnd then documentEnds fuel

/-- The outermost node of a document that directives or a marker may begin. -/
def document (fuel : Nat) : Compose Nat := do
  match ← peek with
  | some (.directive _) | some .documentStart =>
    let handles ← directives fuel [] false
    modify fun c => { c with handles := handles ++ defaultHandles }
    unless ← accept .documentStart do throw .malformed
    match ← peek with
    | none | some (.directive _) | some .documentStart | some .documentEnd => absent
    | some _ => node fuel true false
  | _ => node fuel true false

/-- The only document of a text; an empty text has none. -/
def only (fuel : Nat) : Compose (Option Nat) := do
  if (← peek).isNone then return none
  let root ← document fuel
  documentEnds fuel
  if (← peek).isSome then
    -- The directives of a second document are looked at before it is refused.
    let _ ← directives fuel [] false
    throw .malformed
  return some root

end Compose

/-- The nodes of the only document in a sequence of tokens; an empty one has none. `room` is how much
of the stack is left. -/
def Graph.ofTokens (room : Nat) (tokens : List Token) : Except Fault (Option Graph) :=
  let start : Composer := ⟨tokens, #[], [], Compose.defaultHandles, room⟩
  match (Compose.only (8 * tokens.length + 8)).run start with
  | .error f => .error f
  | .ok (none, _) => .ok none
  | .ok (some root, c) => .ok (some ⟨c.nodes, root⟩)

end PercentTemplate.Yaml
