import PercentTemplate.Keyed
import PercentTemplate.Yaml.Token.Plain
import PercentTemplate.Yaml.Token.Property
import PercentTemplate.Yaml.Token.Quoted

/-!
# Lexing YAML

The tokens of a text. A word that could turn out to be a key is remembered with its place among the
tokens; the colon after it puts the tokens of a key, and if need be of a mapping, there.

## Main definitions

- `Yaml.Lexer` — the state of the lexer
- `Yaml.Lexer.step` — the effect of one word
- `Yaml.lex` — the tokens of a text
-/

namespace PercentTemplate.Yaml

/-- A word that could turn out to be a key. -/
structure PossibleKey where
  position : Nat
  isRequired : Bool
  index : Nat
  line : Nat
  column : Nat
  deriving DecidableEq, Repr

/-- The state of the lexer. -/
structure Lexer where
  source : Source
  tokens : Array Token
  depth : Nat
  /-- The column of the innermost indented structure; -1 outside of all. -/
  indent : Int
  /-- The columns of the structures around it, the innermost first. -/
  outer : List Int
  keyAllowed : Bool
  /-- The words that could turn out to be keys, by the number of open brackets around them. -/
  keys : List (Nat × PossibleKey)
  deriving DecidableEq, Repr

namespace Lexer

def start (cs : List Char) : Lexer := ⟨.ofChars cs, #[], 0, -1, [], true, []⟩

def inFlow (l : Lexer) : Bool := l.depth != 0

def push (l : Lexer) (t : Token) : Lexer := { l with tokens := l.tokens.push t }

def pushSkip (l : Lexer) (t : Token) (n : Nat) : Lexer :=
  { l.push t with source := l.source.skip n }

def pushRead (l : Lexer) : Reading Token → Except Fault Lexer
  | .ok (t, source) => .ok { l.push t with source := source }
  | .error f => .error f

/-- Whether a word can be a key no more: it is on an earlier line or too far back. -/
def isStale (l : Lexer) (k : PossibleKey) : Bool :=
  k.line != l.source.line || k.index + 1024 < l.source.index

/-- Forget the words that can be keys no more. -/
def forgetStale (l : Lexer) : Except Fault Lexer :=
  if l.keys.any fun k => l.isStale k.2 && k.2.isRequired then .error .malformed
  else .ok { l with keys := l.keys.filter fun k => !l.isStale k.2 }

/-- Forget the word that could be a key at this depth. -/
def forgetKey (l : Lexer) : Except Fault Lexer :=
  match Keyed.get? l.depth l.keys with
  | none => .ok l
  | some k =>
    if k.isRequired then .error .malformed
    else .ok { l with keys := l.keys.filter fun k => k.1 != l.depth }

/-- Remember the next word as a possible key, if one may begin here. -/
def rememberKey (l : Lexer) : Except Fault Lexer :=
  if !l.keyAllowed then .ok l
  else
    match l.forgetKey with
    | .error f => .error f
    | .ok l =>
      let s := l.source
      let isRequired := !l.inFlow && l.indent == s.column
      let key : PossibleKey := ⟨l.tokens.size, isRequired, s.index, s.line, s.column⟩
      .ok { l with keys := (l.depth, key) :: l.keys }

def closeBlocks (column : Int) (l : Lexer) : Lexer :=
  if l.inFlow then l
  else
    let closed := (l.indent :: l.outer).takeWhile (column < ·)
    let columns := (l.indent :: l.outer).dropWhile (column < ·)
    { l with
      tokens := l.tokens ++ (closed.map fun _ => Token.blockEnd).toArray
      indent := columns.headD (-1)
      outer := columns.drop 1 }

/-- Begin an indented structure at a column unless one is there: the token goes to `position`. -/
def openBlock (l : Lexer) (column : Nat) (position : Nat) (t : Token) : Lexer :=
  if l.indent < column then
    { l with
      tokens := l.tokens.insertIdxIfInBounds position t
      indent := column
      outer := l.indent :: l.outer }
  else l

/-- Spaces, comments and line breaks before the next word. After a line break outside of brackets a
key may begin. -/
def skipBlank : Nat → Lexer → Lexer
  | 0, l => l
  | fuel + 1, l =>
    let s := l.source.dropWhile (· = ' ')
    let s := if s.peek = '#' then s.dropWhile fun c => !isBreakOrEnd c else s
    match s.lineBreak with
    | (some _, s) =>
      skipBlank fuel { l with source := s, keyAllowed := l.keyAllowed || !l.inFlow }
    | (none, s) => { l with source := s }

/-- Go to the next word. A byte order mark at the very beginning is passed over. -/
def toNextWord (l : Lexer) : Lexer :=
  let l :=
    if l.source.index = 0 && l.source.peek = '\ufeff' then { l with source := l.source.advance }
    else l
  skipBlank (l.source.rest.length + 1) l

def finish (l : Lexer) : Except Fault Lexer :=
  (l.closeBlocks (-1)).forgetKey

/-- A line or a marker around a document: it ends all indented structures. -/
def documentWord (l : Lexer) : Except Fault Lexer :=
  ((l.closeBlocks (-1)).forgetKey).map fun l => { l with keyAllowed := false }

/-- A word that may begin a key, the rest of which `read` reads. -/
def keyWord (l : Lexer) (read : Source → Reading Token) : Except Fault Lexer :=
  match l.rememberKey with
  | .error f => .error f
  | .ok l => { l with keyAllowed := false }.pushRead (read l.source)

def openFlow (l : Lexer) (t : Token) : Except Fault Lexer :=
  l.rememberKey.map fun l => { l.pushSkip t 1 with depth := l.depth + 1, keyAllowed := true }

def closeFlow (l : Lexer) (t : Token) : Except Fault Lexer :=
  l.forgetKey.map fun l => { l.pushSkip t 1 with depth := l.depth - 1, keyAllowed := false }

def flowEntry (l : Lexer) : Except Fault Lexer :=
  l.forgetKey.map fun l => { l.pushSkip .flowEntry 1 with keyAllowed := true }

def blockEntry (l : Lexer) : Except Fault Lexer :=
  if !l.inFlow && !l.keyAllowed then .error .malformed
  else
    let l :=
      if l.inFlow then l else l.openBlock l.source.column l.tokens.size .blockSequence
    l.forgetKey.map fun l => { l.pushSkip .blockEntry 1 with keyAllowed := true }

def explicitKey (l : Lexer) : Except Fault Lexer :=
  if !l.inFlow && !l.keyAllowed then .error .malformed
  else
    let l :=
      if l.inFlow then l else l.openBlock l.source.column l.tokens.size .blockMapping
    l.forgetKey.map fun l => { l.pushSkip .key 1 with keyAllowed := !l.inFlow }

/-- The colon before a value. If a word before it could be a key, it is one. -/
def value (l : Lexer) : Except Fault Lexer :=
  match Keyed.get? l.depth l.keys with
  | some k =>
    let l := { l with
      keys := l.keys.filter fun k => k.1 != l.depth
      tokens := l.tokens.insertIdxIfInBounds k.position .key }
    let l := if l.inFlow then l else l.openBlock k.column k.position .blockMapping
    .ok { l.pushSkip .value 1 with keyAllowed := false }
  | none =>
    if !l.inFlow && !l.keyAllowed then .error .malformed
    else
      let l :=
        if l.inFlow then l else l.openBlock l.source.column l.tokens.size .blockMapping
      .ok { l.pushSkip .value 1 with keyAllowed := !l.inFlow }

def blockScalar (l : Lexer) (isFolded : Bool) : Except Fault Lexer :=
  match l.forgetKey with
  | .error f => .error f
  | .ok l => { l with keyAllowed := true }.pushRead (Block.scan isFolded l.indent l.source)

/-- A plain scalar. After a line break in it a key may begin. -/
def plainScalar (l : Lexer) : Except Fault Lexer :=
  l.rememberKey.map fun l =>
    let (t, newLine, source) := Plain.scan l.inFlow l.indent l.source
    { l.push t with source := source, keyAllowed := newLine }

/-- The word at the front of the unread text, which is not empty. -/
def word (l : Lexer) : Except Fault Lexer :=
  let s := l.source
  let c := s.peek
  if c = '%' && s.column = 0 then
    match l.documentWord with
    | .error f => .error f
    | .ok l => l.pushRead (Property.directive s)
  else if s.column = 0 && s.startsMarker "---".toList then
    l.documentWord.map fun l => l.pushSkip .documentStart 3
  else if s.column = 0 && s.startsMarker "...".toList then
    l.documentWord.map fun l => l.pushSkip .documentEnd 3
  else if c = '[' then l.openFlow .flowSequence
  else if c = '\x7b' then l.openFlow .flowMapping
  else if c = ']' then l.closeFlow .flowSequenceEnd
  else if c = '\x7d' then l.closeFlow .flowMappingEnd
  else if c = ',' then l.flowEntry
  else if c = '-' && isBlankOrEnd (s.peekAt 1) then l.blockEntry
  else if c = '?' && (l.inFlow || isBlankOrEnd (s.peekAt 1)) then l.explicitKey
  else if c = ':' && (l.inFlow || isBlankOrEnd (s.peekAt 1)) then l.value
  else if c = '*' then
    l.keyWord fun s => (Property.name s).map fun (n, s) => (.alias n, s)
  else if c = '&' then
    l.keyWord fun s => (Property.name s).map fun (n, s) => (.anchor n, s)
  else if c = '!' then l.keyWord Property.tag
  else if c = '|' && !l.inFlow then l.blockScalar false
  else if c = '>' && !l.inFlow then l.blockScalar true
  else if c = '\x27' then l.keyWord (Quoted.scan false)
  else if c = '"' then l.keyWord (Quoted.scan true)
  else if Plain.begins l.inFlow s then l.plainScalar
  else .error .malformed

/-- Go to the next word and read it; at the end of the text finish. The second result says whether
there was a word. -/
def step (l : Lexer) : Except Fault (Lexer × Bool) :=
  match l.toNextWord.forgetStale with
  | .error f => .error f
  | .ok l =>
    let l := l.closeBlocks l.source.column
    if l.source.rest.isEmpty then l.finish.map fun l => (l, false)
    else l.word.map fun l => (l, true)

/-- The tokens that do not depend on the text that is still unread: those in front of all words that
can still turn out to be keys. -/
def settled (l : Lexer) : Array Token :=
  let waiting := l.keys.filter fun k => k.2.isRequired || !l.isStale k.2
  match (waiting.map fun k => k.2.position).min? with
  | some position => l.tokens.take position
  | none => l.tokens

/-- Read the rest of the text. A fault becomes the last token, behind those that are settled: a word
is handed over only once it is known whether it is a key, so that a fault further on comes first. -/
def run : Nat → Lexer → Array Token
  | 0, l => l.tokens
  | fuel + 1, l =>
    match l.step with
    | .error f => l.settled.push (.fault f)
    | .ok (l, true) => run fuel l
    | .ok (l, false) => l.tokens

end Lexer

/-- The tokens of a text. Every word takes at least one character. -/
def lex (cs : List Char) : List Token :=
  if cs.all isPrintable then (Lexer.run (cs.length + 1) (.start cs)).toList else [.fault .malformed]

end PercentTemplate.Yaml
