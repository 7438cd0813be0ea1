/-!
# YAML sources

The unread part of a YAML text with its place: offset, line and column. The end of the text looks
like the character with code zero, which no YAML text may hold.

## Main definitions

- `Yaml.Source` — the unread part of a text and its place
- `Yaml.Source.peek`, `Yaml.Source.skip` — look ahead and go on
- `Yaml.Source.lineBreak` — read one line break
-/

namespace PercentTemplate.Yaml

def isPrintable (c : Char) : Bool :=
  let n := c.toNat
  n = 9 || n = 10 || n = 13 || (0x20 ≤ n && n ≤ 0x7E) || n = 0x85 || (0xA0 ≤ n && n ≤ 0xFFFD)
    || 0x10000 ≤ n

/-- The character that stands for the end of a text. -/
def endMark : Char := '\x00'

def isBreak (c : Char) : Bool :=
  c = '\n' || c = '\r' || c = '\u0085' || c = '\u2028' || c = '\u2029'

/-- Whether `c` begins a line break or stands for the end. -/
def isBreakOrEnd (c : Char) : Bool := c = endMark || isBreak c

/-- Whether `c` is a space, begins a line break or stands for the end. -/
def isSpaceBreakOrEnd (c : Char) : Bool := c = ' ' || isBreakOrEnd c

/-- Whether `c` ends a word: a space, a tab, a line break or the end. -/
def isBlankOrEnd (c : Char) : Bool := c = '\t' || isSpaceBreakOrEnd c

def isNameChar (c : Char) : Bool := c.isAlphanum || c = '-' || c = '_'

def isHexDigit (c : Char) : Bool :=
  c.isDigit || ('a' ≤ c && c ≤ 'f') || ('A' ≤ c && c ≤ 'F')

/-- The unread part of a text and its place. -/
structure Source where
  rest : List Char
  index : Nat
  line : Nat
  column : Nat
  deriving DecidableEq, Repr

namespace Source

def ofChars (cs : List Char) : Source := ⟨cs, 0, 0, 0⟩

def peekAt (s : Source) (k : Nat) : Char := (s.rest.drop k).headD endMark

def peek (s : Source) : Char := s.rest.headD endMark

/-- Go on by one character. A byte order mark takes no column. -/
def advance (s : Source) : Source :=
  match s.rest with
  | [] => s
  | c :: rest =>
    if isBreak c && !(c = '\r' && rest.head? == some '\n') then ⟨rest, s.index + 1, s.line + 1, 0⟩
    else ⟨rest, s.index + 1, s.line, if c = '\ufeff' then s.column else s.column + 1⟩

def skip (s : Source) : Nat → Source
  | 0 => s
  | n + 1 => s.advance.skip n

/-- The longest run of characters of the class `p`, and what follows it. -/
def takeWhile (s : Source) (p : Char → Bool) : List Char × Source :=
  let run := s.rest.takeWhile p
  (run, s.skip run.length)

/-- What follows the longest run of characters of the class `p`. -/
def dropWhile (s : Source) (p : Char → Bool) : Source := (s.takeWhile p).2

/-- Read a line break. All but the line and the paragraph separator read as a line feed. -/
def lineBreak (s : Source) : Option Char × Source :=
  match s.rest with
  | '\r' :: '\n' :: _ => (some '\n', s.skip 2)
  | c :: _ =>
    if c = '\u2028' || c = '\u2029' then (some c, s.advance)
    else if isBreak c then (some '\n', s.advance)
    else (none, s)
  | [] => (none, s)

/-- Whether a marker of three characters stands here as a word of its own. -/
def startsMarker (s : Source) (marker : List Char) : Bool :=
  marker.isPrefixOf s.rest && isBlankOrEnd (s.peekAt 3)

/-- Whether a marker of the beginning or the end of a document stands here. -/
def startsDocumentMarker (s : Source) : Bool :=
  s.startsMarker "---".toList || s.startsMarker "...".toList

end Source

end PercentTemplate.Yaml
