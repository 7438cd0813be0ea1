import PercentTemplate.Yaml.Token.Basic

/-!
# Block scalars

Scalars of whole indented lines. After the bar line breaks are kept, after the angle bracket single
ones between lines that do not begin with a space read as a space. The header may give the
indentation and say whether the line breaks at the end are kept or dropped.

## Main definitions

- `Yaml.Block.Chomping`, `Yaml.Block.header` — what the header says
- `Yaml.Block.scan` — the scalar at the front of a source
-/

namespace PercentTemplate.Yaml.Block

/-- What becomes of the line breaks at the end. -/
inductive Chomping
  | clip
  | strip
  | keep
  deriving DecidableEq, Repr

def chomping? (c : Char) : Option Chomping :=
  if c = '+' then some .keep else if c = '-' then some .strip else none

/-- The rest of a line of which only spaces and a comment are left. -/
def ignoreLine (s : Source) : Except Fault Source :=
  let s := s.dropWhile (· = ' ')
  let s := if s.peek = '#' then s.dropWhile fun c => !isBreakOrEnd c else s
  if isBreakOrEnd s.peek then .ok s.lineBreak.2 else .error .malformed

/-- The chomping at the front of a source, if there is one. -/
def takeChomping (s : Source) : Option Chomping × Source :=
  match chomping? s.peek with
  | some c => (some c, s.advance)
  | none => (none, s)

/-- The indentation at the front of a source, if there is one; it is not zero. -/
def takeIndent (s : Source) : Reading (Option Nat) :=
  let c := s.peek
  if c = '0' then .error .malformed
  else if c.isDigit then .ok (some (c.toNat - 48), s.advance)
  else .ok (none, s)

/-- The header: chomping and indentation in either order. -/
def header (s : Source) : Reading (Chomping × Option Nat) :=
  let (first, s) := takeChomping s
  match takeIndent s with
  | .error f => .error f
  | .ok (indent, s) =>
    let (second, s) :=
      if first.isNone && indent.isSome then takeChomping s else (none, s)
    if isSpaceBreakOrEnd s.peek then .ok (((first.or second).getD .clip, indent), s)
    else .error .malformed

/-- Empty lines behind the reversed `done`, and the largest indentation seen. -/
def measureLines : Nat → List Char → Nat → Source → List Char × Nat × Source
  | 0, done, widest, s => (done, widest, s)
  | fuel + 1, done, widest, s =>
    if s.peek = ' ' then
      let s := s.advance
      measureLines fuel done (max widest s.column) s
    else
      match s.lineBreak with
      | (some b, s) => measureLines fuel (b :: done) widest s
      | (none, s) => (done, widest, s)

def dropIndent (indent : Nat) : Nat → Source → Source
  | 0, s => s
  | fuel + 1, s =>
    if s.column < indent && s.peek = ' ' then dropIndent indent fuel s.advance else s

/-- Empty lines behind the reversed `done`, up to the indentation of the next line. -/
def emptyLines (indent : Nat) : Nat → List Char → Source → List Char × Source
  | 0, done, s => (done, s)
  | fuel + 1, done, s =>
    let s := dropIndent indent indent s
    match s.lineBreak with
    | (some b, s) => emptyLines indent fuel (b :: done) s
    | (none, s) => (done, s)

def isSpace (c : Char) : Bool := c = ' ' || c = '\t'

/-- Lines of the scalar behind the reversed `done`; `lines` are the reversed empty lines before the
next one. The results are the text, the last line break and the empty lines after it. -/
def body (isFolded : Bool) (indent : Nat) :
    Nat → List Char → List Char → Source → List Char × List Char × List Char × Source
  | 0, done, lines, s => (done, [], lines, s)
  | fuel + 1, done, lines, s =>
    let startsWithText := !isSpace s.peek
    let (line, s) := s.takeWhile fun c => !isBreakOrEnd c
    let done := line.reverse ++ lines ++ done
    let (b, s) := s.lineBreak
    let last := b.toList
    let (lines, s) := emptyLines indent (s.rest.length + 1) [] s
    if s.column = indent && !s.rest.isEmpty then
      let joined :=
        if isFolded && last == ['\n'] && startsWithText && !isSpace s.peek then
          if lines.isEmpty then [' '] else []
        else last
      body isFolded indent fuel (joined ++ done) lines s
    else (done, last, lines, s)

/-- The scalar at the front of a source, which begins with its sign, inside a structure indented to
column `outer`. -/
def scan (isFolded : Bool) (outer : Int) (s : Source) : Reading Token :=
  match header s.advance with
  | .error f => .error f
  | .ok ((chomping, increment), s) =>
    match ignoreLine s with
    | .error f => .error f
    | .ok s =>
      let least := max (outer + 1).toNat 1
      let (lines, indent, s) :=
        match increment with
        | none =>
          let (lines, widest, s) := measureLines (s.rest.length + 1) [] 0 s
          (lines, max least widest, s)
        | some n =>
          let indent := least + n - 1
          let (lines, s) := emptyLines indent (s.rest.length + 1) [] s
          (lines, indent, s)
      let (done, last, lines, s) :=
        if s.column = indent && !s.rest.isEmpty then
          body isFolded indent (s.rest.length + 1) [] lines s
        else ([], [], lines, s)
      let done :=
        match chomping with
        | .strip => done
        | .clip => last ++ done
        | .keep => lines ++ last ++ done
      .ok (.scalar (.ofChars done.reverse) false, s)

end PercentTemplate.Yaml.Block
