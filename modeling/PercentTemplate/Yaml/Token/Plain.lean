import PercentTemplate.Yaml.Token.Basic

/-!
# Plain scalars

Scalars without quotes. They end at a comment, at a colon before a space, at a line that is indented
less than their surroundings and, between brackets, at a comma, a question mark and a bracket.

## Main definitions

- `Yaml.Plain.begins` — whether a plain scalar begins here
- `Yaml.Plain.scan` — the scalar at the front of a source
-/

namespace PercentTemplate.Yaml.Plain

/-- Whether `c` is one of the characters that delimit items between brackets. -/
def isFlowMark (c : Char) : Bool :=
  c = ',' || c = '[' || c = ']' || c = '\x7b' || c = '\x7d'

/-- Whether `c` has a meaning at the beginning of a word. -/
def isIndicator (c : Char) : Bool :=
  isFlowMark c || "-?:#&*!|>\x27\"%@`".toList.contains c

def begins (inFlow : Bool) (s : Source) : Bool :=
  let c := s.peek
  (!isBlankOrEnd c && !isIndicator c)
    || (!isBlankOrEnd (s.peekAt 1) && (c = '-' || (!inFlow && (c = '?' || c = ':'))))

/-- Whether a plain scalar is interrupted by the characters `cs`. -/
def isInterrupted (inFlow : Bool) (cs : List Char) : Bool :=
  let c := cs.headD endMark
  let d := (cs.drop 1).headD endMark
  isBlankOrEnd c || (c = ':' && (isBlankOrEnd d || (inFlow && isFlowMark d)))
    || (inFlow && (isFlowMark c || c = '?'))

/-- How many characters stand before the next interruption. -/
def wordLength (inFlow : Bool) : List Char → Nat
  | [] => 0
  | c :: rest => if isInterrupted inFlow (c :: rest) then 0 else wordLength inFlow rest + 1

/-- Empty lines behind the reversed `done`; `none` at the marker of a document. -/
def emptyLines : Nat → List Char → Source → Option (List Char) × Source
  | 0, done, s => (some done, s)
  | fuel + 1, done, s =>
    let s := s.dropWhile (· = ' ')
    match s.lineBreak with
    | (some b, s) =>
      if s.startsDocumentMarker then (none, s) else emptyLines fuel (b :: done) s
    | (none, s) => (some done, s)

/-- The reversed spaces and line breaks between two words, and whether there was a line break.
Before the marker of a document there are none. -/
def gap (s : Source) : List Char × Bool × Source :=
  let (spaces, s) := s.takeWhile (· = ' ')
  match s.lineBreak with
  | (none, s) => (spaces, false, s)
  | (some b, s) =>
    if s.startsDocumentMarker then ([], true, s)
    else
      match emptyLines (s.rest.length + 1) [] s with
      | (none, s) => ([], true, s)
      | (some lines, s) =>
        (lines ++ (if b ≠ '\n' then [b] else if lines.isEmpty then [' '] else []), true, s)

/-- Words behind the reversed `done`, the reversed `space` before the first one; also whether the
last gap held a line break. -/
def body (inFlow : Bool) (indent : Int) :
    Nat → List Char → List Char → Bool → Source → List Char × Bool × Source
  | 0, done, _, newLine, s => (done, newLine, s)
  | fuel + 1, done, space, newLine, s =>
    let length := if s.peek = '#' then 0 else wordLength inFlow s.rest
    if length = 0 then (done, newLine, s)
    else
      let done := (s.rest.take length).reverse ++ space ++ done
      let (space, newLine, s) := gap (s.skip length)
      if space.isEmpty || s.peek = '#' || (!inFlow && (s.column : Int) < indent) then
        (done, newLine, s)
      else body inFlow indent fuel done space newLine s

/-- The scalar at the front of a source inside a structure indented to column `outer`; also whether
it was followed by a line break. -/
def scan (inFlow : Bool) (outer : Int) (s : Source) : Token × Bool × Source :=
  let (done, newLine, s) := body inFlow (outer + 1) (s.rest.length + 1) [] [] false s
  (.scalar (.ofChars done.reverse) true, newLine, s)

end PercentTemplate.Yaml.Plain
