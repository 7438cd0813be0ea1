import PercentTemplate.Text.Hex
import PercentTemplate.Yaml.Token.Basic

/-!
# Quoted scalars

Scalars between single quotes, in which a quote is written twice, and between double quotes, in
which a backslash introduces escapes. A line break inside reads as a space, and one with empty lines
after it as those.

## Main definitions

- `Yaml.Quoted.escape` — what a backslash introduces
- `Yaml.Quoted.scan` — the scalar at the front of a source
-/

namespace PercentTemplate.Yaml.Quoted

open Text (Point Points)

/-- The character that a one-letter escape stands for. -/
def escapeChar? (c : Char) : Option Char :=
  match c with
  | '0' => some '\x00'
  | 'a' => some '\x07'
  | 'b' => some '\x08'
  | 't' => some '\t'
  | '\t' => some '\t'
  | 'n' => some '\n'
  | 'v' => some '\x0b'
  | 'f' => some '\x0c'
  | 'r' => some '\r'
  | 'e' => some '\x1b'
  | ' ' => some ' '
  | '"' => some '"'
  | '\\' => some '\\'
  | '/' => some '/'
  | 'N' => some '\u0085'
  | '_' => some '\u00a0'
  | 'L' => some '\u2028'
  | 'P' => some '\u2029'
  | _ => none

/-- The number of digits that a code escape takes. -/
def codeLength? (c : Char) : Option Nat :=
  match c with
  | 'x' => some 2
  | 'u' => some 4
  | 'U' => some 8
  | _ => none

/-- The code point with a given code. -/
def ofCode (n : Nat) : Except Fault Point :=
  if 0x7FFFFFFF < n then .error .codeTooLarge
  else if 0x10FFFF < n then .error .noSuchCharacter
  else .ok (.ofCode n)

/-- Empty lines behind the reversed `done`. The marker of a document may not stand in a scalar. -/
def breaks : Nat → Points → Source → Reading Points
  | 0, done, s => .ok (done, s)
  | fuel + 1, done, s =>
    if s.startsDocumentMarker then .error .malformed
    else
      let s := s.dropWhile fun c => c = ' ' || c = '\t'
      match s.lineBreak with
      | (some b, s) => breaks fuel (.char b :: done) s
      | (none, s) => .ok (done, s)

/-- What a backslash introduces, behind the reversed `done`. -/
def escape (done : Points) (s : Source) : Reading Points :=
  let c := s.peek
  match escapeChar? c, codeLength? c with
  | some e, _ => .ok (.char e :: done, s.advance)
  | none, some length =>
    let digits := s.advance.rest.take length
    if digits.length = length && digits.all isHexDigit then
      (ofCode ((Text.hexNumber? digits).getD 0)).map fun e =>
        (e :: done, s.advance.skip length)
    else .error .malformed
  | none, none =>
    match s.lineBreak with
    | (some _, s) => breaks (s.rest.length + 1) done s
    | (none, _) => .error .malformed

/-- Text without spaces and line breaks behind the reversed `done`. -/
def word (isDouble : Bool) : Nat → Points → Source → Reading Points
  | 0, done, s => .ok (done, s)
  | fuel + 1, done, s =>
    let c := s.peek
    if isBlankOrEnd c then .ok (done, s)
    else if isDouble then
      if c = '"' then .ok (done, s)
      else if c = '\\' then
        match escape done s.advance with
        | .ok (done, s) => word isDouble fuel done s
        | .error f => .error f
      else word isDouble fuel (.char c :: done) s.advance
    else if c = '\x27' then
      if s.peekAt 1 = '\x27' then word isDouble fuel (.char c :: done) (s.skip 2) else .ok (done, s)
    else word isDouble fuel (.char c :: done) s.advance

/-- Spaces and line breaks behind the reversed `done`. -/
def gap (done : Points) (s : Source) : Reading Points :=
  let (spaces, s) := s.takeWhile fun c => c = ' ' || c = '\t'
  match s.lineBreak with
  | (some b, after) =>
    match breaks (after.rest.length + 1) [] after with
    | .error f => .error f
    | .ok (lines, after) =>
      let start : List Char := if b ≠ '\n' then [b] else if lines.isEmpty then [' '] else []
      .ok (lines ++ .ofChars start ++ done, after)
  | (none, s) =>
    if s.rest.isEmpty then .error .malformed else .ok (.ofChars spaces.reverse ++ done, s)

/-- Words and gaps up to the closing quote behind the reversed `done`. -/
def body (isDouble : Bool) : Nat → Points → Source → Reading Points
  | 0, _, _ => .error .malformed
  | fuel + 1, done, s =>
    match word isDouble (s.rest.length + 1) done s with
    | .error f => .error f
    | .ok (done, s) =>
      if s.peek = (if isDouble then '"' else '\x27') then .ok (done, s.advance)
      else
        match gap done s with
        | .error f => .error f
        | .ok (done, s) => body isDouble fuel done s

/-- The scalar at the front of a source, which begins with its quote. -/
def scan (isDouble : Bool) (s : Source) : Reading Token :=
  (body isDouble (s.rest.length + 1) [] s.advance).map fun (done, s) =>
    (.scalar done.reverse false, s)

end PercentTemplate.Yaml.Quoted
