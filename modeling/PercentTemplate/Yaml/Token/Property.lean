import PercentTemplate.Text.Hex
import PercentTemplate.Text.Utf8
import PercentTemplate.Yaml.Token.Block

/-!
# Names, tags and directives

What may stand before a node, and the lines before a document.

## Main definitions

- `Yaml.Property.name` — the name of an anchor or an alias
- `Yaml.Property.tag` — a tag
- `Yaml.Property.directive` — a directive
-/

namespace PercentTemplate.Yaml.Property

/-- The name after the sign of an anchor or an alias. -/
def name (s : Source) : Reading String :=
  let (cs, s) := s.advance.takeWhile isNameChar
  if cs.isEmpty then .error .malformed
  else if isBlankOrEnd s.peek || "?:,]\x7d%@`".toList.contains s.peek then
    .ok (String.ofList cs, s)
  else .error .malformed

/-- Whether `c` stands for itself in the text of a tag. -/
def isUriChar (c : Char) : Bool :=
  isNameChar c || ";/?:@&=+$,.!~*\x27()[]".toList.contains c

/-- The bytes of a run of percent escapes behind the reversed `done`. -/
def escapedBytes : Nat → List UInt8 → Source → Reading (List UInt8)
  | 0, done, s => .ok (done.reverse, s)
  | fuel + 1, done, s =>
    if s.peek = '%' then
      let digits := s.advance.rest.take 2
      if digits.length = 2 && digits.all isHexDigit then
        escapedBytes fuel (.ofNat ((Text.hexNumber? digits).getD 0) :: done) (s.skip 3)
      else .error .malformed
    else .ok (done.reverse, s)

/-- The text of a tag behind the reversed `done`. -/
def uriBody : Nat → List Char → Source → Reading (List Char)
  | 0, done, s => .ok (done, s)
  | fuel + 1, done, s =>
    if s.peek = '%' then
      match escapedBytes (s.rest.length + 1) [] s with
      | .error f => .error f
      | .ok (bytes, s) =>
        match Text.Utf8.decode bytes with
        | .error _ => .error .malformed
        | .ok cs => uriBody fuel (cs.reverse ++ done) s
    else
      let (cs, s) := s.takeWhile isUriChar
      if cs.isEmpty then .ok (done, s) else uriBody fuel (cs.reverse ++ done) s

def uri (s : Source) : Reading String :=
  match uriBody (s.rest.length + 1) [] s with
  | .error f => .error f
  | .ok (done, after) =>
    if after.index = s.index then .error .malformed else .ok (String.ofList done.reverse, after)

/-- The handle of a tag: an exclamation mark, or a name between two of them. -/
def handle (s : Source) : Reading String :=
  if s.peek ≠ '!' then .error .malformed
  else if s.peekAt 1 = ' ' then .ok ("!", s.advance)
  else
    let (cs, after) := s.advance.takeWhile isNameChar
    if after.peek = '!' then .ok (String.ofList ('!' :: cs ++ ['!']), after.advance)
    else .error .malformed

/-- Whether an exclamation mark stands in the word that `cs` begins with. -/
def hasHandle (cs : List Char) : Bool :=
  (cs.takeWhile fun c => !isSpaceBreakOrEnd c).contains '!'

/-- The handle and the text of a tag, which begins with an exclamation mark. -/
def tagParts (s : Source) : Reading (Option String × String) :=
  let c := s.peekAt 1
  if c = '<' then
    match uri (s.skip 2) with
    | .error f => .error f
    | .ok (suffix, s) => if s.peek = '>' then .ok ((none, suffix), s.advance) else .error .malformed
  else if isBlankOrEnd c then .ok ((none, "!"), s.advance)
  else
    match if hasHandle (s.rest.drop 1) then handle s else .ok ("!", s.advance) with
    | .error f => .error f
    | .ok (handle, s) => (uri s).map fun (suffix, s) => ((some handle, suffix), s)

def tag (s : Source) : Reading Token :=
  match tagParts s with
  | .error f => .error f
  | .ok ((handle, suffix), s) =>
    if isSpaceBreakOrEnd s.peek then .ok (.tag handle suffix, s) else .error .malformed

def number (s : Source) : Reading Nat :=
  let (cs, s) := s.takeWhile Char.isDigit
  if cs.isEmpty then .error .malformed
  else
    match Integer.ofDigitRun cs with
    | .ok n => .ok (n, s)
    | .error f => .error (.integer f)

def version (s : Source) : Reading Directive :=
  match number (s.dropWhile (· = ' ')) with
  | .error f => .error f
  | .ok (major, s) =>
    if s.peek ≠ '.' then .error .malformed
    else
      match number s.advance with
      | .error f => .error f
      | .ok (_, s) =>
        if isSpaceBreakOrEnd s.peek then .ok (.version major, s) else .error .malformed

def handleDirective (s : Source) : Reading Directive :=
  match handle (s.dropWhile (· = ' ')) with
  | .error f => .error f
  | .ok (handle, s) =>
    if s.peek ≠ ' ' then .error .malformed
    else
      match uri (s.dropWhile (· = ' ')) with
      | .error f => .error f
      | .ok (stem, s) =>
        if isSpaceBreakOrEnd s.peek then .ok (.handle handle stem, s) else .error .malformed

/-- The directive at the front of a source, up to the end of its line. -/
def directive (s : Source) : Reading Token :=
  let (cs, s) := s.advance.takeWhile isNameChar
  if cs.isEmpty || !isSpaceBreakOrEnd s.peek then .error .malformed
  else
    let content : Reading Directive :=
      if cs == "YAML".toList then version s
      else if cs == "TAG".toList then handleDirective s
      else .ok (.other, s.dropWhile fun c => !isBreakOrEnd c)
    match content with
    | .error f => .error f
    | .ok (d, s) => (Block.ignoreLine s).map fun s => (.directive d, s)

end PercentTemplate.Yaml.Property
