import PercentTemplate.Document.Basic
import PercentTemplate.Text.Blank
import PercentTemplate.Text.UpperCase
import PercentTemplate.Yaml.Tag
import PercentTemplate.Yaml.Token.Basic

/-!
# Values of scalars

The value that the text of a scalar has under its type.

## Main definitions

- `Yaml.Scalar.integer`, `Yaml.Scalar.float` — numbers, in base sixty too
- `Yaml.Scalar.timestamp` — dates and points in time
- `Yaml.Scalar.binary` — bytes in base 64
- `Yaml.Scalar.value` — the value of a scalar of any type
-/

namespace PercentTemplate.Yaml.Scalar

def readInteger (base : Nat) (cs : List Char) : Except Fault Int :=
  (Integer.read base (String.ofList cs)).mapError .integer

/-- The number that parts stand for in base sixty, the most significant first. -/
def sixties (parts : List Int) : Int :=
  parts.foldl (fun n part => n * 60 + part) 0

/-- The integer that a text without sign and underscores stands for. -/
def magnitude (cs : List Char) : Except Fault Int :=
  match cs with
  | [] => .error .emptyNumber
  | ['0'] => .ok 0
  | '0' :: 'b' :: rest => readInteger 2 rest
  | '0' :: 'x' :: rest => readInteger 16 rest
  | '0' :: _ => readInteger 8 cs
  | cs =>
    if cs.contains ':' then ((Tag.splitColons [] cs).mapM (readInteger 10)).map sixties
    else readInteger 10 cs

/-- The sign of a number (whether it is negative) and the rest of its text, which may not be
empty. -/
def sign (cs : List Char) : Except Fault (Bool × List Char) :=
  if cs.isEmpty then .error .emptyNumber else .ok (Integer.takeSign cs)

/-- An integer: in base 2, 8, 10, 16 or sixty; underscores do not count. -/
def integer (text : String) : Except Fault Int :=
  match sign (text.toList.filter (· != '_')) with
  | .error f => .error f
  | .ok (negative, cs) => (magnitude cs).map fun n => if negative then -n else n

/-- Decimal digits of any script as ASCII digits; other characters stay. -/
def asciiDigits (cs : List Char) : List Char :=
  cs.map fun c => ((Text.decimalValue? c).map fun d => Char.ofNat (48 + d)).getD c

/-- The exponent that ends a decimal, the whole of `cs`. -/
def exponent? : List Char → Option Int
  | [] => some 0
  | e :: rest =>
    if e = 'e' ∨ e = 'E' then
      let (negative, digits) := Integer.takeSign rest
      if digits.isEmpty || !digits.all Char.isDigit then none
      else
        let n : Int := Integer.ofDigits digits
        some (if negative then -n else n)
    else none

/-- The fraction at the front of `cs` and the rest. -/
def takeFraction : List Char → List Char × List Char
  | '.' :: rest => (rest.takeWhile Char.isDigit, rest.dropWhile Char.isDigit)
  | cs => ([], cs)

/-- The decimal that the whole of `cs` is, without sign. -/
def decimal? (cs : List Char) : Option Float :=
  let whole := cs.takeWhile Char.isDigit
  let (places, rest) := takeFraction (cs.dropWhile Char.isDigit)
  if whole.isEmpty && places.isEmpty then none
  else (exponent? rest).map fun power =>
    FloatText.ofDecimal (Integer.ofDigits (whole ++ places)) (power - (places.length : Int))

/-- The number that a text stands for: a decimal or one of the names of infinity and of no number,
with blanks around it. -/
def readFloat (text : List Char) : Except Fault Float :=
  let (negative, cs) := Integer.takeSign (asciiDigits (Text.trim Text.isNumberBlank text))
  let name := String.ofList (Text.toLowerAscii cs)
  let x? :=
    if name == "inf" || name == "infinity" then some (1.0 / 0.0)
    else if name == "nan" then some (0.0 / 0.0)
    else decimal? cs
  match x? with
  | some x => .ok (if negative then -x else x)
  | none => .error (.notFloat (String.ofList text))

/-- The sum of parts in base sixty, the least significant first, with the place value of the next
one. -/
def floatSixties (sum : Float) (place : Nat) : List Float → Except Fault Float
  | [] => .ok sum
  | part :: rest =>
    let x := FloatText.ofDecimal place 0
    if x.isInf then .error .placeTooLarge else floatSixties (sum + part * x) (place * 60) rest

/-- The number that a text without sign and underscores stands for, in lower case. -/
def floatMagnitude (cs : List Char) : Except Fault Float :=
  if cs == ".inf".toList then .ok (1.0 / 0.0)
  else if cs == ".nan".toList then .ok (0.0 / 0.0)
  else if cs.contains ':' then
    match (Tag.splitColons [] cs).mapM readFloat with
    | .error f => .error f
    | .ok parts => floatSixties 0.0 1 parts.reverse
  else readFloat cs

/-- A floating-point number; underscores do not count. -/
def float (text : String) : Except Fault Float :=
  match sign (Text.toLowerAscii (text.toList.filter (· != '_'))) with
  | .error f => .error f
  | .ok (negative, cs) => (floatMagnitude cs).map fun x => if negative then -x else x

def bool (text : String) : Except Fault Bool :=
  let word := String.ofList (Text.toLowerAscii text.toList)
  if ["yes", "true", "on"].contains word then .ok true
  else if ["no", "false", "off"].contains word then .ok false
  else .error (.notBool word)

def timestamp (text : String) : Except Fault Document :=
  match Timestamp.parse? (Tag.dropFinalBreak text.toList) with
  | none => .error .notMoment
  | some t =>
    match t.time with
    | none =>
      match t.date.check with
      | some f => .error (.calendar f)
      | none => .ok (.date t.date)
    | some time =>
      let m := t.moment time
      match m.check with
      | some f => .error (.calendar f)
      | none => .ok (.moment m)

def digit64? (c : Char) : Option Nat :=
  if 'A' ≤ c ∧ c ≤ 'Z' then some (c.toNat - 65)
  else if 'a' ≤ c ∧ c ≤ 'z' then some (c.toNat - 71)
  else if c.isDigit then some (c.toNat + 4)
  else if c = '+' then some 62
  else if c = '/' then some 63
  else none

/-- The bytes of the rest of a text in base 64 behind the reversed `done`: `count` digits of the
current group of four have been read, `left` are their bits that make up no byte yet, and `pads` is
the number of padding signs since the last digit. Other characters are passed over. -/
def bytes64 (done : List UInt8) (count left pads : Nat) : List Char → Option (List UInt8)
  | [] => if count = 0 then some done.reverse else none
  | c :: rest =>
    if c = '=' then
      if 2 ≤ count then
        if 4 ≤ count + pads + 1 then some done.reverse
        else bytes64 done count left (pads + 1) rest
      else bytes64 done count left pads rest
    else match digit64? c with
    | none => bytes64 done count left pads rest
    | some d =>
      match count with
      | 0 => bytes64 done 1 d 0 rest
      | 1 => bytes64 (.ofNat (left * 4 + d / 16) :: done) 2 (d % 16) 0 rest
      | 2 => bytes64 (.ofNat (left * 16 + d / 4) :: done) 3 (d % 4) 0 rest
      | _ => bytes64 (.ofNat (left * 64 + d) :: done) 0 0 0 rest

def binary (text : String) : Except Fault (List UInt8) :=
  if text.toList.all fun c => c.toNat < 128 then
    (bytes64 [] 0 0 0 text.toList).elim (.error .malformed) .ok
  else .error .malformed

/-- The value of a scalar. A type for collections and an unknown one have no scalars. A text with a
surrogate is refused by every type but that of texts, just as one with a replacement character. -/
def value (tag : Tag) (text : Text.Points) : Except Fault Document :=
  match tag with
  | .null => .ok .null
  | .bool => (bool text.shown).map .bool
  | .int => (integer text.shown).map .int
  | .float => (float text.shown).map .float
  | .binary => (binary text.shown).map .bytes
  | .timestamp => timestamp text.shown
  | .str => .ok (.str text)
  | .seq | .map | .set | .pairs | .merge | .value | .other _ => .error .malformed

end PercentTemplate.Yaml.Scalar
